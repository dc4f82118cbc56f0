/-
The transmit rings of the Ethernet driver (bx_mac_net.c, bx_mac_desc.c,
bx_mac_hw.c): how many descriptors a packet is given, how its buffers are
mapped, how the descriptors are written and how they are reclaimed.

# Packets

`Skb` is what the driver reads of a `struct sk_buff`. Its bytes are known
by where they lie: in the linear part or in a fragment, and at which
offset. The network stack counts fragments in 8 bits and keeps `len` the
sum of the parts.

# Memory

`dma_map_single` and `skb_frag_dma_map` are the kernel's. What they
answer is a parameter of each call of `mac_xmit`, an answer for each
piece in turn. A mapping is known by its number, the count of the
mappings made before it; the logs keep the mappings, those undone, the
packets freed and the bytes reported.

# The NIC

It completes the descriptors it owns in ring order: it writes the
descriptor back with the OWN bit clear and the LD bit as it was. The tail
register, which only tells it to look, is left out.
-/
import BxRnic.Lib.Field
import BxRnic.Mac.RxRing
import BxRnic.Mac.TxQueue

namespace BxRnic.Mac

-- ============================================================== packets

/-- What the driver reads of a `struct sk_buff`. -/
structure Skb where
  /-- Which buffer it is. -/
  id : Nat
  len : U32
  /-- `skb_headlen` -/
  headlen : U32
  /-- `skb_frag_size` of each fragment. -/
  frags : List U32
  /-- `ip_summed == CHECKSUM_PARTIAL` -/
  csumPartial : Bool
  gsoSize : U16
  gsoSegs : U16
  /-- `skb_vlan_tag_get`, if `skb_vlan_tag_present`. -/
  vlanTag : Option U16
  /-- `skb_transport_offset` -/
  transportOffset : U32
  /-- `tcp_hdrlen` -/
  tcpHdrlen : U32
  frags_le : frags.length ≤ 255
  len_eq : len.toNat = headlen.toNat + (frags.map (·.toNat)).sum

/-- `mac_is_tso` -/
def Skb.isTso (skb : Skb) : Bool := skb.csumPartial && skb.gsoSize ≠ 0

/-- `struct mac_pkt_info`, of a packet that is sent. -/
structure PktInfo where
  attributes : U32
  descCount : U32
  length : U32
  txPackets : U32
  txBytes : U32
  headerLen : U32
  tcpHeaderLen : U32
  tcpPayloadLen : U32
  mss : U16
  vlanCtag : U16
deriving DecidableEq

/-- The zeroed structure. -/
def PktInfo.zero : PktInfo := ⟨0, 0, 0, 0, 0, 0, 0, 0, 0, 0⟩

/-- `TX_PACKET_ATTRIBUTES_CSUM_ENABLE` -/
def PktInfo.csum (pkt : PktInfo) : Bool := Field.get pkt.attributes 0 1 ≠ 0

/-- `TX_PACKET_ATTRIBUTES_TSO_ENABLE` -/
def PktInfo.tso (pkt : PktInfo) : Bool := Field.get pkt.attributes 1 1 ≠ 0

/-- `TX_PACKET_ATTRIBUTES_VLAN_CTAG` -/
def PktInfo.vlan (pkt : PktInfo) : Bool := Field.get pkt.attributes 2 1 ≠ 0

/-- `TX_PACKET_ATTRIBUTES_PTP` -/
def PktInfo.ptp (pkt : PktInfo) : Bool := Field.get pkt.attributes 3 1 ≠ 0

-- ============================================================= the ring

/-- A part of a packet's memory. -/
inductive Source
  | linear
  | frag (i : Nat)
deriving DecidableEq

/-- A stretch of a packet. -/
structure Piece where
  src : Source
  off : U32
  len : U32
deriving DecidableEq

/-- A mapping of a stretch of a packet for the NIC. -/
structure TxMapping where
  skb : Nat
  piece : Piece
  dma : U64
deriving DecidableEq

/-- `struct mac_desc_data` of a transmit ring, with the number of the
mapping whose address it holds. -/
structure TxDescData where
  skb : Option Nat
  skbDma : U64
  skbDmaLen : U32
  packets : U32
  bytes : U32
  mappedAsPage : Bool
  mapping : Option Nat
deriving DecidableEq

/-- The zeroed structure. -/
def TxDescData.zero : TxDescData := ⟨none, 0, 0, 0, 0, false, none⟩

/-- A descriptor of zero bytes. -/
def DmaDesc.zero : DmaDesc := ⟨0, 0, 0, 0⟩

/-- `mac_is_last_desc` -/
def DmaDesc.isLast (d : DmaDesc) : Bool := Field.get d.desc3 28 1 = 1

/-- `struct mac_ring` of a transmit ring and the NIC's place in it.
Descriptor `i` is that of entry `i`. -/
structure TxRing where
  dmaDescs : Nat → DmaDesc
  descDataHead : Nat → TxDescData
  dmaDescCount : U32
  cur : U32
  dirty : U32
  coalesceCount : U32
  queueStopped : Bool
  curMss : U16
  curVlanCtag : U16
  pktInfo : PktInfo
  /-- The descriptors written, in order, with their entries. -/
  writes : List (Nat × DmaDesc)
  /-- The NIC's next entry. -/
  head : Nat
  /-- How many descriptors the NIC has completed. -/
  completed : Nat

/-- `MAC_GET_DESC_DATA`: the entry of an index. -/
def TxRing.entry (ring : TxRing) (idx : U32) : Nat :=
  (idx &&& (ring.dmaDescCount - 1)).toNat

/-- `mac_tx_avail_desc` -/
def TxRing.availDesc (ring : TxRing) : U32 :=
  ring.dmaDescCount - (ring.cur - ring.dirty)

/-- A descriptor is rewritten. -/
def TxRing.updDesc (ring : TxRing) (idx : U32) (f : DmaDesc → DmaDesc) :
    TxRing :=
  let i := ring.entry idx
  { ring with
    dmaDescs := Function.update ring.dmaDescs i (f (ring.dmaDescs i))
    writes := ring.writes ++ [(i, f (ring.dmaDescs i))] }

/-- An entry is rewritten. -/
def TxRing.updData (ring : TxRing) (idx : U32)
    (f : TxDescData → TxDescData) : TxRing :=
  let i := ring.entry idx
  { ring with
    descDataHead :=
      Function.update ring.descDataHead i (f (ring.descDataHead i)) }

-- ========================================================== reservation

/-- `min_t(unsigned int, len, MAC_TX_MAX_BUF_SIZE)` -/
def pieceLen (len : U32) : U32 :=
  if len.toNat ≤ txMaxBufSize then len else BitVec.ofNat 32 txMaxBufSize

theorem pieceLen_toNat (len : U32) :
    (pieceLen len).toNat = min len.toNat txMaxBufSize := by
  rw [pieceLen]
  split
  · next h => exact (min_eq_left h).symm
  · next h =>
    rw [min_eq_right (by omega)]
    rfl

/-- What is left after a piece is less. -/
theorem sub_pieceLen_toNat (len : U32) :
    (len - pieceLen len).toNat = len.toNat - txMaxBufSize := by
  have hle : pieceLen len ≤ len := by
    rw [BitVec.le_def, pieceLen_toNat]
    exact min_le_left _ _
  rw [BitVec.toNat_sub_of_le hle, pieceLen_toNat]
  omega

theorem sub_pieceLen_lt {len : U32} (h : ¬ len = 0) :
    (len - pieceLen len).toNat < len.toNat := by
  have hpos : len.toNat ≠ 0 := fun h0 => h (BitVec.eq_of_toNat_eq h0)
  have hmax : 0 < txMaxBufSize := by decide
  rw [sub_pieceLen_toNat]
  omega

/-- `for (len = ...; len;)` of `mac_prep_tx_pkt`: the count goes up once
for each piece. -/
def countPieces (descCount len : U32) : U32 :=
  if h : len = 0 then descCount
  else
    have := sub_pieceLen_lt h
    countPieces (descCount + 1) (len - pieceLen len)
termination_by len.toNat

/-- `mac_prep_tx_pkt` -/
def TxRing.prepTxPkt (ring : TxRing) (skb : Skb) : PktInfo :=
  -- TSO requires an extra descriptor if mss is different
  let contextDesc := skb.isTso && skb.gsoSize ≠ ring.curMss
  let descCount : U32 := if contextDesc then 1 else 0
  -- TSO requires an extra descriptor for TSO header
  let descCount := if skb.isTso then descCount + 1 else descCount
  let attributes : U32 :=
    if skb.isTso then Field.set (Field.set 0 1 1 1) 0 1 1
    else if skb.csumPartial then Field.set 0 0 1 1
    else 0
  -- VLAN requires an extra descriptor if tag is different
  let vlanDesc := match skb.vlanTag with
    | some tag => tag ≠ ring.curVlanCtag && !contextDesc
    | none => false
  let descCount := if vlanDesc then descCount + 1 else descCount
  let attributes :=
    if skb.vlanTag.isSome then Field.set attributes 2 1 1 else attributes
  let descCount := countPieces descCount skb.headlen
  { PktInfo.zero with
    attributes := attributes
    descCount := skb.frags.foldl countPieces descCount
    txPackets := 1
    txBytes := skb.len }

/-- `mac_prep_tso`, after `skb_cow_head`. -/
def prepTso (skb : Skb) (pkt : PktInfo) : PktInfo :=
  if pkt.tso then
    let headerLen := skb.transportOffset + skb.tcpHdrlen
    let txPackets := skb.gsoSegs.setWidth 32
    { pkt with
      headerLen := headerLen
      tcpHeaderLen := skb.tcpHdrlen
      tcpPayloadLen := skb.len - headerLen
      mss := skb.gsoSize
      txPackets := txPackets
      txBytes := pkt.txBytes + (txPackets - 1) * headerLen }
  else pkt

/-- `mac_prep_vlan` -/
def prepVlan (skb : Skb) (pkt : PktInfo) : PktInfo :=
  match skb.vlanTag with
  | some tag => { pkt with vlanCtag := tag }
  | none => pkt

-- ============================================================== mapping

/-- `mac_map_tx_skb` on its way: the entries, the index of the next, the
length so far, the answers used and the mappings made. -/
structure MapState where
  ring : TxRing
  curIndex : U32
  length : U32
  calls : Nat
  maps : List TxMapping

/-- One piece is mapped into the entry at `curIndex`; none if the kernel
cannot map it. -/
def MapState.mapPiece (dma : Nat → Option U64) (skb : Skb)
    (st : MapState) (piece : Piece) : Option MapState :=
  match dma st.calls with
  | none => none
  | some addr =>
      some
        { ring := st.ring.updData st.curIndex fun d =>
            { d with
              skbDma := addr
              skbDmaLen := piece.len
              mappedAsPage := match piece.src with
                | .linear => d.mappedAsPage
                | .frag _ => true
              mapping := some st.maps.length }
          curIndex := st.curIndex + 1
          length := st.length + piece.len
          calls := st.calls + 1
          maps := st.maps ++ [⟨skb.id, piece, addr⟩] }

/-- `for (datalen = ...; datalen; )`: a part of the packet is mapped piece
by piece. The flag is false if a piece could not be mapped. -/
def MapState.mapData (dma : Nat → Option U64) (skb : Skb) (src : Source)
    (st : MapState) (offset datalen : U32) : MapState × Bool :=
  if h : datalen = 0 then (st, true)
  else
    have := sub_pieceLen_lt h
    match st.mapPiece dma skb ⟨src, offset, pieceLen datalen⟩ with
    | none => (st, false)
    | some st =>
        mapData dma skb src st (offset + pieceLen datalen)
          (datalen - pieceLen datalen)
termination_by datalen.toNat

/-- The fragments from number `i` on. -/
def MapState.mapFrags (dma : Nat → Option U64) (skb : Skb) :
    (st : MapState) → (i : Nat) → List U32 → MapState × Bool
  | st, _, [] => (st, true)
  | st, i, size :: sizes =>
      match st.mapData dma skb (.frag i) 0 size with
      | (st, false) => (st, false)
      | (st, true) => mapFrags dma skb st (i + 1) sizes

/-- A context descriptor is needed. -/
def TxRing.needsContext (ring : TxRing) (pkt : PktInfo) : Bool :=
  (pkt.tso && pkt.mss ≠ ring.curMss)
    || (pkt.vlan && pkt.vlanCtag ≠ ring.curVlanCtag)

/-- The walk of `mac_map_tx_skb` over the packet, from the entry behind
that of a context descriptor. -/
def MapState.mapSkb (dma : Nat → Option U64) (skb : Skb) (pkt : PktInfo)
    (st : MapState) : MapState × Bool :=
  -- the TSO header
  let header :=
    if pkt.tso then st.mapPiece dma skb ⟨.linear, 0, pkt.headerLen⟩
    else some st
  let offset := if pkt.tso then pkt.headerLen else 0
  match header with
  | none => (st, false)
  | some st =>
      -- the (remainder of the) packet
      match st.mapData dma skb .linear offset (skb.headlen - offset) with
      | (st, false) => (st, false)
      | (st, true) => st.mapFrags dma skb 0 skb.frags

/-- A packet that was handed to the NIC: how many descriptors and how
many mappings were made before it, how many descriptors it takes, and the
bytes it was reported to be. -/
structure Accepted where
  skb : Nat
  start : Nat
  descCount : Nat
  firstMap : Nat
  mapCount : Nat
  bytes : U32
deriving DecidableEq

/-- A call of `dma_unmap_page` or `dma_unmap_single`, for an entry with
this mapping. -/
structure TxUnmap where
  mapping : Option Nat
  asPage : Bool
  dma : U64
  len : U32
deriving DecidableEq

/-- The logs of what a channel has done. -/
structure TxLogs where
  /-- The mappings, in the order they were made. -/
  maps : List TxMapping
  /-- The calls that undo them. -/
  unmaps : List TxUnmap
  /-- The packets freed with their entries. -/
  freed : List Nat
  /-- The packets `mac_xmit` freed. -/
  dropped : List Nat
  accepted : List Accepted
  /-- How many entries `mac_tx_poll` has reclaimed. -/
  reclaimed : Nat
  /-- What `netdev_tx_sent_queue` was told. -/
  sentBytes : List U32
  /-- What `netdev_tx_completed_queue` was told, packet by packet. -/
  completedBytes : List U32
deriving DecidableEq

/-- How many descriptors the packets took. -/
def TxLogs.posted (logs : TxLogs) : Nat :=
  (logs.accepted.map (·.descCount)).sum

/-- `mac_unmap_desc_data` of a transmit entry: an address of 0 stands for
no mapping. -/
def TxLogs.unmapDescData (logs : TxLogs) (d : TxDescData) :
    TxLogs × TxDescData :=
  let unmapped := d.skbDma ≠ 0
  ({ logs with
      unmaps :=
        if unmapped then
          logs.unmaps ++ [⟨d.mapping, d.mappedAsPage, d.skbDma, d.skbDmaLen⟩]
        else logs.unmaps
      freed := logs.freed ++ d.skb.toList },
    { TxDescData.zero with
      skbDmaLen := if unmapped then 0 else d.skbDmaLen
      mapping := if unmapped then none else d.mapping })

/-- `err_out` of `mac_map_tx_skb`: `while (start_index < cur_index)`, for
`left` entries. -/
def unmapFrom : (left : Nat) → (idx : U32) → TxLogs → TxRing →
    TxLogs × TxRing
  | 0, _, logs, ring => (logs, ring)
  | left + 1, idx, logs, ring =>
      let (logs, d) :=
        logs.unmapDescData (ring.descDataHead (ring.entry idx))
      unmapFrom left (idx + 1) logs (ring.updData idx fun _ => d)

/-- `mac_map_tx_skb`; the flag is false when it returns 0. -/
def TxRing.mapTxSkb (dma : Nat → Option U64) (skb : Skb) (logs : TxLogs)
    (ring : TxRing) : TxLogs × TxRing × Bool :=
  let pkt := ring.pktInfo
  let startIndex := ring.cur
  -- save space for a context descriptor if needed
  let curIndex := if ring.needsContext pkt then ring.cur + 1 else ring.cur
  let st : MapState := ⟨ring, curIndex, 0, 0, logs.maps⟩
  match st.mapSkb dma skb pkt with
  | (st, true) =>
      -- save the skb address in the last entry
      let ring := st.ring.updData (st.curIndex - 1) fun d =>
        { d with skb := some skb.id }
      let pkt :=
        { pkt with
          length := st.length
          descCount := st.curIndex - startIndex }
      ({ logs with maps := st.maps }, { ring with pktInfo := pkt }, true)
  | (st, false) =>
      let left :=
        if startIndex < st.curIndex then (st.curIndex - startIndex).toNat
        else 0
      let (logs, ring) :=
        unmapFrom left startIndex { logs with maps := st.maps } st.ring
      (logs, { ring with pktInfo :=
        { pkt with length := st.length, descCount := 0 } }, false)

-- ========================================================== descriptors

/-- The context descriptor. -/
def PktInfo.contextDesc (pkt : PktInfo) (tsoContext vlanContext : Bool)
    (d : DmaDesc) : DmaDesc :=
  let d :=
    if tsoContext then
      { d with
        desc2 := Field.set d.desc2 0 15 (pkt.mss.setWidth 32)
        desc3 := Field.set (Field.set d.desc3 30 1 1) 26 1 1 }
    else d
  if vlanContext then
    { d with
      desc3 := Field.set (Field.set (Field.set d.desc3 30 1 1)
        0 16 (pkt.vlanCtag.setWidth 32)) 16 1 1 }
  else d

/-- The first data descriptor, up to its OWN bit when it is the first of
all. -/
def PktInfo.firstDesc (pkt : PktInfo) (data : TxDescData) (own : Bool)
    (d : DmaDesc) : DmaDesc :=
  let desc2 := Field.set d.desc2 0 14 data.skbDmaLen
  let desc2 := if pkt.vlan then Field.set desc2 14 2 0x2 else desc2
  let desc2 := if pkt.ptp then Field.set desc2 30 1 1 else desc2
  let desc3 := Field.set d.desc3 29 1 1
  let desc3 := Field.set desc3 30 1 0
  let desc3 := if own then Field.set desc3 31 1 1 else desc3
  let desc3 :=
    if pkt.tso then
      Field.set (Field.set (Field.set desc3 18 1 1)
        0 18 pkt.tcpPayloadLen) 19 4 (pkt.tcpHeaderLen / 4)
    else
      let desc3 := Field.set desc3 26 2 0
      let desc3 := if pkt.csum then Field.set desc3 16 2 0x3 else desc3
      Field.set desc3 0 15 pkt.length
  { desc0 := data.skbDma.setWidth 32
    desc1 := (data.skbDma >>> 32).setWidth 32
    desc2 := desc2
    desc3 := desc3 }

/-- A data descriptor after the first. -/
def PktInfo.nextDesc (pkt : PktInfo) (data : TxDescData) (d : DmaDesc) :
    DmaDesc :=
  let desc3 := Field.set (Field.set d.desc3 31 1 1) 30 1 0
  { desc0 := data.skbDma.setWidth 32
    desc1 := (data.skbDma >>> 32).setWidth 32
    desc2 := Field.set d.desc2 0 14 data.skbDmaLen
    desc3 := if pkt.csum then Field.set desc3 16 2 0x3 else desc3 }

/-- `for (i = cur_index - start_index + 1; i < desc_count; i++)`, for
`left` descriptors behind `curIndex`. -/
def TxRing.xmitFrom : (left : Nat) → (curIndex : U32) → TxRing →
    U32 × TxRing
  | 0, curIndex, ring => (curIndex, ring)
  | left + 1, curIndex, ring =>
      let curIndex := curIndex + 1
      let data := ring.descDataHead (ring.entry curIndex)
      xmitFrom left curIndex
        (ring.updDesc curIndex (ring.pktInfo.nextDesc data))

/-- Whether the packet asks for an interrupt. -/
def TxRing.setIc (ring : TxRing) (txFrames : U32) : Bool :=
  if txFrames = 0 then false
  else if ring.pktInfo.txPackets > txFrames then true
  else
    (ring.coalesceCount + ring.pktInfo.txPackets) % txFrames
      < ring.pktInfo.txPackets

/-- The first descriptor of `mac_dev_xmit`, if that is a context
descriptor, and the index behind it. -/
def TxRing.putContext (ring : TxRing) : U32 × TxRing :=
  let pkt := ring.pktInfo
  let tsoContext := pkt.tso && pkt.mss ≠ ring.curMss
  let vlanContext := pkt.vlan && pkt.vlanCtag ≠ ring.curVlanCtag
  if tsoContext || vlanContext then
    (ring.cur + 1,
      { ring.updDesc ring.cur (pkt.contextDesc tsoContext vlanContext) with
        curMss := if tsoContext then pkt.mss else ring.curMss
        curVlanCtag :=
          if vlanContext then pkt.vlanCtag else ring.curVlanCtag })
  else (ring.cur, ring)

/-- The LD and IC bits. -/
def DmaDesc.setLast (d : DmaDesc) (ic : Bool) : DmaDesc :=
  { d with
    desc3 := Field.set d.desc3 28 1 1
    desc2 := if ic then Field.set d.desc2 31 1 1 else d.desc2 }

/-- The OWN bit. -/
def DmaDesc.setOwn (d : DmaDesc) : DmaDesc :=
  { d with desc3 := Field.set d.desc3 31 1 1 }

/-- `mac_dev_xmit` -/
def TxRing.devXmit (txFrames : U32) (ring : TxRing) : TxRing :=
  let pkt := ring.pktInfo
  let startIndex := ring.cur
  let txSetIc := ring.setIc txFrames
  let ring :=
    { ring with coalesceCount := ring.coalesceCount + pkt.txPackets }
  let (curIndex, ring) := ring.putContext
  let data := ring.descDataHead (ring.entry curIndex)
  let ring :=
    ring.updDesc curIndex (pkt.firstDesc data (curIndex ≠ startIndex))
  let left := pkt.descCount.toNat - ((curIndex - startIndex).toNat + 1)
  let (curIndex, ring) := ring.xmitFrom left curIndex
  -- the last descriptor
  let ring := ring.updDesc curIndex fun d => d.setLast txSetIc
  let ring := ring.updData curIndex fun d =>
    { d with packets := pkt.txPackets, bytes := pkt.txBytes }
  -- set OWN bit for the first descriptor
  let ring := ring.updDesc startIndex DmaDesc.setOwn
  { ring with cur := curIndex + 1 }

-- ================================================================= calls

/-- A channel: the ring, the network queue's stop bit and the logs. -/
structure TxChannel where
  ring : TxRing
  netStopped : Bool
  logs : TxLogs
  /-- `pdata->tx_frames` -/
  txFrames : U32

/-- `mac_maybe_stop_tx_queue`: whether the queue is stopped. -/
def TxChannel.maybeStop (ch : TxChannel) (count : U32) :
    Bool × TxChannel :=
  if count > ch.ring.availDesc then
    (true, { ch with
      ring := { ch.ring with queueStopped := true }
      netStopped := true })
  else (false, ch)

/-- What the kernel answers to a call of `mac_xmit`: whether the link is
up, whether the header can be written to, and the addresses of the
mappings. -/
structure XmitEnv where
  linkUp : Bool
  cowHead : Bool
  dma : Nat → Option U64

/-- A packet is dropped. -/
def TxChannel.free (ch : TxChannel) (skb : Skb) : TxChannel :=
  { ch with logs :=
    { ch.logs with dropped := ch.logs.dropped ++ [skb.id] } }

/-- `mac_xmit` -/
def TxChannel.xmit (env : XmitEnv) (skb : Skb) (ch : TxChannel) :
    TxChannel :=
  if !env.linkUp then ch
  else if skb.len = 0 then ch.free skb
  else
    let pkt := ch.ring.prepTxPkt skb
    let ch := { ch with ring := { ch.ring with pktInfo := pkt } }
    match ch.maybeStop pkt.descCount with
    | (true, ch) => ch
    | (false, ch) =>
        if pkt.tso && !env.cowHead then ch.free skb
        else
          let pkt := prepVlan skb (prepTso skb pkt)
          let ring := { ch.ring with pktInfo := pkt }
          match ring.mapTxSkb env.dma skb ch.logs with
          | (logs, ring, false) =>
              TxChannel.free { ch with ring := ring, logs := logs } skb
          | (logs, ring, true) =>
              let accepted : Accepted :=
                { skb := skb.id
                  start := ch.logs.posted
                  descCount := ring.pktInfo.descCount.toNat
                  firstMap := ch.logs.maps.length
                  mapCount := logs.maps.length - ch.logs.maps.length
                  bytes := pkt.txBytes }
              let logs :=
                { logs with
                  accepted := logs.accepted ++ [accepted]
                  sentBytes := logs.sentBytes ++ [pkt.txBytes] }
              let ring := ring.devXmit ch.txFrames
              -- stop the queue in advance
              (TxChannel.maybeStop { ch with ring := ring, logs := logs }
                txMaxDescNr).2

/-- `NETDEV_TX_OK` -/
def netdevTxOk : Int := 0x00

/-- `NETDEV_TX_BUSY` -/
def netdevTxBusy : Int := 0x10

/-- What `skb_cow_head` returns when it fails: `-ENOMEM`. -/
def cowHeadError : Int := -12

/-- What `mac_xmit` returns. -/
def TxChannel.xmitRet (env : XmitEnv) (skb : Skb) (ch : TxChannel) : Int :=
  if !env.linkUp then 1
  else if skb.len = 0 then netdevTxOk
  else
    let pkt := ch.ring.prepTxPkt skb
    let ch := { ch with ring := { ch.ring with pktInfo := pkt } }
    match ch.maybeStop pkt.descCount with
    | (true, _) => netdevTxBusy
    | (false, ch) =>
        if pkt.tso && !env.cowHead then cowHeadError
        else
          let pkt := prepVlan skb (prepTso skb pkt)
          let ring := { ch.ring with pktInfo := pkt }
          match ring.mapTxSkb env.dma skb ch.logs with
          | (_, _, false) => netdevTxOk
          | (_, _, true) => netdevTxOk

/-- The loop of `mac_tx_poll` up to the `cur` it has read, for `left` more
descriptors: how many are reclaimed. -/
def TxChannel.pollLoop (cur : U32) :
    (left : Nat) → (processed : Nat) → TxChannel → Nat × TxChannel
  | 0, processed, ch => (processed, ch)
  | left + 1, processed, ch =>
      let ring := ch.ring
      let i := ring.entry ring.dirty
      if ring.dirty = cur then (processed, ch)
      else if (ring.dmaDescs i).own then (processed, ch)
      else
        let data := ring.descDataHead i
        let logs :=
          if (ring.dmaDescs i).isLast then
            { ch.logs with
              completedBytes := ch.logs.completedBytes ++ [data.bytes] }
          else ch.logs
        let (logs, data) := logs.unmapDescData data
        let ring := ring.updData ring.dirty fun _ => data
        let ring := ring.updDesc ring.dirty fun _ => .zero
        pollLoop cur left (processed + 1)
          { ch with
            ring := { ring with dirty := ring.dirty + 1 }
            logs := { logs with reclaimed := logs.reclaimed + 1 } }

/-- `mac_tx_poll` -/
def TxChannel.poll (ch : TxChannel) : TxChannel :=
  match ch.pollLoop ch.ring.cur txDescMaxProc 0 with
  | (0, ch) => ch
  | (_ + 1, ch) =>
      if ch.ring.queueStopped && ch.ring.availDesc > txDescMinFree then
        { ch with
          ring := { ch.ring with queueStopped := false }
          netStopped := false }
      else ch

/-- The NIC completes its next descriptor, if it owns it. -/
def TxRing.complete (ring : TxRing) (back : DmaDesc) : TxRing :=
  let i := ring.head
  if (ring.dmaDescs i).own then
    let last := Field.get (ring.dmaDescs i).desc3 28 1
    let back :=
      { back with
        desc3 := Field.set (Field.set back.desc3 31 1 0) 28 1 last }
    { ring with
      dmaDescs := Function.update ring.dmaDescs i back
      head := (i + 1) % ring.dmaDescCount.toNat
      completed := ring.completed + 1 }
  else ring

/-- What happens on a channel. -/
inductive ChannelAct
  | xmit (env : XmitEnv) (skb : Skb)
  | poll
  | complete (back : DmaDesc)

/-- One action. -/
def TxChannel.step (ch : TxChannel) : ChannelAct → TxChannel
  | .xmit env skb => ch.xmit env skb
  | .poll => ch.poll
  | .complete back => { ch with ring := ch.ring.complete back }

/-- A ring as `mac_init_ring` and `mac_tx_desc_init` leave it. -/
def TxRing.fresh : TxRing where
  dmaDescs _ := .zero
  descDataHead _ := .zero
  dmaDescCount := txDescCnt
  cur := 0
  dirty := 0
  coalesceCount := 0
  queueStopped := false
  curMss := 0
  curVlanCtag := 0
  pktInfo := .zero
  writes := []
  head := 0
  completed := 0

/-- A channel that has just been started. -/
def TxChannel.fresh (txFrames : U32) : TxChannel :=
  ⟨.fresh, false, ⟨[], [], [], [], [], 0, [], []⟩, txFrames⟩

end BxRnic.Mac
