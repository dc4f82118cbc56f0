/-
How `mac_rx_poll` (bx_mac_net.c) and `mac_dev_read` (bx_mac_hw.c) make
packets of receive descriptors.

A ring is given from `cur` on: the entries that the NIC has completed by
the time they are read, and after them one it has not. The refill
(`mac_rx_refresh`) is left out: it works on the entries behind `cur`,
which the poll does not look at again.

# Memory

A buffer holds what the NIC wrote into it for the packet; a byte it did
not write is read as `none`. A fragment's bytes are those of the buffer
at the time it is added.

# The kernel

`napi_alloc_skb` and `eth_type_trans` are the kernel's. A socket buffer
has room for `MAX_SKB_FRAGS` fragments, and `skb_add_rx_frag` does not
look: one more is counted in the length and written past the room.
-/
import BxRnic.Mac.RxRing
import BxRnic.Mac.TxQueue

namespace BxRnic.Mac

-- ============================================================= constants

def ETH_HLEN : U32 := 14
def VLAN_HLEN : U32 := 4
def ETH_P_8021Q : U16 := 0x8100

/-- `MAC_JUMBO_PACKET_MTU` -/
def jumboPacketMtu : U32 := 9000

-- =============================================================== buffers

/-- `struct mac_buffer_data` as it is received into: `pa`, `dma_len`, and
what the NIC wrote. -/
structure RxBuf where
  pages : Option Nat
  pagesOffset : Nat
  dmaLen : U32
  data : List U8
deriving DecidableEq

/-- The first `n` bytes of a buffer. -/
def RxBuf.read (buf : RxBuf) (n : U32) : List (Option U8) :=
  (List.range n.toNat).map fun j => buf.data[j]?

/-- A fragment of a socket buffer, with its bytes. -/
structure RxFrag where
  pages : Option Nat
  off : Nat
  size : U32
  truesize : U32
  data : List (Option U8)
deriving DecidableEq

/-- `struct sk_buff` of a received packet. Socket buffers are known by
the number of the call that allocated them. -/
structure RxSkb where
  id : Nat
  linear : List (Option U8)
  frags : List RxFrag
  len : U32
  /-- In the order of the bytes on the wire. -/
  protocol : U16
  /-- `CHECKSUM_UNNECESSARY` -/
  ipSummed : Bool
  vlanTag : Option U16
  /-- The hash, and whether it is of layer 4. -/
  hash : Option (U32 × Bool)
  queue : Option Nat
deriving DecidableEq

/-- The bytes of the packet. -/
def RxSkb.bytes (skb : RxSkb) : List (Option U8) :=
  skb.linear ++ skb.frags.flatMap RxFrag.data

/-- A fresh socket buffer. -/
def RxSkb.alloc (id : Nat) : RxSkb where
  id := id
  linear := []
  frags := []
  len := 0
  protocol := 0
  ipSummed := false
  vlanTag := none
  hash := none
  queue := none

/-- `skb_copy_to_linear_data` and `skb_put` -/
def RxSkb.put (skb : RxSkb) (buf : RxBuf) (copyLen : U32) : RxSkb :=
  { skb with linear := buf.read copyLen, len := skb.len + copyLen }

/-- `skb_add_rx_frag` with a buffer's pages. -/
def RxSkb.addRxFrag (skb : RxSkb) (buf : RxBuf) (size : U32) : RxSkb :=
  let frag : RxFrag :=
    ⟨buf.pages, buf.pagesOffset, size, buf.dmaLen, buf.read size⟩
  { skb with
    frags :=
      if skb.frags.length < maxSkbFrags then skb.frags ++ [frag]
      else skb.frags
    len := skb.len + size }

-- ================================================================== ring

/-- `state` of an entry: a packet that a poll had to leave. -/
structure RxSaved where
  skb : Option RxSkb
  len : U32
  error : Bool
deriving DecidableEq

/-- An entry of the ring: its descriptor and `struct mac_desc_data`. -/
structure RxEntry where
  dmaDesc : DmaDesc
  hdr : RxBuf
  buf : RxBuf
  /-- `rx.hdr_len`, which 10 bits of the descriptor are read into. -/
  hdrLen : U32
  /-- `rx.len`, which 14 bits of the descriptor are read into. -/
  len : U32
  stateSaved : Bool
  state : RxSaved
deriving DecidableEq

/-- A field of `desc3`. -/
def DmaDesc.field (d : DmaDesc) (pos len : Nat) : U32 :=
  Field.get d.desc3 pos len

/-- `RX_NORMAL_DESC3_CTXT` -/
def DmaDesc.ctxt (d : DmaDesc) : Bool := d.field 30 1 = 1

/-- `RX_NORMAL_DESC3_FD` -/
def DmaDesc.first (d : DmaDesc) : Bool := d.field 29 1 = 1

/-- `RX_NORMAL_DESC3_LD` -/
def DmaDesc.last (d : DmaDesc) : Bool := d.field 28 1 = 1

/-- `RX_NORMAL_DESC3_CDA` -/
def DmaDesc.cda (d : DmaDesc) : Bool := d.field 27 1 = 1

/-- `RX_NORMAL_DESC3_PL` -/
def DmaDesc.packetLen (d : DmaDesc) : U32 := d.field 0 14

/-- `RX_NORMAL_DESC2_HL` -/
def DmaDesc.hdrLen (d : DmaDesc) : U32 := Field.get d.desc2 0 10

/-- `struct mac_pkt_info` of a receive ring, with the bits of
`attributes` by name. Of `errors` only `FRAME` is ever set. -/
structure RxPktInfo where
  csumDone : Bool
  vlanCtag : Bool
  incomplete : Bool
  contextNext : Bool
  context : Bool
  rxTstamp : Option U64
  /-- The hash, and whether it is of layer 4. -/
  rssHash : Option (U32 × Bool)
  vlanTag : U16
  frameError : Bool
deriving DecidableEq

/-- The zeroed structure. -/
def RxPktInfo.zero : RxPktInfo :=
  ⟨false, false, false, false, false, none, none, 0, false⟩

/-- What receiving depends on: the device's settings, and what the kernel
answers. -/
structure RxEnv where
  /-- `napi_alloc_skb` succeeds, by the number of the call. -/
  alloc : Nat → Bool
  ethTypeTrans : List (Option U8) → U16
  mtu : U32
  /-- `mac_change_mtu` takes no more. -/
  mtu_le : mtu ≤ jumboPacketMtu
  /-- `NETIF_F_RXCSUM` -/
  rxcsum : Bool
  /-- `NETIF_F_HW_VLAN_CTAG_RX` -/
  vlanCtagRx : Bool
  queueIndex : Nat

-- =============================================================== reading

/-- `mac_get_rx_tstamp` -/
def RxPktInfo.getRxTstamp (info : RxPktInfo) (d : DmaDesc) : RxPktInfo :=
  let nsec := (d.desc1.setWidth 64 <<< 32) ||| d.desc0.setWidth 64
  if d.field 4 1 = 1 ∧ d.field 6 1 = 0 ∧ nsec ≠ 0xffffffffffffffff then
    { info with rxTstamp := some nsec }
  else info

/-- The RSS hash of a descriptor. -/
def RxPktInfo.getRss (info : RxPktInfo) (d : DmaDesc) : RxPktInfo :=
  if d.field 26 1 = 1 then
    let l34t := d.field 20 4
    { info with
      rssHash :=
        some (d.desc1, l34t = 1 ∨ l34t = 2 ∨ l34t = 9 ∨ l34t = 10) }
  else info

/-- The error bits of the last descriptor say that the packet is bad:
an error, and not one of a checksum. -/
def DmaDesc.frameError (d : DmaDesc) : Bool :=
  d.field 15 1 ≠ 0 ∧ d.field 16 4 ≠ 0 ∧ d.field 16 4 ≠ 0x05
    ∧ d.field 16 4 ≠ 0x06

/-- What the last descriptor says about the packet. -/
def RxPktInfo.getLast (env : RxEnv) (info : RxPktInfo) (d : DmaDesc) :
    RxPktInfo :=
  let info := { info with incomplete := false }
  let info := if env.rxcsum then { info with csumDone := true } else info
  let err := d.field 15 1
  let etlt := d.field 16 4
  if err = 0 ∨ etlt = 0 then
    if etlt = 0x09 ∧ env.vlanCtagRx then
      { info with
        vlanCtag := true, vlanTag := (Field.get d.desc0 0 16).setWidth 16 }
    else info
  else if etlt = 0x05 ∨ etlt = 0x06 then { info with csumDone := false }
  else { info with frameError := true }

/-- `mac_dev_read` of a completed descriptor, for `pkt_info`. -/
def RxPktInfo.devRead (env : RxEnv) (info : RxPktInfo) (d : DmaDesc) :
    RxPktInfo :=
  if d.ctxt then
    { info.getRxTstamp d with context := true, contextNext := false }
  else
    let info :=
      { info with
        context := false
        contextNext := info.contextNext || d.cda }
    let info := info.getRss d
    if d.last then info.getLast env d else { info with incomplete := true }

/-- `mac_dev_read` of a completed descriptor, for its entry. -/
def RxEntry.devRead (entry : RxEntry) : RxEntry :=
  if entry.dmaDesc.ctxt then entry
  else
    { entry with
      hdrLen :=
        if entry.dmaDesc.first then entry.dmaDesc.hdrLen else entry.hdrLen
      len := entry.dmaDesc.packetLen }

-- ============================================================== packets

/-- `mac_create_skb`: the socket buffer, unless it cannot be allocated,
and what is left of the entry. -/
def createSkb (env : RxEnv) (id : Nat) (entry : RxEntry) (len : U32) :
    Option RxSkb × RxEntry :=
  if env.alloc id then
    let copyLen := if entry.hdrLen ≠ 0 then entry.hdrLen else len
    let copyLen :=
      if entry.hdr.dmaLen < copyLen then entry.hdr.dmaLen else copyLen
    let skb := (RxSkb.alloc id).put entry.hdr copyLen
    let len := len - copyLen
    if len ≠ 0 then
      -- add the remaining data as a frag
      (some (skb.addRxFrag entry.buf len),
        { entry with buf.pages := none })
    else (some skb, entry)
  else (none, entry)

/-- The locals of `mac_rx_poll`, `ring->pkt_info`, and what has become of
entries and socket buffers. -/
structure RxPoll where
  pktInfo : RxPktInfo
  skb : Option RxSkb
  error : Bool
  len : U32
  incomplete : Bool
  contextNext : Bool
  received : Nat
  packetCount : Nat
  /-- How often `napi_alloc_skb` has been called. -/
  allocs : Nat
  /-- The entries that were read, in order. -/
  read : List RxEntry
  /-- What was handed to `napi_gro_receive`, in order. -/
  passed : List RxSkb
  /-- What was handed to `dev_kfree_skb`, in order. -/
  freed : List RxSkb
deriving DecidableEq

/-- A new packet is started. -/
def RxPoll.fresh (st : RxPoll) : RxPoll :=
  { st with pktInfo := .zero, skb := none, error := false, len := 0 }

/-- The entry has been read and is left behind. -/
def RxPoll.leave (st : RxPoll) (entry : RxEntry) : RxPoll :=
  { st with read := st.read ++ [entry] }

/-- The data of a descriptor is added to the packet; the entry after
that. -/
def RxPoll.gather (env : RxEnv) (st : RxPoll) (entry : RxEntry) :
    RxPoll × RxEntry :=
  -- length is cumulative, get this descriptor's length
  let dmaDescLen := entry.len - st.len
  let st := { st with len := st.len + dmaDescLen }
  if dmaDescLen = 0 then (st, entry)
  else
    match st.skb with
    | none =>
        let (skb, entry) := createSkb env st.allocs entry dmaDescLen
        ({ st with
            skb := skb, error := skb.isNone, allocs := st.allocs + 1 },
          entry)
    | some skb =>
        ({ st with skb := some (skb.addRxFrag entry.buf dmaDescLen) },
          { entry with buf.pages := none })

/-- What the driver notes on a packet before it passes it up. -/
def RxSkb.dress (env : RxEnv) (info : RxPktInfo) (skb : RxSkb) : RxSkb :=
  { skb with
    ipSummed := info.csumDone
    vlanTag := if info.vlanCtag then some info.vlanTag else none
    hash := info.rssHash
    protocol := env.ethTypeTrans skb.bytes
    queue := some env.queueIndex }

/-- The longest frame that is let through. -/
def maxLen (env : RxEnv) (protocol : U16) : U32 :=
  if ¬ env.vlanCtagRx ∧ protocol = ETH_P_8021Q then
    env.mtu + ETH_HLEN + VLAN_HLEN
  else env.mtu + ETH_HLEN

/-- A packet that is complete is passed up, unless it is too long. -/
def RxPoll.finish (env : RxEnv) (st : RxPoll) : RxPoll :=
  match st.skb with
  | none => st
  | some skb =>
      if maxLen env skb.protocol < skb.len then
        { st with freed := st.freed ++ [skb] }
      else
        { st with passed := st.passed ++ [skb.dress env st.pktInfo] }

/-- The rest of a turn of the loop after a successful `dev_read`: whether
it goes to `read_again`, and not to `next_packet`. -/
def RxPoll.take (env : RxEnv) (st : RxPoll) (entry : RxEntry) :
    Bool × RxPoll :=
  let info := st.pktInfo.devRead env entry.dmaDesc
  let entry := entry.devRead
  let st :=
    { st with
      pktInfo := info
      received := st.received + 1
      incomplete := info.incomplete
      contextNext := info.contextNext }
  let more := info.incomplete || info.contextNext
  -- earlier error, just drain the remaining data
  if more && st.error then (true, st.leave entry)
  else if st.error || info.frameError then
    (false, { st with freed := st.freed ++ st.skb.toList }.leave entry)
  else
    let (st, entry) :=
      if info.context then (st, entry) else st.gather env entry
    if more then (true, st.leave entry)
    else (false, (st.finish env).leave entry)

/-- The loop of `mac_rx_poll` from `read_again` on, and the entries it
leaves. -/
def RxPoll.loop (env : RxEnv) (budget : Nat) :
    RxPoll → List RxEntry → RxPoll × List RxEntry
  | st, [] => (st, [])
  | st, entry :: entries =>
      if entry.dmaDesc.own then (st, entry :: entries)
      else
        match st.take env entry with
        | (true, st) => loop env budget st entries
        | (false, st) =>
            let st := { st with packetCount := st.packetCount + 1 }
            if st.packetCount < budget then
              loop env budget st.fresh entries
            else (st, entries)

/-- A receive ring as a poll finds it. -/
structure RxView where
  pktInfo : RxPktInfo
  /-- The entries from `cur` on. -/
  entries : List RxEntry
  /-- How often `napi_alloc_skb` has been called. -/
  allocs : Nat

/-- A poll before its first turn. -/
def RxPoll.start (ring : RxView) : RxPoll where
  pktInfo := ring.pktInfo
  skb := none
  error := false
  len := 0
  incomplete := false
  contextNext := false
  received := 0
  packetCount := 0
  allocs := ring.allocs
  read := []
  passed := []
  freed := []

/-- What a packet that was left is taken up with. -/
def RxPoll.resume (st : RxPoll) (entry : RxEntry) : RxPoll :=
  if entry.stateSaved then
    { st with
      skb := entry.state.skb
      error := entry.state.error
      len := entry.state.len }
  else st.fresh

/-- The state is saved if a packet is left that is not complete. -/
def RxPoll.save (st : RxPoll) (entry : RxEntry) : RxEntry :=
  if st.received ≠ 0 ∧ (st.incomplete ∨ st.contextNext) then
    { entry with
      stateSaved := true
      state := { skb := st.skb, len := st.len, error := st.error } }
  else entry

/-- The ring that a poll leaves. -/
def RxPoll.ringAfter (st : RxPoll) (entries : List RxEntry) : RxView where
  pktInfo := st.pktInfo
  entries :=
    match entries with
    | [] => []
    | entry :: entries => st.save entry :: entries
  allocs := st.allocs

/-- The turns of `mac_rx_poll`, and the entries they leave. -/
def rxTurns (env : RxEnv) (ring : RxView) (budget : Nat) :
    RxPoll × List RxEntry :=
  if 0 < budget then
    match ring.entries with
    | [] => (RxPoll.start ring, [])
    | entry :: entries =>
        ((RxPoll.start ring).resume entry).loop env budget
          (entry :: entries)
  else (RxPoll.start ring, ring.entries)

/-- `mac_rx_poll`: `packet_count` is the value returned. -/
def macRxPoll (env : RxEnv) (ring : RxView) (budget : Nat) :
    RxPoll × RxView :=
  let (st, entries) := rxTurns env ring budget
  (st, st.ringAfter entries)

end BxRnic.Mac
