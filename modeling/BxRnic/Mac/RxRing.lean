/-
The receive rings of the Ethernet driver (bx_mac_desc.c, bx_mac_net.c,
bx_mac_hw.c): the pages their buffers are cut from, the descriptors, and
the calls that fill, read, refill and restart a ring.

# Memory

`alloc_pages` and `dma_map_page` are the kernel's. What they answer is a
parameter (`Answers`), one answer for each call of `mac_alloc_pages`. A
page is known by its number, the count of the pages mapped before it;
`Pages` keeps the mappings, and the logs of the slices that were cut and
released and of the pages that were unmapped. Page references are not
modelled.

# The NIC

It completes descriptors it owns in ring order: it writes the descriptor
back, in any way, with the OWN bit clear. Past the entry the tail
register points at it stops until the register is written again.
-/
import BxRnic.Lib.Word
import BxRnic.Lib.Field
import BxRnic.Lib.Slices

namespace BxRnic.Mac

-- ============================================================= constants

/-- `MAC_RX_DESC_CNT`, what `mac_init_ring` makes the `dma_desc_count` of
every receive ring. -/
@[irreducible] def rxDescCnt : Nat := 4096

/-- `MAC_RX_DESC_MAX_DIRTY` -/
def rxDescMaxDirty : U32 := 4096 >>> 3

/-- `PAGE_SIZE` -/
def pageSize : Nat := 4096

/-- `MAC_SKB_ALLOC_SIZE` -/
def skbAllocSize : Nat := 512

/-- The order `mac_map_rx_buffer` asks for:
`PAGE_ALLOC_COSTLY_ORDER - 1`, or 0. -/
def bufOrder : Nat := max (3 - 1) 0

-- ================================================================ memory

/-- What the kernel answers to the calls of `mac_alloc_pages`, by the
number of the call. -/
structure Answers where
  /-- `alloc_pages` has pages of this order. -/
  available : Nat → Nat → Bool
  /-- The address `dma_map_page` returns, or an error. -/
  mapPage : Nat → Option U64

/-- A DMA mapping of pages: the address and the length. -/
structure Mapping where
  dma : U64
  len : Nat
deriving DecidableEq

/-- The pages the rings share. The logs are kept latest first. -/
structure Pages where
  /-- How often `mac_alloc_pages` has been called. -/
  calls : Nat
  /-- The mappings, in the order they were made. -/
  maps : List Mapping
  cuts : List Slice
  released : List Slice
  unmaps : List Nat
deriving DecidableEq

/-- `struct mac_page_alloc` -/
structure PageAlloc where
  pages : Option Nat
  pagesLen : Nat
  pagesOffset : Nat
  pagesDma : U64
deriving DecidableEq

/-- The zeroed structure. -/
def PageAlloc.zero : PageAlloc := ⟨none, 0, 0, 0⟩

/-- `struct mac_buffer_data`, with the slice it holds. -/
structure BufferData where
  paUnmap : PageAlloc
  dmaBase : U64
  dmaOff : Nat
  dmaLen : Nat
  slice : Option Slice
deriving DecidableEq

/-- The zeroed structure. -/
def BufferData.zero : BufferData := ⟨.zero, 0, 0, 0, none⟩

/-- Highest order first: the order `alloc_pages` has pages of. -/
def tryOrders (available : Nat → Bool) : Nat → Option Nat
  | 0 => if available 0 then some 0 else none
  | order + 1 =>
      if available (order + 1) then some (order + 1)
      else tryOrders available order

/-- `mac_alloc_pages`: the new `*pa`, unless it fails. -/
def allocPages (ans : Answers) (pg : Pages) (order : Nat) :
    Pages × Option PageAlloc :=
  let call := pg.calls
  let pg := { pg with calls := call + 1 }
  match tryOrders (ans.available call) order with
  | none => (pg, none)
  | some order =>
      match ans.mapPage call with
      | none => (pg, none)
      | some pagesDma =>
          let pagesLen := pageSize <<< order
          ({ pg with maps := pg.maps ++ [⟨pagesDma, pagesLen⟩] },
            some ⟨some pg.maps.length, pagesLen, 0, pagesDma⟩)

/-- `mac_set_buffer_data`: the new `*bd` and `*pa`. -/
def setBufferData (pg : Pages) (bd : BufferData) (pa : PageAlloc)
    (len : Nat) : Pages × BufferData × PageAlloc :=
  let slice := pa.pages.map fun page => ⟨page, pa.pagesOffset, len⟩
  let pg := { pg with cuts := slice.toList ++ pg.cuts }
  let bd :=
    { bd with
      dmaBase := pa.pagesDma
      dmaOff := pa.pagesOffset
      dmaLen := len
      slice := slice }
  let pa := { pa with pagesOffset := pa.pagesOffset + len }
  -- this data descriptor is responsible for unmapping the pages
  if pa.pagesOffset + len > pa.pagesLen then
    (pg, { bd with paUnmap := pa }, .zero)
  else (pg, bd, pa)

/-- The part of `mac_unmap_desc_data` about one buffer. -/
def unmapBuffer (pg : Pages) (bd : BufferData) : Pages :=
  let pg := { pg with released := bd.slice.toList ++ pg.released }
  { pg with unmaps := bd.paUnmap.pages.toList ++ pg.unmaps }

-- =============================================================== the ring

/-- `struct mac_dma_desc` -/
structure DmaDesc where
  desc0 : U32
  desc1 : U32
  desc2 : U32
  desc3 : U32
deriving DecidableEq

/-- `RX_NORMAL_DESC3_OWN`: the NIC owns the descriptor. -/
def DmaDesc.own (d : DmaDesc) : Bool := Field.get d.desc3 31 1 = 1

/-- `rx.hdr` and `rx.buf` of an entry, `rx_hdr_pa` and `rx_buf_pa` of a
ring. -/
inductive Part
  | hdr
  | buf
deriving DecidableEq

/-- `struct mac_desc_data` of a receive ring. -/
structure RxDescData where
  /-- Which descriptor of the table `dma_desc` points at. -/
  dmaDesc : Option Nat
  dmaDescAddr : U64
  rx : Part → BufferData

/-- `struct mac_ring` of a receive ring, its descriptors, and the NIC's
place in it. -/
structure RxRing where
  dmaDescHeadAddr : U64
  dmaDescs : Nat → DmaDesc
  dmaDescCount : Nat
  descDataHead : Nat → RxDescData
  rxPa : Part → PageAlloc
  cur : U32
  dirty : U32
  /-- `DMA_CH_RDTR_LO`, the tail register. -/
  rdtrLo : U32
  /-- The NIC's next entry. -/
  head : Nat
  /-- The NIC has completed the entry at the tail. -/
  stalled : Bool
  /-- How many descriptors the NIC has completed since the ring was last
  initialised. -/
  completed : Nat
  /-- Which of these an entry's descriptor is. -/
  stamp : Nat → Option Nat
  /-- What `mac_rx_poll` has consumed, in order. -/
  consumed : List (Option Nat)
  /-- What was given back to the NIC, in order. -/
  returned : List (Option Nat)

/-- `MAC_GET_DESC_DATA`: the entry of an index. -/
def RxRing.entry (ring : RxRing) (idx : U32) : Nat :=
  idx.toNat &&& (ring.dmaDescCount - 1)

/-- `pdata->rx_frames` and `pdata->rx_usecs` -/
structure Coalesce where
  rxFrames : U32
  rxUsecs : U32
deriving DecidableEq

/-- `if (!ring->rx_hdr_pa.pages)`, and the same for `rx_buf_pa`: pages
are allocated when a ring has none left. -/
def RxRing.ensurePages (ans : Answers) (pg : Pages) (ring : RxRing)
    (part : Part) (order : Nat) : Bool × Pages × RxRing :=
  if (ring.rxPa part).pages.isSome then (true, pg, ring)
  else
    match allocPages ans pg order with
    | (pg, none) => (false, pg, ring)
    | (pg, some pa) =>
        (true, pg, { ring with rxPa := Function.update ring.rxPa part pa })

/-- `mac_set_buffer_data` of one part of an entry. -/
def RxRing.setBuffer (pg : Pages) (ring : RxRing) (i : Nat) (part : Part)
    (len : Nat) : Pages × RxRing :=
  let descData := ring.descDataHead i
  let (pg, bd, pa) :=
    setBufferData pg (descData.rx part) (ring.rxPa part) len
  let descData :=
    { descData with rx := Function.update descData.rx part bd }
  (pg, { ring with
    rxPa := Function.update ring.rxPa part pa
    descDataHead := Function.update ring.descDataHead i descData })

/-- `mac_map_rx_buffer`: whether it succeeds. -/
def RxRing.mapRxBuffer (ans : Answers) (rxBufSize : Nat) (pg : Pages)
    (ring : RxRing) (i : Nat) : Bool × Pages × RxRing :=
  match ring.ensurePages ans pg .hdr 0 with
  | (false, pg, ring) => (false, pg, ring)
  | (true, pg, ring) =>
      match ring.ensurePages ans pg .buf bufOrder with
      | (false, pg, ring) => (false, pg, ring)
      | (true, pg, ring) =>
          let (pg, ring) := ring.setBuffer pg i .hdr skbAllocSize
          let (pg, ring) := ring.setBuffer pg i .buf rxBufSize
          (true, pg, ring)

/-- `mac_unmap_desc_data` of a receive entry. -/
def RxRing.unmapDescData (pg : Pages) (ring : RxRing) (i : Nat) :
    Pages × RxRing :=
  let descData := ring.descDataHead i
  let pg := unmapBuffer pg (descData.rx .hdr)
  let pg := unmapBuffer pg (descData.rx .buf)
  let descData := { descData with rx := fun _ => .zero }
  (pg, { ring with
    descDataHead := Function.update ring.descDataHead i descData })

/-- The interrupt bit of a descriptor that is given to the NIC. -/
def Coalesce.inte (coal : Coalesce) (index : U32) : U32 :=
  if coal.rxUsecs = 0 ∧ coal.rxFrames = 0 then 1
  else if coal.rxFrames ≠ 0 ∧ (index + 1) % coal.rxFrames = 0 then 1
  else 0

/-- The descriptor `mac_rx_desc_reset` writes for two buffers. -/
def armedDesc (hdr buf : BufferData) (inte : U32) : DmaDesc :=
  let hdrDma := hdr.dmaBase + BitVec.ofNat 64 hdr.dmaOff
  let bufDma := buf.dmaBase + BitVec.ofNat 64 buf.dmaOff
  let desc3 := Field.set ((bufDma >>> 32).setWidth 32) 30 1 inte
  { desc0 := hdrDma.setWidth 32
    desc1 := (hdrDma >>> 32).setWidth 32
    desc2 := bufDma.setWidth 32
    desc3 := Field.set desc3 31 1 1 }

/-- `mac_rx_desc_reset`. Without a `dma_desc` the kernel stops there. -/
def RxRing.rxDescReset (coal : Coalesce) (ring : RxRing) (i : Nat)
    (index : U32) : Option RxRing :=
  let descData := ring.descDataHead i
  match descData.dmaDesc with
  | none => none
  | some ptr =>
      let desc :=
        armedDesc (descData.rx .hdr) (descData.rx .buf) (coal.inte index)
      some
        { ring with
          dmaDescs := Function.update ring.dmaDescs ptr desc
          stamp := Function.update ring.stamp ptr none
          returned := ring.returned ++ [ring.stamp ptr] }

/-- The tail register is written with the address of an entry. -/
def RxRing.writeTail (ring : RxRing) (idx : U32) : RxRing :=
  { ring with
    rdtrLo := (ring.descDataHead (ring.entry idx)).dmaDescAddr.setWidth 32
    stalled := false }

-- ======================================================== initialisation

/-- Entry `j` is told where its descriptor is. -/
def RxRing.setDmaDesc (ring : RxRing) (j : Nat) : RxRing :=
  let descData :=
    { ring.descDataHead j with
      dmaDesc := some j
      dmaDescAddr := ring.dmaDescHeadAddr + BitVec.ofNat 64 (16 * j) }
  { ring with
    descDataHead := Function.update ring.descDataHead j descData }

/-- The loop of `mac_rx_desc_init` (bx_mac_desc.c) over the entries from
`j` on, of which there are `left`: it ends at the first that gets no
buffers. -/
def RxRing.fillFrom (ans : Answers) (rxBufSize : Nat) :
    (left j : Nat) → Pages → RxRing → Pages × RxRing
  | 0, _, pg, ring => (pg, ring)
  | left + 1, j, pg, ring =>
      match (ring.setDmaDesc j).mapRxBuffer ans rxBufSize pg j with
      | (false, pg, ring) => (pg, ring)
      | (true, pg, ring) => fillFrom ans rxBufSize left (j + 1) pg ring

/-- The loop of `mac_rx_desc_init` (bx_mac_hw.c) over the entries from
`i` on: whether the kernel gets through it. -/
def RxRing.armFrom (coal : Coalesce) :
    (left i : Nat) → RxRing → Bool × RxRing
  | 0, _, ring => (true, ring)
  | left + 1, i, ring =>
      match ring.rxDescReset coal i (BitVec.ofNat 32 i) with
      | none => (false, ring)
      | some ring => armFrom coal left (i + 1) ring

/-- `mac_rx_desc_init` of one ring (bx_mac_desc.c, and the call of
bx_mac_hw.c it ends with). The NIC starts over at the first entry, and
the counts start over with it. -/
def RxRing.descInit (ans : Answers) (coal : Coalesce) (rxBufSize : Nat)
    (pg : Pages) (ring : RxRing) : Bool × Pages × RxRing :=
  let (pg, ring) := ring.fillFrom ans rxBufSize ring.dmaDescCount 0 pg
  let ring := { ring with cur := 0, dirty := 0 }
  match ring.armFrom coal ring.dmaDescCount 0 with
  | (false, ring) => (false, pg, ring)
  | (true, ring) =>
      let ring :=
        ring.writeTail (ring.cur + BitVec.ofNat 32 ring.dmaDescCount - 1)
      (true, pg, { ring with
        head := ring.entry ring.cur
        completed := 0
        stamp := fun _ => none
        consumed := []
        returned := [] })

/-- The loop of `mac_free_rx_data` over the entries of a ring. -/
def RxRing.freeFrom : (left j : Nat) → Pages → RxRing → Pages × RxRing
  | 0, _, pg, ring => (pg, ring)
  | left + 1, j, pg, ring =>
      let (pg, ring) := ring.unmapDescData pg j
      freeFrom left (j + 1) pg ring

-- ============================================================== receiving

/-- The loop of `mac_rx_refresh`, for `left` entries to refill: whether
the kernel gets through it. -/
def RxRing.refillLoop (ans : Answers) (coal : Coalesce) (rxBufSize : Nat) :
    (left : Nat) → Pages → RxRing → Bool × Pages × RxRing
  | 0, pg, ring => (true, pg, ring)
  | left + 1, pg, ring =>
      let i := ring.entry ring.dirty
      -- reset desc_data values
      let (pg, ring) := ring.unmapDescData pg i
      match ring.mapRxBuffer ans rxBufSize pg i with
      | (false, pg, ring) => (true, pg, ring)
      | (true, pg, ring) =>
          match ring.rxDescReset coal i ring.dirty with
          | none => (false, pg, ring)
          | some ring =>
              refillLoop ans coal rxBufSize left pg
                { ring with dirty := ring.dirty + 1 }

/-- `mac_rx_refresh`. The loop goes on `while (ring->dirty != ring->cur)`,
and what it does to an entry does not change `cur`. -/
def RxRing.refresh (ans : Answers) (coal : Coalesce) (rxBufSize : Nat)
    (pg : Pages) (ring : RxRing) : Bool × Pages × RxRing :=
  match ring.refillLoop ans coal rxBufSize
      (ring.cur - ring.dirty).toNat pg with
  | (false, pg, ring) => (false, pg, ring)
  | (true, pg, ring) => (true, pg, ring.writeTail (ring.dirty - 1))

/-- The entry at `cur` is read: `hw_ops->dev_read` takes any descriptor
the NIC does not own. -/
def RxRing.devRead (ring : RxRing) : Bool × RxRing :=
  match (ring.descDataHead (ring.entry ring.cur)).dmaDesc with
  | none => (false, ring)
  | some ptr =>
      if (ring.dmaDescs ptr).own then (true, ring)
      else
        (true, { ring with
          cur := ring.cur + 1
          consumed := ring.consumed ++ [ring.stamp ptr] })

/-- One reading of `mac_rx_poll`, from `read_again` to `ring->cur++`. -/
def RxRing.pollRead (ans : Answers) (coal : Coalesce) (rxBufSize : Nat)
    (pg : Pages) (ring : RxRing) : Bool × Pages × RxRing :=
  if rxDescMaxDirty < ring.cur - ring.dirty then
    match ring.refresh ans coal rxBufSize pg with
    | (false, pg, ring) => (false, pg, ring)
    | (true, pg, ring) =>
        let (alive, ring) := ring.devRead
        (alive, pg, ring)
  else
    let (alive, ring) := ring.devRead
    (alive, pg, ring)

/-- The NIC completes its next descriptor, if it may. -/
def RxRing.complete (ring : RxRing) (back : DmaDesc) : RxRing :=
  let i := ring.head
  if ring.stalled ∨ (ring.dmaDescs i).own = false then ring
  else
    let back := { back with desc3 := Field.set back.desc3 31 1 0 }
    let addr := ring.dmaDescHeadAddr + BitVec.ofNat 64 (16 * i)
    { ring with
      dmaDescs := Function.update ring.dmaDescs i back
      head := (i + 1) % ring.dmaDescCount
      stalled := decide (addr.setWidth 32 = ring.rdtrLo)
      completed := ring.completed + 1
      stamp := Function.update ring.stamp i (some ring.completed) }

-- ============================================================= the device

/-- What of `struct mac_pdata` is about receiving. -/
structure RxPdata where
  pages : Pages
  rxRings : Nat → RxRing
  rxRingCount : Nat
  rxBufSize : Nat
  coal : Coalesce
  /-- The kernel followed a null pointer. -/
  oops : Bool

/-- The ring of a channel is put back after a call. -/
def RxPdata.setRing (p : RxPdata) (r : Nat) (out : Bool × Pages × RxRing) :
    RxPdata :=
  { p with
    pages := out.2.1
    rxRings := Function.update p.rxRings r out.2.2
    oops := p.oops || !out.1 }

/-- `mac_calc_rx_buf_size`; none is `-EINVAL`. -/
def calcRxBufSize (mtu : U32) : Option Nat :=
  -- MAC_JUMBO_PACKET_MTU
  if mtu > 9000 then none
  else
    -- ETH_HLEN + ETH_FCS_LEN + VLAN_HLEN, and MAC_RX_MIN_BUF_SIZE
    let rxBufSize := min (max (mtu.toNat + 14 + 4 + 4) 1522) pageSize
    -- up to MAC_RX_BUF_ALIGN
    some ((rxBufSize + 63) / 64 * 64)

/-- `mac_rx_desc_init` of the rings from `r` on. -/
def RxPdata.descInitFrom (ans : Answers) :
    (left r : Nat) → RxPdata → RxPdata
  | 0, _, p => p
  | left + 1, r, p =>
      let p := p.setRing r
        ((p.rxRings r).descInit ans p.coal p.rxBufSize p.pages)
      if p.oops then p else descInitFrom ans left (r + 1) p

/-- `mac_free_rx_data`, of the rings from `r` on. -/
def RxPdata.freeRxDataFrom : (left r : Nat) → RxPdata → RxPdata
  | 0, _, p => p
  | left + 1, r, p =>
      let out :=
        (p.rxRings r).freeFrom (p.rxRings r).dmaDescCount 0 p.pages
      freeRxDataFrom left (r + 1) (p.setRing r (true, out))

/-- `mac_start`, as far as the receive rings go. -/
def RxPdata.start (ans : Answers) (p : RxPdata) : RxPdata :=
  p.descInitFrom ans p.rxRingCount 0

/-- `mac_restart_dev` -/
def RxPdata.restartDev (ans : Answers) (p : RxPdata) : RxPdata :=
  (p.freeRxDataFrom p.rxRingCount 0).start ans

/-- `mac_change_mtu` -/
def RxPdata.changeMtu (ans : Answers) (p : RxPdata) (mtu : U32) :
    RxPdata :=
  match calcRxBufSize mtu with
  | none => p
  | some rxBufSize => { p with rxBufSize := rxBufSize }.restartDev ans

/-- A ring as `kcalloc` and `mac_init_ring` leave it. -/
def RxRing.fresh (dmaDescHeadAddr : U64) : RxRing where
  dmaDescHeadAddr := dmaDescHeadAddr
  dmaDescs _ := ⟨0, 0, 0, 0⟩
  dmaDescCount := rxDescCnt
  descDataHead _ := ⟨none, 0, fun _ => .zero⟩
  rxPa _ := .zero
  cur := 0
  dirty := 0
  rdtrLo := 0
  head := 0
  stalled := true
  completed := 0
  stamp _ := none
  consumed := []
  returned := []

/-- The rings `mac_open` allocates, where the table of ring `r` is at
`heads r`. -/
def RxPdata.allocated (rxRingCount : Nat) (heads : Nat → U64)
    (coal : Coalesce) (rxBufSize : Nat) : RxPdata where
  pages := ⟨0, [], [], [], []⟩
  rxRings r := .fresh (heads r)
  rxRingCount := rxRingCount
  rxBufSize := rxBufSize
  coal := coal
  oops := false

/-- `mac_open`; none is `-EINVAL`. -/
def RxPdata.opened (ans : Answers) (rxRingCount : Nat)
    (heads : Nat → U64) (coal : Coalesce) (mtu : U32) : Option RxPdata :=
  (calcRxBufSize mtu).map fun rxBufSize =>
    (allocated rxRingCount heads coal rxBufSize).start ans

/-- What happens to the receive rings of an open device. -/
inductive RxAct
  /-- `mac_restart_dev`, by the restart work. -/
  | restart
  | changeMtu (mtu : U32)
  /-- A ring is read once by `mac_rx_poll`. -/
  | read (r : Nat)
  /-- A ring is refilled by `mac_rx_refresh`. -/
  | refresh (r : Nat)
  /-- The NIC completes a descriptor of a ring. -/
  | complete (r : Nat) (back : DmaDesc)

/-- One action. Nothing happens in a kernel that has stopped, nor on a
ring that is not there. -/
def RxPdata.step (ans : Answers) (p : RxPdata) (act : RxAct) : RxPdata :=
  if p.oops then p
  else
    match act with
    | .restart => p.restartDev ans
    | .changeMtu mtu => p.changeMtu ans mtu
    | .read r =>
        if r < p.rxRingCount then
          p.setRing r
            ((p.rxRings r).pollRead ans p.coal p.rxBufSize p.pages)
        else p
    | .refresh r =>
        if r < p.rxRingCount then
          p.setRing r
            ((p.rxRings r).refresh ans p.coal p.rxBufSize p.pages)
        else p
    | .complete r back =>
        if r < p.rxRingCount then
          p.setRing r (true, p.pages, (p.rxRings r).complete back)
        else p

end BxRnic.Mac
