/-
The references to the pages that the receive buffers are cut from
(bx_mac_desc.c, bx_mac_net.c).

A page comes with a reference, which is that of the ring's leftover. A
slice cut from it is one more (`get_page`), and the slice that is cut last
takes over the leftover's, with the duty to unmap the page. A buffer that
goes up in a packet takes its slice's reference along, and the stack gives
it back.

# Memory

Pages are named as in the model of the rings, by the number of their
mapping. A page that is taken and cannot be mapped is given back at once
and gets no number. `broken` is that a page is given back or unmapped that
is not there, or is given back to the kernel while it is mapped, or that a
null pointer is followed.

# What is left out

The descriptors themselves: which entries are received into and refilled,
and when, is any order of the calls here.
-/
import BxRnic.Lib.Run
import BxRnic.Mac.RxRing
import Mathlib.Data.List.FinRange

namespace BxRnic.Mac.PageRefs

-- ================================================================ memory

/-- The pages, as the kernel keeps them. -/
structure PageMem where
  /-- The reference counts. -/
  refs : Nat → Nat
  /-- How often a page is mapped. -/
  maps : Nat → Nat
  broken : Bool

namespace PageMem

variable (m : PageMem)

/-- `alloc_pages` and `dma_map_page`, which succeed. -/
def allocPage (page : Nat) : PageMem :=
  { m with
    refs := Function.update m.refs page 1
    maps := Function.update m.maps page 1 }

/-- `get_page` -/
def getPage : Option Nat → PageMem
  | none => { m with broken := true }
  | some page =>
      if m.refs page = 0 then { m with broken := true }
      else
        { m with refs := Function.update m.refs page (m.refs page + 1) }

/-- `put_page`: the last reference frees the page. -/
def putPage (page : Nat) : PageMem :=
  if m.refs page = 0 then { m with broken := true }
  else
    { m with
      refs := Function.update m.refs page (m.refs page - 1)
      broken := m.broken || (m.refs page == 1 && m.maps page != 0) }

/-- `dma_unmap_page` -/
def dmaUnmapPage (page : Nat) : PageMem :=
  if m.maps page = 0 then { m with broken := true }
  else
    { m with maps := Function.update m.maps page (m.maps page - 1) }

/-- `dma_unmap_page` and `put_page`, if there are pages. -/
def unmapAlloc (pa : PageAlloc) : PageMem :=
  match pa.pages with
  | none => m
  | some page => (m.dmaUnmapPage page).putPage page

end PageMem

-- ============================================================== the ring

/-- `struct mac_buffer_data`, with the page of its `pa`. -/
structure RxBuffer where
  bd : BufferData
  pa : Option Nat

/-- The zeroed structure. -/
def RxBuffer.zero : RxBuffer := ⟨.zero, none⟩

/-- The pages of a ring of `n` entries. -/
structure PageRing (n : Nat) where
  pg : Pages
  mem : PageMem
  /-- `rx_hdr_pa` and `rx_buf_pa` -/
  rxPa : Part → PageAlloc
  /-- `rx.hdr` and `rx.buf` of the entries. -/
  descData : Fin n → Part → RxBuffer
  /-- The pages of the packets that have gone up, one for each
  reference. -/
  frags : List Nat

namespace PageRing

variable {n : Nat} (ans : Answers) (rxBufSize : Nat) (s : PageRing n)

/-- A ring as `mac_alloc_rings` leaves it. -/
def fresh (n : Nat) : PageRing n where
  pg := ⟨0, [], [], [], []⟩
  mem := ⟨fun _ => 0, fun _ => 0, false⟩
  rxPa := fun _ => .zero
  descData := fun _ _ => .zero
  frags := []

/-- `if (!ring->rx_hdr_pa.pages)`, and the same for `rx_buf_pa`. -/
def ensurePages (part : Part) (order : Nat) : Bool × PageRing n :=
  if (s.rxPa part).pages.isSome then (true, s)
  else
    match allocPages ans s.pg order with
    | (pg, none) => (false, { s with pg := pg })
    | (pg, some pa) =>
        (true, { s with
          pg := pg
          mem := s.mem.allocPage s.pg.maps.length
          rxPa := Function.update s.rxPa part pa })

/-- `mac_set_buffer_data` of one part of an entry. -/
def setBuffer (i : Fin n) (part : Part) (len : Nat) : PageRing n :=
  let pa := s.rxPa part
  let (pg, bd, pa') := setBufferData s.pg (s.descData i part).bd pa len
  { s with
    pg := pg
    mem := s.mem.getPage pa.pages
    rxPa := Function.update s.rxPa part pa'
    descData := Function.update s.descData i
      (Function.update (s.descData i) part ⟨bd, pa.pages⟩) }

/-- `mac_map_rx_buffer`: whether it succeeds. -/
def mapRxBuffer (i : Fin n) : Bool × PageRing n :=
  match s.ensurePages ans .hdr 0 with
  | (false, s) => (false, s)
  | (true, s) =>
      match s.ensurePages ans .buf bufOrder with
      | (false, s) => (false, s)
      | (true, s) =>
          (true, (s.setBuffer i .hdr skbAllocSize).setBuffer i .buf
            rxBufSize)

/-- The part of `mac_unmap_desc_data` about one buffer. -/
def unmapBuffer (m : PageMem) (b : RxBuffer) : PageMem :=
  let m :=
    match b.pa with
    | none => m
    | some page => m.putPage page
  m.unmapAlloc b.bd.paUnmap

/-- `mac_unmap_desc_data` -/
def unmapDescData (i : Fin n) : PageRing n :=
  let d := s.descData i
  { s with
    pg := Mac.unmapBuffer (Mac.unmapBuffer s.pg (d .hdr).bd) (d .buf).bd
    mem := unmapBuffer (unmapBuffer s.mem (d .hdr)) (d .buf)
    descData := Function.update s.descData i fun _ => .zero }

/-- The end of `mac_free_ring` for one of the leftovers. -/
def freeLeft (part : Part) : PageRing n :=
  { s with
    mem := s.mem.unmapAlloc (s.rxPa part)
    rxPa := Function.update s.rxPa part .zero }

/-- `skb_add_rx_frag` of the buffer of an entry, in `mac_create_skb` and
in `mac_rx_poll`. -/
def addRxFrag (i : Fin n) : PageRing n :=
  let d := s.descData i
  match (d .buf).pa with
  | none => { s with mem := { s.mem with broken := true } }
  | some page =>
      { s with
        descData := Function.update s.descData i
          (Function.update d .buf { d .buf with pa := none })
        frags := page :: s.frags }

/-- The stack is done with a page of a packet. -/
def putFrag (page : Nat) : PageRing n :=
  if page ∈ s.frags then
    { s with
      mem := s.mem.putPage page
      frags := s.frags.erase page }
  else s

-- ================================================================= steps

end PageRing

/-- What happens to the pages. -/
inductive PageAct (n : Nat)
  | map (i : Fin n)
  | unmap (i : Fin n)
  | freeLeft (part : Part)
  | addRxFrag (i : Fin n)
  | putFrag (page : Nat)

def PageRing.step {n : Nat} (ans : Answers) (rxBufSize : Nat)
    (s : PageRing n) : PageAct n → PageRing n
  | .map i => (s.mapRxBuffer ans rxBufSize i).2
  | .unmap i => s.unmapDescData i
  | .freeLeft part => s.freeLeft part
  | .addRxFrag i => s.addRxFrag i
  | .putFrag page => s.putFrag page

/-- The calls of the driver, and the stack's. -/
inductive PageCall (n : Nat)
  /-- `mac_free_rx_data`, which finds nothing in a new ring, and
  `mac_rx_desc_init`, which gets as far as the entry `reached`. -/
  | start (reached : Nat)
  /-- `mac_rx_refresh`, with the entries from `dirty` on. -/
  | refresh (entries : List (Fin n))
  /-- A buffer goes up in a packet. -/
  | receive (i : Fin n)
  /-- `mac_free_ring` -/
  | close
  | consume (page : Nat)

/-- What a call does, in order. -/
def PageCall.acts {n : Nat} : PageCall n → List (PageAct n)
  | .start reached =>
      (List.finRange n).map .unmap
        ++ ((List.finRange n).take reached).map .map
  | .refresh entries => entries.flatMap fun i => [.unmap i, .map i]
  | .receive i => [.addRxFrag i]
  | .close =>
      (List.finRange n).map .unmap ++ [.freeLeft .hdr, .freeLeft .buf]
  | .consume page => [.putFrag page]

end BxRnic.Mac.PageRefs
