/-
The buffers of the receive rings as slices of their pages.

# The pool

`slicePool` reads the rings as a pool that cuts slices for the header
and the data buffer of every entry. Allocating pages adds a page,
`mac_set_buffer_data` cuts, `mac_unmap_desc_data` releases
(`ensurePages_pool`, `setBuffer_pool`, `unmapDescData_pool`), and so
every call keeps `Sound`, the invariant of the pool with what the
entries and the rings record of their slices.

# The length

A ring keeps its leftover when it is restarted, and the leftover was
dropped or kept for the old length. A slice lies inside its page as long
as every change of the MTU finds leftovers with room for a slice of the
new length.
-/
import BxRnic.Lib.Run
import BxRnic.Mac.RxRing

namespace BxRnic.Mac

-- =============================================================== the pool

/-- The page a ring is cutting from. -/
def PageAlloc.leftover (pa : PageAlloc) : Option Leftover :=
  pa.pages.map fun page => ⟨page, pa.pagesLen, pa.pagesOffset⟩

/-- The slice of a buffer, and whether the buffer unmaps the page. -/
def BufferData.held (bd : BufferData) : Option (Slice × Bool) :=
  bd.slice.map fun c => (c, bd.paUnmap.pages.isSome)

/-- A buffer of an entry: the ring, the entry and the part. -/
abbrev Slot := Nat × Nat × Part

/-- The pages a slot is cut from: those of its ring and part. -/
def slotKey (s : Slot) : Nat × Part := (s.1, s.2.2)

/-- The pool of all rings. A key is a ring and a part. -/
def slicePool (pg : Pages) (rings : Nat → RxRing) :
    SlicePool (Nat × Part) Slot where
  sizes := pg.maps.map Mapping.len
  left k := ((rings k.1).rxPa k.2).leftover
  held s := (((rings s.1).descDataHead s.2.1).rx s.2.2).held
  cuts := pg.cuts
  released := pg.released
  unmapped := pg.unmaps

/-- What is recorded of pages is how they are mapped. -/
def PageAlloc.Right (maps : List Mapping) (pa : PageAlloc) : Prop :=
  ∀ page, pa.pages = some page → ∃ m, maps[page]? = some m
    ∧ pa.pagesDma = m.dma ∧ pa.pagesLen = m.len

/-- What a buffer records is where its slice is mapped, and the pages it
unmaps are the slice's. -/
structure BufferData.Right (maps : List Mapping) (bd : BufferData) :
    Prop where
  mapped : ∀ c, bd.slice = some c → ∃ m, maps[c.page]? = some m
    ∧ bd.dmaBase = m.dma ∧ bd.dmaOff = c.off ∧ bd.dmaLen = c.len
  unmaps : ∀ page, bd.paUnmap.pages = some page →
    ∃ c, bd.slice = some c ∧ c.page = page
  pages : bd.paUnmap.Right maps

/-- What the rings record of their slices is right. -/
structure RxRing.Right (maps : List Mapping) (ring : RxRing) : Prop where
  buffer : ∀ i part, ((ring.descDataHead i).rx part).Right maps
  pages : ∀ part, (ring.rxPa part).Right maps

/-- The invariant of the rings and their pages, with what else is asked
of the pool. -/
structure Sound (Q : SlicePool (Nat × Part) Slot → Prop) (pg : Pages)
    (rings : Nat → RxRing) : Prop where
  kept : (slicePool pg rings).Kept
  right : ∀ r, (rings r).Right pg.maps
  also : Q (slicePool pg rings)

theorem BufferData.right_zero (maps : List Mapping) :
    BufferData.zero.Right maps where
  mapped _ h := nomatch h
  unmaps _ h := nomatch h
  pages _ h := nomatch h

theorem PageAlloc.right_zero (maps : List Mapping) :
    PageAlloc.zero.Right maps := fun _ h => nomatch h

theorem getElem?_append_of_some {α : Type*} {l l' : List α} {i : Nat}
    {a : α} (h : l[i]? = some a) : (l ++ l')[i]? = some a := by
  have hlt := (List.getElem?_eq_some_iff.1 h).1
  rw [List.getElem?_append_left hlt, h]

/-- More mappings change nothing about what is recorded. -/
theorem PageAlloc.Right.append {maps : List Mapping} {pa : PageAlloc}
    (h : pa.Right maps) (more : List Mapping) : pa.Right (maps ++ more) := by
  intro page hpage
  obtain ⟨m, hm, hrest⟩ := h page hpage
  exact ⟨m, getElem?_append_of_some hm, hrest⟩

theorem RxRing.Right.append {maps : List Mapping} {ring : RxRing}
    (h : ring.Right maps) (more : List Mapping) :
    ring.Right (maps ++ more) := by
  refine ⟨fun i part => ⟨fun c hc => ?_, (h.buffer i part).unmaps,
    (h.buffer i part).pages.append more⟩,
    fun part => (h.pages part).append more⟩
  obtain ⟨m, hm, hrest⟩ := (h.buffer i part).mapped c hc
  exact ⟨m, getElem?_append_of_some hm, hrest⟩

-- ===================================================== allocating a page

/-- `mac_alloc_pages` leaves the logs alone, and maps the pages it
returns. -/
theorem allocPages_cases (ans : Answers) (pg : Pages) (order : Nat) :
    (∃ m : Mapping, pageSize ≤ m.len
      ∧ allocPages ans pg order
        = ({ pg with calls := pg.calls + 1, maps := pg.maps ++ [m] },
            some ⟨some pg.maps.length, m.len, 0, m.dma⟩))
      ∨ allocPages ans pg order
        = ({ pg with calls := pg.calls + 1 }, none) := by
  rw [allocPages]
  cases tryOrders (ans.available pg.calls) order with
  | none => exact Or.inr rfl
  | some order =>
      cases ans.mapPage pg.calls with
      | none => exact Or.inr rfl
      | some pagesDma =>
          refine Or.inl ⟨⟨pagesDma, pageSize <<< order⟩, ?_, rfl⟩
          rw [Nat.shiftLeft_eq]
          exact Nat.le_mul_of_pos_right _ (Nat.two_pow_pos order)

section Ring

variable {ans : Answers} {rings : Nat → RxRing} {r : Nat} {pg : Pages}
  {ring : RxRing}

/-- One ring among the others. -/
theorem slicePool_left_update (k : Nat × Part) :
    (slicePool pg (Function.update rings r ring)).left k
      = if k.1 = r then (ring.rxPa k.2).leftover
        else ((rings k.1).rxPa k.2).leftover := by
  by_cases hk : k.1 = r
  · simp [slicePool, hk]
  · simp [slicePool, hk]

theorem slicePool_held_update (s : Slot) :
    (slicePool pg (Function.update rings r ring)).held s
      = if s.1 = r then ((ring.descDataHead s.2.1).rx s.2.2).held
        else (((rings s.1).descDataHead s.2.1).rx s.2.2).held := by
  by_cases hs : s.1 = r
  · simp [slicePool, hs]
  · simp [slicePool, hs]

/-- A new page for a part of a ring. -/
theorem slicePool_addPage (m : Mapping) (part : Part) :
    slicePool { pg with calls := pg.calls + 1, maps := pg.maps ++ [m] }
        (Function.update rings r { ring with
          rxPa := Function.update ring.rxPa part
            ⟨some pg.maps.length, m.len, 0, m.dma⟩ })
      = (slicePool pg (Function.update rings r ring)).addPage (r, part)
          m.len := by
  have hlen : (pg.maps.map Mapping.len).length = pg.maps.length :=
    List.length_map Mapping.len
  refine SlicePool.ext ?_ ?_ ?_ rfl rfl rfl
  · simp [slicePool, SlicePool.addPage]
  · funext k
    obtain ⟨r', part'⟩ := k
    rw [slicePool_left_update]
    by_cases hk : (r', part') = (r, part)
    · obtain ⟨rfl, rfl⟩ := Prod.mk.inj hk
      simp [SlicePool.addPage, PageAlloc.leftover, slicePool]
    · rw [SlicePool.addPage_left, Function.update_of_ne hk,
        slicePool_left_update]
      by_cases hr : r' = r
      · have hpart : part' ≠ part := fun heq => hk (by rw [hr, heq])
        rw [if_pos hr, if_pos hr]
        dsimp only
        rw [Function.update_of_ne hpart]
      · rw [if_neg hr, if_neg hr]
  · funext s
    rw [SlicePool.addPage_held, slicePool_held_update,
      slicePool_held_update]

/-- `mac_set_buffer_data` of a slot that has no slice cuts one. -/
theorem setBuffer_pool {i : Nat} {part : Part} {len page : Nat}
    (hpage : (ring.rxPa part).pages = some page)
    (hclear : (ring.descDataHead i).rx part = .zero) :
    slicePool (ring.setBuffer pg i part len).1
        (Function.update rings r (ring.setBuffer pg i part len).2)
      = (slicePool pg (Function.update rings r ring)).cut (r, part)
          (r, i, part) len := by
  have hleft : (slicePool pg (Function.update rings r ring)).left (r, part)
      = some ⟨page, (ring.rxPa part).pagesLen,
          (ring.rxPa part).pagesOffset⟩ := by
    rw [slicePool_left_update, if_pos rfl, PageAlloc.leftover, hpage]
    rfl
  obtain ⟨hsizes, hreleased, hunmapped⟩ :=
    SlicePool.cut_logs (r, i, part) len hleft
  refine SlicePool.ext ?_ ?_ ?_ ?_ ?_ ?_
  · rw [hsizes]
    simp only [RxRing.setBuffer, setBufferData]
    split <;> rfl
  · funext k
    obtain ⟨r', part'⟩ := k
    rw [slicePool_left_update, SlicePool.cut_left hleft]
    by_cases hk : (r', part') = (r, part)
    · obtain ⟨rfl, rfl⟩ := Prod.mk.inj hk
      simp only [RxRing.setBuffer, setBufferData, if_true,
        Function.update_self, gt_iff_lt]
      split
      · rfl
      · simp [PageAlloc.leftover, hpage]
    · rw [Function.update_of_ne hk, slicePool_left_update]
      by_cases hr : r' = r
      · have hpart : part' ≠ part := fun heq => hk (by rw [hr, heq])
        rw [if_pos hr, if_pos hr]
        simp only [RxRing.setBuffer, Function.update_of_ne hpart]
      · rw [if_neg hr, if_neg hr]
  · funext s
    obtain ⟨r', i', part'⟩ := s
    rw [slicePool_held_update, SlicePool.cut_held hleft]
    by_cases hs : (r', i', part') = (r, i, part)
    · obtain ⟨rfl, heq⟩ := Prod.mk.inj hs
      obtain ⟨rfl, rfl⟩ := Prod.mk.inj heq
      simp only [RxRing.setBuffer, setBufferData, if_true,
        Function.update_self, gt_iff_lt, hclear, hpage]
      split
      · next hlast =>
          simp [BufferData.held, hlast]
      · next hlast =>
          simp [BufferData.held, BufferData.zero, PageAlloc.zero, hlast]
    · rw [Function.update_of_ne hs, slicePool_held_update]
      by_cases hr : r' = r
      · rw [if_pos hr, if_pos hr]
        simp only [RxRing.setBuffer]
        by_cases hi : i' = i
        · have hpart : part' ≠ part :=
            fun heq => hs (by rw [hr, hi, heq])
          rw [hi, Function.update_self]
          dsimp only
          rw [Function.update_of_ne hpart]
        · rw [Function.update_of_ne hi]
      · rw [if_neg hr, if_neg hr]
  · rw [SlicePool.cut_cuts hleft]
    simp only [RxRing.setBuffer, setBufferData, hpage]
    split <;> rfl
  · rw [hreleased]
    simp only [RxRing.setBuffer, setBufferData]
    split <;> rfl
  · rw [hunmapped]
    simp only [RxRing.setBuffer, setBufferData]
    split <;> rfl

/-- One buffer of an entry zeroed. -/
def RxRing.clearBuffer (ring : RxRing) (i : Nat) (part : Part) : RxRing :=
  { ring with
    descDataHead := Function.update ring.descDataHead i
      { ring.descDataHead i with
        rx := Function.update (ring.descDataHead i).rx part .zero } }

theorem clearBuffer_rx (ring : RxRing) (i : Nat) (part : Part)
    (i' : Nat) (part' : Part) :
    ((ring.clearBuffer i part).descDataHead i').rx part'
      = if i' = i ∧ part' = part then .zero
        else (ring.descDataHead i').rx part' := by
  simp only [RxRing.clearBuffer]
  by_cases hi : i' = i
  · subst hi
    rw [Function.update_self]
    by_cases hpart : part' = part
    · subst hpart
      simp
    · simp [hpart]
  · rw [Function.update_of_ne hi, if_neg fun h => hi h.1]

/-- The part of `mac_unmap_desc_data` about one buffer releases its
slot. -/
theorem clearBuffer_pool {i : Nat} {part : Part} {maps : List Mapping}
    (hright : ((ring.descDataHead i).rx part).Right maps) :
    slicePool (unmapBuffer pg ((ring.descDataHead i).rx part))
        (Function.update rings r (ring.clearBuffer i part))
      = (slicePool pg (Function.update rings r ring)).release
          (r, i, part) := by
  have hheld : (slicePool pg (Function.update rings r ring)).held
      (r, i, part) = ((ring.descDataHead i).rx part).held := by
    rw [slicePool_held_update, if_pos rfl]
  have hother : ∀ s, (slicePool pg
      (Function.update rings r (ring.clearBuffer i part))).held s
        = Function.update (slicePool pg (Function.update rings r ring)).held
            (r, i, part) none s := by
    rintro ⟨r', i', part'⟩
    rw [slicePool_held_update]
    by_cases hs : (r', i', part') = (r, i, part)
    · obtain ⟨rfl, heq⟩ := Prod.mk.inj hs
      obtain ⟨rfl, rfl⟩ := Prod.mk.inj heq
      rw [if_pos rfl, clearBuffer_rx, if_pos ⟨rfl, rfl⟩,
        Function.update_self]
      rfl
    · rw [Function.update_of_ne hs, slicePool_held_update]
      by_cases hr : r' = r
      · have hne : ¬ (i' = i ∧ part' = part) :=
          fun h => hs (by rw [hr, h.1, h.2])
        rw [if_pos hr, if_pos hr, clearBuffer_rx, if_neg hne]
      · rw [if_neg hr, if_neg hr]
  have hleft : (slicePool pg (Function.update rings r
        (ring.clearBuffer i part))).left
      = (slicePool pg (Function.update rings r ring)).left := by
    funext k
    rw [slicePool_left_update, slicePool_left_update]
    rfl
  cases hslice : ((ring.descDataHead i).rx part).slice with
  | none =>
      have hnone : ((ring.descDataHead i).rx part).paUnmap.pages = none := by
        cases hpages : ((ring.descDataHead i).rx part).paUnmap.pages with
        | none => rfl
        | some page =>
            obtain ⟨c, hc, -⟩ := hright.unmaps page hpages
            rw [hslice] at hc
            exact absurd hc (by simp)
      have hfree : (slicePool pg (Function.update rings r ring)).held
          (r, i, part) = none := by
        rw [hheld, BufferData.held, hslice]
        rfl
      rw [SlicePool.release_of_none hfree]
      refine SlicePool.ext rfl hleft ?_ rfl ?_ ?_
      · funext s
        rw [← Function.update_eq_self (r, i, part) (slicePool pg
          (Function.update rings r ring)).held, hfree]
        exact hother s
      · simp only [slicePool, unmapBuffer, hslice]
        rfl
      · simp only [slicePool, unmapBuffer, hnone]
        rfl
  | some c =>
      have hsome : (slicePool pg (Function.update rings r ring)).held
          (r, i, part)
            = some (c, ((ring.descDataHead i).rx part).paUnmap.pages.isSome)
          := by
        rw [hheld, BufferData.held, hslice]
        rfl
      refine SlicePool.ext ?_ ?_ ?_ ?_ ?_ ?_
      · rw [SlicePool.release_sizes]
        rfl
      · rw [SlicePool.release_left]
        exact hleft
      · rw [SlicePool.release_held hsome]
        exact funext hother
      · rw [SlicePool.release_cuts]
        rfl
      · rw [SlicePool.release_released hsome]
        simp only [slicePool, unmapBuffer, hslice]
        rfl
      · rw [SlicePool.release_unmapped hsome]
        cases hpages : ((ring.descDataHead i).rx part).paUnmap.pages with
        | none =>
            simp only [slicePool, unmapBuffer, hpages]
            rfl
        | some page =>
            obtain ⟨c', hc', rfl⟩ := hright.unmaps page hpages
            obtain rfl : c = c' := Option.some.inj (hslice.symm.trans hc')
            simp only [slicePool, unmapBuffer, hpages]
            rfl

end Ring

-- ======================================================= what calls keep

/-- The length of the slices of a part. -/
def partLen (rxBufSize : Nat) : Nat × Part → Nat
  | (_, .hdr) => skbAllocSize
  | (_, .buf) => rxBufSize

/-- The data buffers have some length, which fits in a page. -/
structure SizeOk (rxBufSize : Nat) : Prop where
  pos : 0 < rxBufSize
  le : rxBufSize ≤ pageSize

theorem SizeOk.partLen {rxBufSize : Nat} (h : SizeOk rxBufSize)
    (k : Nat × Part) :
    0 < partLen rxBufSize k ∧ partLen rxBufSize k ≤ pageSize := by
  obtain ⟨r, part⟩ := k
  cases part with
  | hdr =>
      show 0 < skbAllocSize ∧ skbAllocSize ≤ pageSize
      decide
  | buf => exact ⟨h.pos, h.le⟩

section Sound

variable {Q : SlicePool (Nat × Part) Slot → Prop} {ans : Answers}
  {rxBufSize : Nat} {rings : Nat → RxRing} {r : Nat} {pg : Pages}
  {ring : RxRing}

/-- The entry has no buffers. -/
def RxRing.Clear (ring : RxRing) (i : Nat) : Prop :=
  ∀ part, (ring.descDataHead i).rx part = .zero

/-- The rings record what is right when the one that changed does. -/
theorem right_update {pg' : Pages} {ring' : RxRing} {more : List Mapping}
    (hmaps : pg'.maps = pg.maps ++ more)
    (h : ∀ r', (Function.update rings r ring r').Right pg.maps)
    (hring : ring'.Right pg'.maps) (r' : Nat) :
    (Function.update rings r ring' r').Right pg'.maps := by
  by_cases hr : r' = r
  · subst hr
    rw [Function.update_self]
    exact hring
  · rw [Function.update_of_ne hr, hmaps]
    have hold := h r'
    rw [Function.update_of_ne hr] at hold
    exact hold.append more

theorem Sound.right_ring (h : Sound Q pg (Function.update rings r ring)) :
    ring.Right pg.maps := by
  have hr := h.right r
  rwa [Function.update_self] at hr

/-- A change that is not about buffers. -/
theorem Sound.congr (h : Sound Q pg (Function.update rings r ring))
    {ring' : RxRing} (hpa : ring'.rxPa = ring.rxPa)
    (hrx : ∀ i, (ring'.descDataHead i).rx = (ring.descDataHead i).rx) :
    Sound Q pg (Function.update rings r ring') := by
  have hpool : slicePool pg (Function.update rings r ring')
      = slicePool pg (Function.update rings r ring) := by
    refine SlicePool.ext rfl ?_ ?_ rfl rfl rfl
    · funext k
      rw [slicePool_left_update, slicePool_left_update, hpa]
    · funext s
      rw [slicePool_held_update, slicePool_held_update, hrx]
  refine ⟨by rw [hpool]; exact h.kept, ?_, by rw [hpool]; exact h.also⟩
  refine right_update (List.append_nil pg.maps).symm h.right ⟨?_, ?_⟩
  · intro i part
    rw [hrx]
    exact h.right_ring.buffer i part
  · intro part
    rw [hpa]
    exact h.right_ring.pages part

/-- How `ensurePages` can end: there were pages, or some are allocated,
or none are to be had. -/
theorem ensurePages_cases (ans : Answers) (pg : Pages) (ring : RxRing)
    (part : Part) (order : Nat) :
    ((ring.rxPa part).pages.isSome = true
        ∧ ring.ensurePages ans pg part order = (true, pg, ring))
      ∨ ((ring.rxPa part).pages = none ∧ ∃ m : Mapping, pageSize ≤ m.len
        ∧ ring.ensurePages ans pg part order
          = (true,
              { pg with calls := pg.calls + 1, maps := pg.maps ++ [m] },
              { ring with
                rxPa := Function.update ring.rxPa part
                  ⟨some pg.maps.length, m.len, 0, m.dma⟩ }))
      ∨ ((ring.rxPa part).pages = none
        ∧ ring.ensurePages ans pg part order
          = (false, { pg with calls := pg.calls + 1 }, ring)) := by
  rw [RxRing.ensurePages]
  cases hpages : (ring.rxPa part).pages with
  | some page => exact Or.inl ⟨rfl, rfl⟩
  | none =>
      rcases allocPages_cases ans pg order with ⟨m, hm, heq⟩ | heq
      · refine Or.inr (Or.inl ⟨rfl, m, hm, ?_⟩)
        rw [heq]
        rfl
      · refine Or.inr (Or.inr ⟨rfl, ?_⟩)
        rw [heq]
        rfl

/-- `ensurePages` keeps the invariant. -/
theorem Sound.ensurePages (hQ : SlicePool.Grows slotKey (partLen rxBufSize) Q)
    (hsize : SizeOk rxBufSize)
    (h : Sound Q pg (Function.update rings r ring)) (ans : Answers)
    (part : Part) (order : Nat) :
    Sound Q (ring.ensurePages ans pg part order).2.1
      (Function.update rings r
        (ring.ensurePages ans pg part order).2.2) := by
  rcases ensurePages_cases ans pg ring part order with
    ⟨-, heq⟩ | ⟨hnone, m, hm, heq⟩ | ⟨-, heq⟩
  · rw [heq]
    exact h
  · rw [heq]
    have hleft : (slicePool pg (Function.update rings r ring)).left
        (r, part) = none := by
      rw [slicePool_left_update, if_pos rfl, PageAlloc.leftover, hnone]
      rfl
    have hlen := (hsize.partLen (r, part)).2
    refine ⟨?_, ?_, ?_⟩
    · rw [slicePool_addPage]
      exact h.kept.addPage hleft
    · refine right_update rfl h.right ⟨?_, ?_⟩
      · exact (h.right_ring.append [m]).buffer
      · intro part' page hpage
        by_cases hpart : part' = part
        · subst hpart
          simp only [Function.update_self, Option.some.injEq] at hpage ⊢
          subst hpage
          exact ⟨m, by simp, rfl, rfl⟩
        · simp only [Function.update_of_ne hpart] at hpage ⊢
          exact (h.right_ring.append [m]).pages part' page hpage
    · rw [slicePool_addPage]
      exact hQ.addPage _ _ _ h.kept h.also hleft (Nat.le_trans hlen hm)
  · rw [heq]
    exact ⟨h.kept, h.right, h.also⟩

/-- What `mac_set_buffer_data` makes of `*bd`. -/
theorem setBufferData_bd (pg : Pages) (bd : BufferData) (pa : PageAlloc)
    (len : Nat) :
    (setBufferData pg bd pa len).2.1
      = { paUnmap :=
            if pa.pagesOffset + len + len > pa.pagesLen then
              { pa with pagesOffset := pa.pagesOffset + len }
            else bd.paUnmap
          dmaBase := pa.pagesDma
          dmaOff := pa.pagesOffset
          dmaLen := len
          slice := pa.pages.map fun page => ⟨page, pa.pagesOffset, len⟩ } := by
  simp only [setBufferData]
  split <;> rfl

/-- What `mac_set_buffer_data` records is right. -/
theorem RxRing.Right.setBuffer (h : ring.Right pg.maps) {i page len : Nat}
    {part : Part} (hpage : (ring.rxPa part).pages = some page)
    (hclear : (ring.descDataHead i).rx part = .zero) :
    (ring.setBuffer pg i part len).2.Right pg.maps := by
  obtain ⟨m, hm, hdma, hlen⟩ := h.pages part page hpage
  refine ⟨fun i' part' => ?_, fun part' => ?_⟩
  · simp only [RxRing.setBuffer]
    by_cases hi : i' = i
    · subst hi
      rw [Function.update_self]
      dsimp only
      by_cases hpart : part' = part
      · subst hpart
        rw [Function.update_self, hclear, setBufferData_bd, hpage]
        refine ⟨fun c hc => ?_, fun page' hpage' => ?_,
          fun page' hpage' => ?_⟩
        · obtain rfl := Option.some.inj hc
          exact ⟨m, hm, hdma, rfl, rfl⟩
        · refine ⟨⟨page, (ring.rxPa part').pagesOffset, len⟩, rfl, ?_⟩
          dsimp only at hpage'
          split at hpage'
          · exact Option.some.inj hpage'
          · exact absurd hpage' (by simp [BufferData.zero, PageAlloc.zero])
        · dsimp only at hpage' ⊢
          split at hpage'
          · next hlast =>
              obtain rfl := Option.some.inj hpage'
              rw [if_pos hlast]
              exact ⟨m, hm, hdma, hlen⟩
          · exact absurd hpage' (by simp [BufferData.zero, PageAlloc.zero])
      · rw [Function.update_of_ne hpart]
        exact h.buffer i' part'
    · rw [Function.update_of_ne hi]
      exact h.buffer i' part'
  · simp only [RxRing.setBuffer]
    by_cases hpart : part' = part
    · subst hpart
      rw [Function.update_self]
      simp only [setBufferData]
      split
      · exact PageAlloc.right_zero pg.maps
      · intro page' hpage'
        exact h.pages part' page' hpage'
    · rw [Function.update_of_ne hpart]
      exact h.pages part'

/-- `mac_set_buffer_data` keeps the invariant. -/
theorem Sound.setBuffer (hQ : SlicePool.Grows slotKey (partLen rxBufSize) Q)
    (hsize : SizeOk rxBufSize)
    (h : Sound Q pg (Function.update rings r ring)) {i page len : Nat}
    {part : Part} (hlen : len = partLen rxBufSize (r, part))
    (hpage : (ring.rxPa part).pages = some page)
    (hclear : (ring.descDataHead i).rx part = .zero) :
    Sound Q (ring.setBuffer pg i part len).1
      (Function.update rings r (ring.setBuffer pg i part len).2) := by
  have hleft : (slicePool pg (Function.update rings r ring)).left (r, part)
      = some ⟨page, (ring.rxPa part).pagesLen,
          (ring.rxPa part).pagesOffset⟩ := by
    rw [slicePool_left_update, if_pos rfl, PageAlloc.leftover, hpage]
    rfl
  have hheld : (slicePool pg (Function.update rings r ring)).held
      (r, i, part) = none := by
    rw [slicePool_held_update, if_pos rfl, hclear]
    rfl
  have hmaps : (ring.setBuffer pg i part len).1.maps = pg.maps := by
    simp only [RxRing.setBuffer, setBufferData]
    split <;> rfl
  refine ⟨?_, ?_, ?_⟩
  · rw [setBuffer_pool hpage hclear]
    refine h.kept.cut hleft hheld ?_
    rw [hlen]
    exact (hsize.partLen (r, part)).1
  · refine right_update (by rw [hmaps, List.append_nil]) h.right ?_
    rw [hmaps]
    exact h.right_ring.setBuffer hpage hclear
  · rw [setBuffer_pool hpage hclear, hlen]
    exact hQ.cut _ _ (r, i, part) h.kept h.also hleft

/-- The ring with other pages, and other buffers for one entry. -/
def RxRing.withBuffers (ring : RxRing) (i : Nat)
    (rxPa : Part → PageAlloc) (rx : Part → BufferData) : RxRing :=
  { ring with
    rxPa := rxPa
    descDataHead := Function.update ring.descDataHead i
      { ring.descDataHead i with rx := rx } }

/-- The buffers of an entry. -/
def RxRing.rxOf (ring : RxRing) (i : Nat) : Part → BufferData :=
  (ring.descDataHead i).rx

theorem withBuffers_rxOf (ring : RxRing) (i : Nat)
    (rxPa : Part → PageAlloc) :
    ring.withBuffers i rxPa (ring.rxOf i) = { ring with rxPa := rxPa } := by
  have hsame : { ring.descDataHead i with rx := ring.rxOf i }
      = ring.descDataHead i := rfl
  rw [RxRing.withBuffers, hsame, Function.update_eq_self]

theorem withBuffers_rxPa (ring : RxRing) (i : Nat)
    (rxPa : Part → PageAlloc) (rx : Part → BufferData) :
    (ring.withBuffers i rxPa rx).rxPa = rxPa := rfl

theorem rxOf_withBuffers (ring : RxRing) (i : Nat)
    (rxPa : Part → PageAlloc) (rx : Part → BufferData) :
    (ring.withBuffers i rxPa rx).rxOf i = rx := by
  simp only [RxRing.rxOf, RxRing.withBuffers, Function.update_self]

theorem withBuffers_withBuffers (ring : RxRing) (i : Nat)
    (rxPa rxPa' : Part → PageAlloc) (rx rx' : Part → BufferData) :
    (ring.withBuffers i rxPa rx).withBuffers i rxPa' rx'
      = ring.withBuffers i rxPa' rx' := by
  simp only [RxRing.withBuffers, Function.update_idem,
    Function.update_self]

/-- `ensurePages` touches nothing but the pages. -/
theorem ensurePages_frame (ans : Answers) (pg : Pages) (ring : RxRing)
    (part : Part) (order i : Nat) :
    ∃ rxPa, (ring.ensurePages ans pg part order).2.2
      = ring.withBuffers i rxPa (ring.rxOf i) := by
  rcases ensurePages_cases ans pg ring part order with
    ⟨-, heq⟩ | ⟨-, m, -, heq⟩ | ⟨-, heq⟩
  · exact ⟨ring.rxPa, by rw [heq, withBuffers_rxOf]⟩
  · exact ⟨_, by rw [heq, withBuffers_rxOf]⟩
  · exact ⟨ring.rxPa, by rw [heq, withBuffers_rxOf]⟩

theorem setBuffer_eq (pg : Pages) (ring : RxRing) (i : Nat) (part : Part)
    (len : Nat) :
    (ring.setBuffer pg i part len).2
      = ring.withBuffers i
          (Function.update ring.rxPa part
            (setBufferData pg (ring.rxOf i part) (ring.rxPa part) len).2.2)
          (Function.update (ring.rxOf i) part
            (setBufferData pg (ring.rxOf i part) (ring.rxPa part)
              len).2.1) := rfl

/-- The header buffer is set up first, and leaves the pages for data
buffers alone. -/
theorem setBuffer_hdr_buf (pg : Pages) (ring : RxRing) (i len : Nat) :
    (ring.setBuffer pg i .hdr len).2.rxPa .buf = ring.rxPa .buf := by
  rw [setBuffer_eq, withBuffers_rxPa, Function.update_of_ne (by decide)]

/-- `mac_set_buffer_data` gives a part of the entry a slice. -/
theorem setBuffer_frame {page : Nat} {part : Part} (pg : Pages)
    (i len : Nat) (hpage : (ring.rxPa part).pages = some page) :
    ∃ rxPa bd, (ring.setBuffer pg i part len).2
        = ring.withBuffers i rxPa (Function.update (ring.rxOf i) part bd)
      ∧ (∀ part', part' ≠ part → rxPa part' = ring.rxPa part')
      ∧ ∃ c, bd.slice = some c
        ∧ (ring.setBuffer pg i part len).1.cuts = c :: pg.cuts := by
  refine ⟨_, _, setBuffer_eq pg ring i part len, fun part' hpart => ?_,
    ⟨page, (ring.rxPa part).pagesOffset, len⟩, ?_, ?_⟩
  · exact Function.update_of_ne hpart _ _
  · rw [setBufferData_bd, hpage]
    rfl
  · simp only [RxRing.setBuffer, setBufferData, hpage]
    split <;> rfl

/-- `ensurePages` succeeds with pages. -/
theorem ensurePages_some {part : Part} {order : Nat}
    (h : (ring.ensurePages ans pg part order).1 = true) :
    ∃ page, ((ring.ensurePages ans pg part order).2.2.rxPa part).pages
      = some page := by
  rcases ensurePages_cases ans pg ring part order with
    ⟨hsome, heq⟩ | ⟨-, m, -, heq⟩ | ⟨-, heq⟩
  · rw [heq]
    exact Option.isSome_iff_exists.1 hsome
  · rw [heq]
    refine ⟨pg.maps.length, ?_⟩
    dsimp only
    rw [Function.update_self]
  · rw [heq] at h
    exact Bool.noConfusion h

/-- What `mac_map_rx_buffer` does, call by call. -/
inductive MapsRxBuffer (ans : Answers) (rxBufSize : Nat) (pg : Pages)
    (ring : RxRing) (i : Nat) : Bool × Pages × RxRing → Prop
  /-- There are no pages for a header buffer. -/
  | noHdr
      (hfail : (ring.ensurePages ans pg .hdr 0).1 = false) :
      MapsRxBuffer ans rxBufSize pg ring i
        (false, (ring.ensurePages ans pg .hdr 0).2)
  /-- There are no pages for a data buffer. -/
  | noBuf (pg₁ : Pages) (ring₁ : RxRing)
      (hok : ring.ensurePages ans pg .hdr 0 = (true, pg₁, ring₁))
      (hfail : (ring₁.ensurePages ans pg₁ .buf bufOrder).1 = false) :
      MapsRxBuffer ans rxBufSize pg ring i
        (false, (ring₁.ensurePages ans pg₁ .buf bufOrder).2)
  /-- The entry gets both. -/
  | both (pg₁ : Pages) (ring₁ : RxRing) (pg₂ : Pages) (ring₂ : RxRing)
      (hok₁ : ring.ensurePages ans pg .hdr 0 = (true, pg₁, ring₁))
      (hok₂ : ring₁.ensurePages ans pg₁ .buf bufOrder
        = (true, pg₂, ring₂)) :
      MapsRxBuffer ans rxBufSize pg ring i
        (true, (ring₂.setBuffer pg₂ i .hdr skbAllocSize).2.setBuffer
          (ring₂.setBuffer pg₂ i .hdr skbAllocSize).1 i .buf rxBufSize)

theorem mapRxBuffer_cases (ans : Answers) (rxBufSize : Nat) (pg : Pages)
    (ring : RxRing) (i : Nat) :
    MapsRxBuffer ans rxBufSize pg ring i
      (ring.mapRxBuffer ans rxBufSize pg i) := by
  rw [RxRing.mapRxBuffer]
  rcases hhdr : ring.ensurePages ans pg .hdr 0 with ⟨ok₁, pg₁, ring₁⟩
  cases ok₁ with
  | false =>
      have hcase : MapsRxBuffer ans rxBufSize pg ring i
          (false, (ring.ensurePages ans pg .hdr 0).2) :=
        .noHdr (congrArg Prod.fst hhdr)
      rw [hhdr] at hcase
      exact hcase
  | true =>
      dsimp only
      rcases hbuf : ring₁.ensurePages ans pg₁ .buf bufOrder with
        ⟨ok₂, pg₂, ring₂⟩
      cases ok₂ with
      | false =>
          have hcase : MapsRxBuffer ans rxBufSize pg ring i
              (false, (ring₁.ensurePages ans pg₁ .buf bufOrder).2) :=
            .noBuf pg₁ ring₁ hhdr (congrArg Prod.fst hbuf)
          rw [hbuf] at hcase
          exact hcase
      | true => exact MapsRxBuffer.both pg₁ ring₁ pg₂ ring₂ hhdr hbuf

/-- Pages allocated for the other part stay. -/
theorem ensurePages_other {part part' : Part} {order : Nat}
    (hne : part' ≠ part) :
    (ring.ensurePages ans pg part order).2.2.rxPa part'
      = ring.rxPa part' := by
  rcases ensurePages_cases ans pg ring part order with
    ⟨-, heq⟩ | ⟨-, m, -, heq⟩ | ⟨-, heq⟩
  · rw [heq]
  · rw [heq]
    exact Function.update_of_ne hne _ _
  · rw [heq]

/-- Both parts of a ring have pages when both calls succeeded. -/
theorem ensured {pg₁ pg₂ : Pages} {ring₁ ring₂ : RxRing} {order : Nat}
    (hok₁ : ring.ensurePages ans pg .hdr 0 = (true, pg₁, ring₁))
    (hok₂ : ring₁.ensurePages ans pg₁ .buf order = (true, pg₂, ring₂)) :
    (∃ page, (ring₂.rxPa .hdr).pages = some page)
      ∧ ∃ page, (ring₂.rxPa .buf).pages = some page := by
  have hhdr := ensurePages_some (congrArg Prod.fst hok₁)
  have hbuf := ensurePages_some (congrArg Prod.fst hok₂)
  have hother : (ring₁.ensurePages ans pg₁ .buf order).2.2.rxPa .hdr
      = ring₁.rxPa .hdr := ensurePages_other (by decide)
  rw [hok₁] at hhdr
  rw [hok₂] at hbuf hother
  refine ⟨?_, hbuf⟩
  dsimp only at hother hhdr
  rw [hother]
  exact hhdr

theorem ensurePages_cuts {part : Part} {order : Nat} :
    (ring.ensurePages ans pg part order).2.1.cuts = pg.cuts := by
  rcases ensurePages_cases ans pg ring part order with
    ⟨-, heq⟩ | ⟨-, m, -, heq⟩ | ⟨-, heq⟩
  · rw [heq]
  · rw [heq]
  · rw [heq]

/-- The two buffers have slices, the last two that were cut. -/
def CutBoth (old cuts : List Slice) (rx : Part → BufferData) : Prop :=
  ∃ chdr cbuf, (rx .hdr).slice = some chdr ∧ (rx .buf).slice = some cbuf
    ∧ cuts = cbuf :: chdr :: old

/-- `mac_map_rx_buffer` touches the pages of the ring and the buffers of
the entry: not these, if it fails, else both get slices. -/
theorem mapRxBuffer_frame (ans : Answers) (rxBufSize : Nat) (pg : Pages)
    (ring : RxRing) (i : Nat) :
    ∃ rxPa rx, (ring.mapRxBuffer ans rxBufSize pg i).2.2
        = ring.withBuffers i rxPa rx
      ∧ ((ring.mapRxBuffer ans rxBufSize pg i).1 = false →
          rx = ring.rxOf i)
      ∧ ((ring.mapRxBuffer ans rxBufSize pg i).1 = true →
          CutBoth pg.cuts (ring.mapRxBuffer ans rxBufSize pg i).2.1.cuts
            rx) := by
  have hcases := mapRxBuffer_cases ans rxBufSize pg ring i
  generalize ring.mapRxBuffer ans rxBufSize pg i = out at hcases
  obtain ⟨rxPa₁, hring₁⟩ := ensurePages_frame ans pg ring .hdr 0 i
  cases hcases with
  | noHdr hfail =>
      exact ⟨rxPa₁, ring.rxOf i, hring₁, fun _ => rfl,
        fun h => Bool.noConfusion h⟩
  | noBuf pg₁ ring₁ hok hfail =>
      rw [hok] at hring₁
      obtain ⟨rxPa₂, hring₂⟩ :=
        ensurePages_frame ans pg₁ ring₁ .buf bufOrder i
      refine ⟨rxPa₂, ring.rxOf i, ?_, fun _ => rfl,
        fun h => Bool.noConfusion h⟩
      dsimp only at hring₁
      rw [hring₁, rxOf_withBuffers, withBuffers_withBuffers] at hring₂
      rw [hring₁]
      exact hring₂
  | both pg₁ ring₁ pg₂ ring₂ hok₁ hok₂ =>
      obtain ⟨⟨page₁, hpage₁⟩, ⟨page₂, hpage₂⟩⟩ := ensured hok₁ hok₂
      obtain ⟨rxPa₂, hring₂⟩ :=
        ensurePages_frame ans pg₁ ring₁ .buf bufOrder i
      rw [hok₁] at hring₁
      rw [hok₂] at hring₂
      dsimp only at hring₁ hring₂
      rw [hring₁, rxOf_withBuffers, withBuffers_withBuffers] at hring₂
      obtain ⟨rxPa₃, bd₁, hset₁, hother₁, c₁, hslice₁, hcuts₁⟩ :=
        setBuffer_frame pg₂ i skbAllocSize hpage₁
      have hpage₃ : ((ring₂.setBuffer pg₂ i .hdr skbAllocSize).2.rxPa
          .buf).pages = some page₂ := by
        rw [hset₁, withBuffers_rxPa, hother₁ .buf (by decide), hpage₂]
      obtain ⟨rxPa₄, bd₂, hset₂, -, c₂, hslice₂, hcuts₂⟩ :=
        setBuffer_frame (ring₂.setBuffer pg₂ i .hdr skbAllocSize).1 i
          rxBufSize hpage₃
      have hrx : (ring₂.setBuffer pg₂ i .hdr skbAllocSize).2.rxOf i
          = Function.update (ring₂.rxOf i) .hdr bd₁ := by
        rw [hset₁, rxOf_withBuffers]
      refine ⟨rxPa₄, Function.update
        (Function.update (ring₂.rxOf i) .hdr bd₁) .buf bd₂, ?_,
        fun h => Bool.noConfusion h, fun _ => ⟨c₁, c₂, ?_, ?_, ?_⟩⟩
      · dsimp only
        rw [hset₂, hrx, hset₁, hring₂, withBuffers_withBuffers,
          withBuffers_withBuffers]
      · rw [Function.update_of_ne (by decide), Function.update_self]
        exact hslice₁
      · rw [Function.update_self]
        exact hslice₂
      · have hpg₁ : pg₁.cuts = pg.cuts := by
          have hcuts := @ensurePages_cuts ans pg ring .hdr 0
          rw [hok₁] at hcuts
          exact hcuts
        have hpg₂ : pg₂.cuts = pg₁.cuts := by
          have hcuts := @ensurePages_cuts ans pg₁ ring₁ .buf bufOrder
          rw [hok₂] at hcuts
          exact hcuts
        rw [← hpg₁, ← hpg₂, ← hcuts₁]
        exact hcuts₂

/-- The data buffer is cut from what is left, if there is something. -/
theorem mapRxBuffer_leftover {i page : Nat}
    (hpage : (ring.rxPa .buf).pages = some page)
    (hok : (ring.mapRxBuffer ans rxBufSize pg i).1 = true) :
    (ring.mapRxBuffer ans rxBufSize pg i).2.2.rxOf i .buf
      = (setBufferData pg (ring.rxOf i .buf) (ring.rxPa .buf)
          rxBufSize).2.1 := by
  have hcases := mapRxBuffer_cases ans rxBufSize pg ring i
  generalize ring.mapRxBuffer ans rxBufSize pg i = out at hcases hok
  cases hcases with
  | noHdr hfail => exact Bool.noConfusion hok
  | noBuf pg₁ ring₁ hfound hfail => exact Bool.noConfusion hok
  | both pg₁ ring₁ pg₂ ring₂ hok₁ hok₂ =>
      obtain ⟨rxPa₁, hring₁⟩ := ensurePages_frame ans pg ring .hdr 0 i
      have hother := @ensurePages_other ans pg ring .hdr .buf 0 (by decide)
      rw [hok₁] at hring₁ hother
      dsimp only at hring₁ hother
      have hrx : ring₁.rxOf i = ring.rxOf i := by
        rw [hring₁, rxOf_withBuffers]
      have hsome : (ring₁.rxPa .buf).pages.isSome = true := by
        rw [hother, hpage]
        rfl
      rw [RxRing.ensurePages, if_pos hsome] at hok₂
      cases hok₂
      rw [setBuffer_eq, rxOf_withBuffers, Function.update_self,
        setBuffer_hdr_buf, setBuffer_eq, rxOf_withBuffers,
        Function.update_of_ne (by decide), hother, hrx, setBufferData_bd,
        setBufferData_bd]

/-- `mac_map_rx_buffer` of an entry without buffers keeps the
invariant. -/
theorem Sound.mapRxBuffer (hQ : SlicePool.Grows slotKey (partLen rxBufSize) Q)
    (hsize : SizeOk rxBufSize)
    (h : Sound Q pg (Function.update rings r ring)) (ans : Answers)
    {i : Nat} (hclear : ∀ part, ring.rxOf i part = .zero) :
    Sound Q (ring.mapRxBuffer ans rxBufSize pg i).2.1
      (Function.update rings r
        (ring.mapRxBuffer ans rxBufSize pg i).2.2) := by
  have hcases := mapRxBuffer_cases ans rxBufSize pg ring i
  generalize ring.mapRxBuffer ans rxBufSize pg i = out at hcases
  have h₁ := h.ensurePages hQ hsize ans .hdr 0
  cases hcases with
  | noHdr hfail => exact h₁
  | noBuf pg₁ ring₁ hok hfail =>
      rw [hok] at h₁
      exact h₁.ensurePages hQ hsize ans .buf bufOrder
  | both pg₁ ring₁ pg₂ ring₂ hok₁ hok₂ =>
      obtain ⟨⟨page₁, hpage₁⟩, ⟨page₂, hpage₂⟩⟩ := ensured hok₁ hok₂
      obtain ⟨rxPa₁, hring₁⟩ := ensurePages_frame ans pg ring .hdr 0 i
      obtain ⟨rxPa₂, hring₂⟩ :=
        ensurePages_frame ans pg₁ ring₁ .buf bufOrder i
      rw [hok₁] at hring₁ h₁
      have h₂ := h₁.ensurePages hQ hsize ans .buf bufOrder
      rw [hok₂] at hring₂ h₂
      dsimp only at hring₁ hring₂ h₂
      rw [hring₁, rxOf_withBuffers, withBuffers_withBuffers] at hring₂
      have hclear₂ : ∀ part, ring₂.rxOf i part = .zero := by
        intro part
        rw [hring₂, rxOf_withBuffers]
        exact hclear part
      obtain ⟨rxPa₃, bd₁, hset₁, hother₁, -⟩ :=
        setBuffer_frame pg₂ i skbAllocSize hpage₁
      have h₃ := h₂.setBuffer hQ hsize rfl hpage₁ (hclear₂ .hdr)
      have hpage₃ : ((ring₂.setBuffer pg₂ i .hdr skbAllocSize).2.rxPa
          .buf).pages = some page₂ := by
        rw [hset₁, withBuffers_rxPa, hother₁ .buf (by decide), hpage₂]
      have hclear₃ : (ring₂.setBuffer pg₂ i .hdr skbAllocSize).2.rxOf i .buf
          = .zero := by
        rw [hset₁, rxOf_withBuffers, Function.update_of_ne (by decide)]
        exact hclear₂ .buf
      exact h₃.setBuffer hQ hsize rfl hpage₃ hclear₃

/-- `mac_unmap_desc_data` clears the header buffer and then the data
buffer. -/
theorem unmapDescData_eq (pg : Pages) (ring : RxRing) (i : Nat) :
    ring.unmapDescData pg i
      = (unmapBuffer (unmapBuffer pg (ring.rxOf i .hdr))
            ((ring.clearBuffer i .hdr).rxOf i .buf),
          (ring.clearBuffer i .hdr).clearBuffer i .buf) := by
  have hzero : Function.update (Function.update (ring.rxOf i) .hdr .zero)
      .buf .zero = fun _ => BufferData.zero := by
    funext part
    cases part with
    | hdr => rw [Function.update_of_ne (by decide), Function.update_self]
    | buf => rw [Function.update_self]
  have hclear : ∀ (ring' : RxRing) part, ring'.clearBuffer i part
      = ring'.withBuffers i ring'.rxPa
          (Function.update (ring'.rxOf i) part .zero) := fun _ _ => rfl
  have hbuf : (ring.clearBuffer i .hdr).rxOf i .buf = ring.rxOf i .buf := by
    rw [hclear, rxOf_withBuffers, Function.update_of_ne (by decide)]
  rw [hbuf, hclear, hclear, rxOf_withBuffers, withBuffers_withBuffers,
    hzero]
  rfl

/-- The pool after `mac_unmap_desc_data`. -/
theorem unmapDescData_pool {maps : List Mapping} {i : Nat}
    (hright : ring.Right maps) :
    slicePool (ring.unmapDescData pg i).1
        (Function.update rings r (ring.unmapDescData pg i).2)
      = ((slicePool pg (Function.update rings r ring)).release
          (r, i, .hdr)).release (r, i, .buf) := by
  have hhdr : slicePool (unmapBuffer pg (ring.rxOf i .hdr))
      (Function.update rings r (ring.clearBuffer i .hdr))
        = (slicePool pg (Function.update rings r ring)).release
            (r, i, .hdr) := clearBuffer_pool (hright.buffer i .hdr)
  have hbuf : ((ring.clearBuffer i .hdr).rxOf i .buf).Right maps := by
    rw [RxRing.rxOf, clearBuffer_rx, if_neg fun h => Part.noConfusion h.2]
    exact hright.buffer i .buf
  rw [unmapDescData_eq, ← hhdr]
  exact clearBuffer_pool hbuf

/-- What is left of the entry is recorded right. -/
theorem RxRing.Right.unmapDescData {maps : List Mapping}
    (h : ring.Right maps) (pg : Pages) (i : Nat) :
    (ring.unmapDescData pg i).2.Right maps := by
  refine ⟨fun i' part => ?_, h.pages⟩
  rw [unmapDescData_eq]
  simp only [clearBuffer_rx]
  split
  · exact BufferData.right_zero maps
  · split
    · exact BufferData.right_zero maps
    · exact h.buffer i' part

/-- `mac_unmap_desc_data` keeps the invariant, if what else is asked
survives the two releases. -/
theorem Sound.unmapDescData (h : Sound Q pg (Function.update rings r ring))
    {i : Nat}
    (halso : Q (((slicePool pg (Function.update rings r ring)).release
      (r, i, .hdr)).release (r, i, .buf))) :
    Sound Q (ring.unmapDescData pg i).1
      (Function.update rings r (ring.unmapDescData pg i).2) := by
  refine ⟨?_, ?_, ?_⟩
  · rw [unmapDescData_pool h.right_ring]
    exact h.kept.release.release
  · exact right_update (List.append_nil pg.maps).symm h.right
      (h.right_ring.unmapDescData pg i)
  · rw [unmapDescData_pool h.right_ring]
    exact halso

/-- The entry has no buffers any more, the others have theirs. -/
theorem unmapDescData_rxOf (pg : Pages) (ring : RxRing) (i i' : Nat) :
    (ring.unmapDescData pg i).2.rxOf i'
      = if i' = i then fun _ => .zero else ring.rxOf i' := by
  rw [RxRing.unmapDescData, RxRing.rxOf]
  dsimp only
  by_cases hi : i' = i
  · rw [if_pos hi, hi, Function.update_self]
  · rw [if_neg hi, Function.update_of_ne hi]
    rfl

-- ------------------------------------------------------- whole rings

/-- Arming an entry is not about its buffers. -/
theorem rxDescReset_buffers {coal : Coalesce} {i : Nat} {index : U32}
    {ring' : RxRing} (h : ring.rxDescReset coal i index = some ring') :
    ring'.rxPa = ring.rxPa ∧ ring'.descDataHead = ring.descDataHead := by
  rw [RxRing.rxDescReset] at h
  split at h
  · exact absurd h (by simp)
  · obtain rfl := Option.some.inj h
    exact ⟨rfl, rfl⟩

theorem armFrom_buffers {coal : Coalesce} {left i : Nat} :
    (ring.armFrom coal left i).2.rxPa = ring.rxPa
      ∧ (ring.armFrom coal left i).2.descDataHead = ring.descDataHead := by
  induction left generalizing i ring with
  | zero => exact ⟨rfl, rfl⟩
  | succ left ih =>
      rw [RxRing.armFrom]
      cases hreset : ring.rxDescReset coal i (BitVec.ofNat 32 i) with
      | none => exact ⟨rfl, rfl⟩
      | some ring' =>
          obtain ⟨hpa, hdata⟩ := rxDescReset_buffers hreset
          have hrest := @ih ring' (i + 1)
          exact ⟨hrest.1.trans hpa, hrest.2.trans hdata⟩

theorem setDmaDesc_rx (ring : RxRing) (j i : Nat) :
    (ring.setDmaDesc j).rxOf i = ring.rxOf i := by
  rw [RxRing.setDmaDesc, RxRing.rxOf]
  dsimp only
  by_cases hi : i = j
  · rw [hi, Function.update_self]
    rfl
  · rw [Function.update_of_ne hi]
    rfl

/-- `mac_map_rx_buffer` is about one entry. -/
theorem mapRxBuffer_other {i i' : Nat} (hne : i' ≠ i) :
    (ring.mapRxBuffer ans rxBufSize pg i).2.2.descDataHead i'
      = ring.descDataHead i' := by
  obtain ⟨rxPa, rx, heq, -, -⟩ :=
    mapRxBuffer_frame ans rxBufSize pg ring i
  rw [heq, RxRing.withBuffers]
  exact Function.update_of_ne hne _ _

/-- Filling entries that have no buffers keeps the invariant. -/
theorem Sound.fillFrom (hQ : SlicePool.Grows slotKey (partLen rxBufSize) Q)
    (hsize : SizeOk rxBufSize) {left j : Nat}
    (h : Sound Q pg (Function.update rings r ring)) (ans : Answers)
    (hclear : ∀ i, j ≤ i → i < j + left → ∀ part,
      ring.rxOf i part = .zero) :
    Sound Q (ring.fillFrom ans rxBufSize left j pg).1
      (Function.update rings r
        (ring.fillFrom ans rxBufSize left j pg).2) := by
  induction left generalizing j pg ring with
  | zero => exact h
  | succ left ih =>
      have hset : Sound Q pg
          (Function.update rings r (ring.setDmaDesc j)) :=
        h.congr rfl (setDmaDesc_rx ring j)
      have hmap := hset.mapRxBuffer hQ hsize ans fun part => by
        rw [setDmaDesc_rx]
        exact hclear j (Nat.le_refl j) (by omega) part
      have hother : ∀ i, i ≠ j → ((ring.setDmaDesc j).mapRxBuffer ans
          rxBufSize pg j).2.2.rxOf i = ring.rxOf i := by
        intro i hi
        rw [RxRing.rxOf, mapRxBuffer_other hi]
        exact setDmaDesc_rx ring j i
      rw [RxRing.fillFrom]
      rcases hout : (ring.setDmaDesc j).mapRxBuffer ans rxBufSize pg j with
        ⟨ok, pg', ring'⟩
      rw [hout] at hmap hother
      cases ok with
      | false => exact hmap
      | true =>
          refine ih hmap fun i hlo hhi part => ?_
          rw [hother i (by omega)]
          exact hclear i (by omega) (by omega) part

/-- No entry from `j` on goes without buffers when the ring is filled. -/
def RxRing.Fills (ans : Answers) (rxBufSize : Nat) :
    (left j : Nat) → Pages → RxRing → Prop
  | 0, _, _, _ => True
  | left + 1, j, pg, ring =>
      ((ring.setDmaDesc j).mapRxBuffer ans rxBufSize pg j).1 = true
        ∧ Fills ans rxBufSize left (j + 1)
          ((ring.setDmaDesc j).mapRxBuffer ans rxBufSize pg j).2.1
          ((ring.setDmaDesc j).mapRxBuffer ans rxBufSize pg j).2.2

/-- The next entry is filled, and then the rest. -/
theorem fillFrom_succ {left j : Nat}
    (h : ((ring.setDmaDesc j).mapRxBuffer ans rxBufSize pg j).1 = true) :
    ring.fillFrom ans rxBufSize (left + 1) j pg
      = ((ring.setDmaDesc j).mapRxBuffer ans rxBufSize pg j).2.2.fillFrom
          ans rxBufSize left (j + 1)
          ((ring.setDmaDesc j).mapRxBuffer ans rxBufSize pg j).2.1 := by
  rw [RxRing.fillFrom]
  rcases hout : (ring.setDmaDesc j).mapRxBuffer ans rxBufSize pg j with
    ⟨ok, pg', ring'⟩
  rw [hout] at h
  dsimp only at h
  rw [h]

/-- Entries that were filled before are left alone. -/
theorem fillFrom_before {left j i : Nat} (hi : i < j) :
    (ring.fillFrom ans rxBufSize left j pg).2.descDataHead i
      = ring.descDataHead i := by
  induction left generalizing j pg ring with
  | zero => rfl
  | succ left ih =>
      have hother : ((ring.setDmaDesc j).mapRxBuffer ans rxBufSize pg
          j).2.2.descDataHead i = ring.descDataHead i := by
        rw [mapRxBuffer_other (Nat.ne_of_lt hi)]
        exact Function.update_of_ne (Nat.ne_of_lt hi) _ _
      rw [RxRing.fillFrom]
      rcases hout : (ring.setDmaDesc j).mapRxBuffer ans rxBufSize pg j with
        ⟨ok, pg', ring'⟩
      rw [hout] at hother
      cases ok with
      | false => exact hother
      | true => exact (ih (Nat.lt_succ_of_lt hi)).trans hother

/-- The first entry of a ring gets its data buffer from the leftover, if
there is one. -/
theorem fillFrom_leftover {page : Nat}
    (hpage : (ring.rxPa .buf).pages = some page) (left : Nat)
    (hok : ((ring.setDmaDesc 0).mapRxBuffer ans rxBufSize pg 0).1 = true) :
    (ring.fillFrom ans rxBufSize (left + 1) 0 pg).2.rxOf 0 .buf
      = (setBufferData pg (ring.rxOf 0 .buf) (ring.rxPa .buf)
          rxBufSize).2.1 := by
  have hsame : (ring.setDmaDesc 0).rxPa = ring.rxPa := rfl
  rw [fillFrom_succ hok, RxRing.rxOf, fillFrom_before Nat.zero_lt_one]
  refine (mapRxBuffer_leftover (by rw [hsame, hpage]) hok).trans ?_
  rw [setDmaDesc_rx, hsame]

/-- What `mac_map_rx_buffer` leaves of where the descriptor is. -/
theorem mapRxBuffer_dmaDesc {i : Nat} (i' : Nat) :
    ((ring.mapRxBuffer ans rxBufSize pg i).2.2.descDataHead i').dmaDesc
        = (ring.descDataHead i').dmaDesc
      ∧ ((ring.mapRxBuffer ans rxBufSize pg i).2.2.descDataHead
          i').dmaDescAddr = (ring.descDataHead i').dmaDescAddr := by
  by_cases hi : i' = i
  · obtain ⟨rxPa, rx, heq, -, -⟩ :=
      mapRxBuffer_frame ans rxBufSize pg ring i
    rw [heq, hi, RxRing.withBuffers]
    dsimp only
    rw [Function.update_self]
    exact ⟨rfl, rfl⟩
  · rw [mapRxBuffer_other hi]
    exact ⟨rfl, rfl⟩

/-- Every entry that is filled knows its descriptor. -/
theorem fillFrom_dmaDesc {left j : Nat}
    (h : RxRing.Fills ans rxBufSize left j pg ring) {i : Nat} (hlo : j ≤ i)
    (hhi : i < j + left) :
    ((ring.fillFrom ans rxBufSize left j pg).2.descDataHead i).dmaDesc
      = some i := by
  induction left generalizing j pg ring with
  | zero => omega
  | succ left ih =>
      obtain ⟨hok, hrest⟩ := h
      rw [fillFrom_succ hok]
      by_cases hi : i = j
      · subst hi
        rw [fillFrom_before (Nat.lt_succ_self i), (mapRxBuffer_dmaDesc i).1,
          RxRing.setDmaDesc]
        dsimp only
        rw [Function.update_self]
      · exact ih hrest (by omega) (by omega)

/-- Filling a ring is about its pages and its entries. -/
theorem fillFrom_frame {left j : Nat} :
    ∃ rxPa data, (ring.fillFrom ans rxBufSize left j pg).2
      = { ring with rxPa := rxPa, descDataHead := data } := by
  induction left generalizing j pg ring with
  | zero => exact ⟨ring.rxPa, ring.descDataHead, rfl⟩
  | succ left ih =>
      obtain ⟨rxPa, rx, hmap, -, -⟩ :=
        mapRxBuffer_frame ans rxBufSize pg (ring.setDmaDesc j) j
      rw [RxRing.fillFrom]
      rcases hout : (ring.setDmaDesc j).mapRxBuffer ans rxBufSize pg j with
        ⟨ok, pg', ring'⟩
      rw [hout] at hmap
      dsimp only at hmap
      subst hmap
      cases ok with
      | false => exact ⟨_, _, rfl⟩
      | true =>
          obtain ⟨rxPa', data', hrest⟩ := @ih pg'
            ((ring.setDmaDesc j).withBuffers j rxPa rx) (j + 1)
          exact ⟨rxPa', data', hrest⟩

/-- A ring can be armed when every entry knows its descriptor. -/
theorem armFrom_alive {coal : Coalesce} {left i : Nat}
    (h : ∀ i', i ≤ i' → i' < i + left →
      (ring.descDataHead i').dmaDesc = some i') :
    (ring.armFrom coal left i).1 = true := by
  induction left generalizing i ring with
  | zero => rfl
  | succ left ih =>
      have hi := h i (Nat.le_refl i) (by omega)
      rw [RxRing.armFrom]
      cases hreset : ring.rxDescReset coal i (BitVec.ofNat 32 i) with
      | none =>
          rw [RxRing.rxDescReset] at hreset
          dsimp only at hreset
          rw [hi] at hreset
          exact absurd hreset (by simp)
      | some ring' =>
          obtain ⟨-, hdata⟩ := rxDescReset_buffers hreset
          refine ih fun i' hlo hhi => ?_
          rw [hdata]
          exact h i' (by omega) (by omega)

/-- The pages and the entries of a ring that was initialised are those it
was filled with. -/
theorem descInit_buffers (coal : Coalesce) :
    (ring.descInit ans coal rxBufSize pg).2.1
        = (ring.fillFrom ans rxBufSize ring.dmaDescCount 0 pg).1
      ∧ (ring.descInit ans coal rxBufSize pg).2.2.rxPa
        = (ring.fillFrom ans rxBufSize ring.dmaDescCount 0 pg).2.rxPa
      ∧ (ring.descInit ans coal rxBufSize pg).2.2.descDataHead
        = (ring.fillFrom ans rxBufSize ring.dmaDescCount 0
            pg).2.descDataHead := by
  rw [RxRing.descInit]
  rcases hout : ring.fillFrom ans rxBufSize ring.dmaDescCount 0 pg with
    ⟨pg', ring'⟩
  dsimp only
  obtain ⟨hpa, hdata⟩ := @armFrom_buffers
    { ring' with cur := 0, dirty := 0 } coal ring'.dmaDescCount 0
  rcases harmed : RxRing.armFrom coal ring'.dmaDescCount 0
    { ring' with cur := 0, dirty := 0 } with ⟨ok, ring''⟩
  rw [harmed] at hpa hdata
  cases ok with
  | false => exact ⟨rfl, hpa, hdata⟩
  | true => exact ⟨rfl, hpa, hdata⟩

theorem rxDescReset_dmaDescCount {coal : Coalesce} {i : Nat}
    {index : U32} {ring' : RxRing}
    (h : ring.rxDescReset coal i index = some ring') :
    ring'.dmaDescCount = ring.dmaDescCount := by
  rw [RxRing.rxDescReset] at h
  split at h
  · exact absurd h (by simp)
  · obtain rfl := Option.some.inj h
    rfl

theorem armFrom_dmaDescCount {coal : Coalesce} {left i : Nat} :
    (ring.armFrom coal left i).2.dmaDescCount = ring.dmaDescCount := by
  induction left generalizing i ring with
  | zero => rfl
  | succ left ih =>
      rw [RxRing.armFrom]
      cases hreset : ring.rxDescReset coal i (BitVec.ofNat 32 i) with
      | none => rfl
      | some ring' => exact ih.trans (rxDescReset_dmaDescCount hreset)

theorem descInit_dmaDescCount (coal : Coalesce) :
    (ring.descInit ans coal rxBufSize pg).2.2.dmaDescCount
      = ring.dmaDescCount := by
  obtain ⟨rxPa, data, hframe⟩ :=
    @fillFrom_frame ans rxBufSize pg ring ring.dmaDescCount 0
  rw [RxRing.descInit]
  rcases hout : ring.fillFrom ans rxBufSize ring.dmaDescCount 0 pg with
    ⟨pg', ring'⟩
  rw [hout] at hframe
  dsimp only at hframe ⊢
  have hcount : ring'.dmaDescCount = ring.dmaDescCount := by rw [hframe]
  have harm := @armFrom_dmaDescCount { ring' with cur := 0, dirty := 0 }
    coal ring'.dmaDescCount 0
  rcases harmed : RxRing.armFrom coal ring'.dmaDescCount 0
    { ring' with cur := 0, dirty := 0 } with ⟨ok, ring''⟩
  rw [harmed] at harm
  cases ok with
  | false => exact harm.trans hcount
  | true => exact harm.trans hcount

/-- The kernel gets through the initialisation of a ring it can fill. -/
theorem descInit_alive (coal : Coalesce)
    (h : RxRing.Fills ans rxBufSize ring.dmaDescCount 0 pg ring) :
    (ring.descInit ans coal rxBufSize pg).1 = true := by
  have hdesc : ∀ i, i < 0 + ring.dmaDescCount → ((ring.fillFrom ans
      rxBufSize ring.dmaDescCount 0 pg).2.descDataHead i).dmaDesc
        = some i := fun i hi => fillFrom_dmaDesc h (Nat.zero_le i) hi
  obtain ⟨rxPa, data, hframe⟩ :=
    @fillFrom_frame ans rxBufSize pg ring ring.dmaDescCount 0
  rw [RxRing.descInit]
  rcases hout : ring.fillFrom ans rxBufSize ring.dmaDescCount 0 pg with
    ⟨pg', ring'⟩
  rw [hout] at hdesc hframe
  dsimp only at hdesc hframe ⊢
  have hcount : ring'.dmaDescCount = ring.dmaDescCount := by rw [hframe]
  have halive : (RxRing.armFrom coal ring'.dmaDescCount 0
      { ring' with cur := 0, dirty := 0 }).1 = true :=
    armFrom_alive fun i _ hi => hdesc i (by rwa [hcount] at hi)
  rcases harmed : RxRing.armFrom coal ring'.dmaDescCount 0
    { ring' with cur := 0, dirty := 0 } with ⟨ok, ring''⟩
  rw [harmed] at halive
  dsimp only at halive
  subst halive
  rfl

/-- `mac_rx_desc_init` of a ring without buffers keeps the invariant. -/
theorem Sound.descInit (hQ : SlicePool.Grows slotKey (partLen rxBufSize) Q)
    (hsize : SizeOk rxBufSize)
    (h : Sound Q pg (Function.update rings r ring)) (ans : Answers)
    (coal : Coalesce)
    (hclear : ∀ i, i < ring.dmaDescCount → ∀ part, ring.rxOf i part = .zero) :
    Sound Q (ring.descInit ans coal rxBufSize pg).2.1
      (Function.update rings r
        (ring.descInit ans coal rxBufSize pg).2.2) := by
  have hfill : Sound Q (ring.fillFrom ans rxBufSize ring.dmaDescCount 0 pg).1
      (Function.update rings r
        (ring.fillFrom ans rxBufSize ring.dmaDescCount 0 pg).2) :=
    h.fillFrom hQ hsize ans fun i _ hi => hclear i (by omega)
  rw [RxRing.descInit]
  rcases hout : ring.fillFrom ans rxBufSize ring.dmaDescCount 0 pg with ⟨pg', ring'⟩
  rw [hout] at hfill
  have hzero : Sound Q pg' (Function.update rings r
      { ring' with cur := 0, dirty := 0 }) :=
    hfill.congr rfl fun _ => rfl
  obtain ⟨hpa, hdata⟩ := @armFrom_buffers
    { ring' with cur := 0, dirty := 0 } coal ring'.dmaDescCount 0
  have harm := hzero.congr hpa fun i => by rw [hdata]
  dsimp only
  rcases harmed : RxRing.armFrom coal ring'.dmaDescCount 0
    { ring' with cur := 0, dirty := 0 } with ⟨ok, ring''⟩
  rw [harmed] at harm
  cases ok with
  | false => exact harm
  | true => exact harm.congr rfl fun _ => rfl

/-- The entries `mac_free_rx_data` has been through have no buffers. -/
theorem freeFrom_rxOf {left j i : Nat} :
    (ring.freeFrom left j pg).2.rxOf i
      = if j ≤ i ∧ i < j + left then fun _ => .zero else ring.rxOf i := by
  induction left generalizing j pg ring with
  | zero => rw [if_neg (by omega)]; rfl
  | succ left ih =>
      rw [RxRing.freeFrom]
      dsimp only
      rw [ih, unmapDescData_rxOf]
      by_cases hi : i = j
      · rw [if_neg (by omega), if_pos hi, if_pos (by omega)]
      · rw [if_neg hi]
        by_cases hin : j + 1 ≤ i ∧ i < j + 1 + left
        · rw [if_pos hin, if_pos (by omega)]
        · rw [if_neg hin, if_neg (by omega)]

/-- A ring keeps its leftovers when its entries are freed. -/
theorem freeFrom_rxPa {left j : Nat} :
    (ring.freeFrom left j pg).2.rxPa = ring.rxPa := by
  induction left generalizing j pg ring with
  | zero => rfl
  | succ left ih =>
      rw [RxRing.freeFrom]
      dsimp only
      rw [ih]
      rfl

theorem freeFrom_dmaDescCount {left j : Nat} :
    (ring.freeFrom left j pg).2.dmaDescCount = ring.dmaDescCount := by
  induction left generalizing j pg ring with
  | zero => rfl
  | succ left ih =>
      rw [RxRing.freeFrom]
      dsimp only
      rw [ih]
      rfl

/-- Freeing the entries of a ring keeps the invariant. -/
theorem Sound.freeFrom (hQ : SlicePool.Steady slotKey (partLen rxBufSize) Q)
    {left j : Nat} (h : Sound Q pg (Function.update rings r ring)) :
    Sound Q (ring.freeFrom left j pg).1
      (Function.update rings r (ring.freeFrom left j pg).2) := by
  induction left generalizing j pg ring with
  | zero => exact h
  | succ left ih =>
      rw [RxRing.freeFrom]
      exact ih (h.unmapDescData
        (hQ.release _ _ (hQ.release _ _ h.also)))

/-- Refilling keeps the invariant. -/
theorem Sound.refillLoop (hQ : SlicePool.Steady slotKey (partLen rxBufSize) Q)
    (hsize : SizeOk rxBufSize) {left : Nat}
    (h : Sound Q pg (Function.update rings r ring)) (ans : Answers)
    (coal : Coalesce) :
    Sound Q (ring.refillLoop ans coal rxBufSize left pg).2.1
      (Function.update rings r
        (ring.refillLoop ans coal rxBufSize left pg).2.2) := by
  induction left generalizing pg ring with
  | zero => exact h
  | succ left ih =>
      rw [RxRing.refillLoop]
      have hfree : Sound Q (ring.unmapDescData pg (ring.entry ring.dirty)).1
          (Function.update rings r
            (ring.unmapDescData pg (ring.entry ring.dirty)).2) :=
        h.unmapDescData (hQ.release _ _ (hQ.release _ _ h.also))
      have hclear : ∀ part, (ring.unmapDescData pg (ring.entry ring.dirty)).2.rxOf
          (ring.entry ring.dirty) part = .zero := by
        intro part
        rw [unmapDescData_rxOf, if_pos rfl]
      have hmap := hfree.mapRxBuffer hQ.toGrows hsize ans hclear
      dsimp only
      rcases hout : (ring.unmapDescData pg (ring.entry ring.dirty)).2.mapRxBuffer
          ans rxBufSize (ring.unmapDescData pg (ring.entry ring.dirty)).1
          (ring.entry ring.dirty) with ⟨ok, pg', ring'⟩
      rw [hout] at hmap
      cases ok with
      | false => exact hmap
      | true =>
          dsimp only
          cases hreset : ring'.rxDescReset coal (ring.entry ring.dirty)
              ring'.dirty with
          | none => exact hmap
          | some ring'' =>
              obtain ⟨hpa, hdata⟩ := rxDescReset_buffers hreset
              exact ih (hmap.congr hpa fun i => by rw [hdata])

/-- `mac_rx_refresh` keeps the invariant. -/
theorem Sound.refresh (hQ : SlicePool.Steady slotKey (partLen rxBufSize) Q)
    (hsize : SizeOk rxBufSize)
    (h : Sound Q pg (Function.update rings r ring)) (ans : Answers)
    (coal : Coalesce) :
    Sound Q (ring.refresh ans coal rxBufSize pg).2.1
      (Function.update rings r
        (ring.refresh ans coal rxBufSize pg).2.2) := by
  have hloop : Sound Q
      (ring.refillLoop ans coal rxBufSize
        (ring.cur - ring.dirty).toNat pg).2.1
      (Function.update rings r (ring.refillLoop ans coal rxBufSize
        (ring.cur - ring.dirty).toNat pg).2.2) :=
    h.refillLoop hQ hsize ans coal
  rw [RxRing.refresh]
  rcases hout : ring.refillLoop ans coal rxBufSize
    (ring.cur - ring.dirty).toNat pg with ⟨ok, pg', ring'⟩
  rw [hout] at hloop
  cases ok with
  | false => exact hloop
  | true => exact hloop.congr rfl fun _ => rfl

/-- Reading an entry is not about buffers. -/
theorem devRead_buffers :
    ring.devRead.2.rxPa = ring.rxPa
      ∧ ring.devRead.2.descDataHead = ring.descDataHead := by
  rw [RxRing.devRead]
  split
  · exact ⟨rfl, rfl⟩
  · split
    · exact ⟨rfl, rfl⟩
    · exact ⟨rfl, rfl⟩

theorem Sound.devRead (h : Sound Q pg (Function.update rings r ring)) :
    Sound Q pg (Function.update rings r ring.devRead.2) :=
  h.congr devRead_buffers.1 fun i => by rw [devRead_buffers.2]

/-- Reading a ring keeps the invariant. -/
theorem Sound.pollRead (hQ : SlicePool.Steady slotKey (partLen rxBufSize) Q)
    (hsize : SizeOk rxBufSize)
    (h : Sound Q pg (Function.update rings r ring)) (ans : Answers)
    (coal : Coalesce) :
    Sound Q (ring.pollRead ans coal rxBufSize pg).2.1
      (Function.update rings r
        (ring.pollRead ans coal rxBufSize pg).2.2) := by
  rw [RxRing.pollRead]
  split
  · have hrefresh := h.refresh hQ hsize ans coal
    rcases hout : ring.refresh ans coal rxBufSize pg with ⟨ok, pg', ring'⟩
    rw [hout] at hrefresh
    cases ok with
    | false => exact hrefresh
    | true => exact hrefresh.devRead
  · exact h.devRead

/-- A completion is not about buffers. -/
theorem Sound.complete (h : Sound Q pg (Function.update rings r ring))
    (back : DmaDesc) :
    Sound Q pg (Function.update rings r (ring.complete back)) := by
  rw [RxRing.complete]
  dsimp only
  split
  · exact h
  · exact h.congr rfl fun _ => rfl

end Sound

end BxRnic.Mac
