/-
A receive ring in turn.

Descriptors are counted in the order the NIC completes them: the ring is
at `d` where `d` of them have been given back, at `c` where `c` have been
read, and the NIC at `completed`. Position `j` of that stream is at entry
`j % dma_desc_count`, and the positions from `d` on for one lap are the
entries, each once (`InTurn`). `cur` and `dirty` are the positions `c` and
`d` cut to 32 bits.

The slices of the entries were cut in that order, too (`InOrder`). So the
entry that is refilled next has the first slice of its page, and the page
of no other entry is unmapped with it.
-/
import BxRnic.Lib.Counter
import BxRnic.Mac.Proofs.Slices

namespace BxRnic.Mac

theorem rxDescCnt_eq : rxDescCnt = 2 ^ 12 := by
  rw [rxDescCnt]
  rfl

-- ================================================================ the ring

/-- Of two positions of a lap, the later has the later slice of a page. -/
def RxRing.InOrder (ring : RxRing) (d : Nat) : Prop :=
  ∀ part j j' c c', d ≤ j → j < j' → j' < d + rxDescCnt →
    (ring.rxOf (j % rxDescCnt) part).slice = some c →
    (ring.rxOf (j' % rxDescCnt) part).slice = some c' →
    c.page = c'.page → c.off < c'.off

/-- An entry knows its descriptor. -/
def RxRing.Known (ring : RxRing) (i : Nat) : Prop :=
  (ring.descDataHead i).dmaDesc = some i
    ∧ (ring.descDataHead i).dmaDescAddr
      = ring.dmaDescHeadAddr + BitVec.ofNat 64 (16 * i)

/-- The descriptor of an entry has the addresses of its buffers. -/
def RxRing.Armed (ring : RxRing) (i : Nat) : Prop :=
  ∃ inte, ring.dmaDescs i
    = armedDesc (ring.rxOf i .hdr) (ring.rxOf i .buf) inte

/-- Both parts of an entry have slices. -/
def RxRing.Filled (ring : RxRing) (i : Nat) : Prop :=
  ∀ part, ∃ c, (ring.rxOf i part).slice = some c

/-- A ring of which `d` descriptors have been given back and `c` have been
read. -/
structure RxRing.InTurn (ring : RxRing) (d c : Nat) : Prop where
  sized : ring.dmaDescCount = rxDescCnt
  dirty : ring.dirty = BitVec.ofNat 32 d
  cur : ring.cur = BitVec.ofNat 32 c
  returned_le : d ≤ c
  consumed_le : c ≤ ring.completed
  room : ring.completed ≤ d + rxDescCnt
  head : ring.head = ring.completed % rxDescCnt
  returned : ring.returned = (List.range d).map some
  consumed : ring.consumed = (List.range c).map some
  /-- The NIC owns what it has not completed. -/
  own : ∀ j, d ≤ j → j < d + rxDescCnt →
    (ring.dmaDescs (j % rxDescCnt)).own = decide (ring.completed ≤ j)
  stamp : ∀ j, d ≤ j → j < ring.completed →
    ring.stamp (j % rxDescCnt) = some j

/-- The entries of such a ring. -/
structure RxRing.Stocked (ring : RxRing) (d c : Nat) : Prop where
  known : ∀ i, i < rxDescCnt → ring.Known i
  /-- What has not been read has its buffers. -/
  filled : ∀ j, c ≤ j → j < d + rxDescCnt → ring.Filled (j % rxDescCnt)
  armed : ∀ j, ring.completed ≤ j → j < d + rxDescCnt →
    ring.Armed (j % rxDescCnt)
  inOrder : ring.InOrder d
  /-- There is nothing behind the table. -/
  beyond : ∀ i, rxDescCnt ≤ i → ring.Clear i

section Turn

variable {ring : RxRing} {d c : Nat}

theorem rx_entry_ofNat (h : ring.dmaDescCount = rxDescCnt) (k : Nat) :
    ring.entry (BitVec.ofNat 32 k) = k % rxDescCnt := by
  rw [RxRing.entry, h, rxDescCnt_eq]
  exact Counter.and_mask (by decide)

theorem rxDescCnt_pos : 0 < rxDescCnt := by
  rw [rxDescCnt_eq]
  decide

theorem armedDesc_own (hdr buf : BufferData) (inte : U32) :
    (armedDesc hdr buf inte).own = true := by
  have hget : Field.get (armedDesc hdr buf inte).desc3 31 1
      = Field.get 1 0 1 := Field.get_set (by decide)
  have hone : Field.get (1 : U32) 0 1 = 1 := by decide
  exact decide_eq_true (hget.trans hone)

/-- How much waits for refill. -/
theorem RxRing.InTurn.dirty_count (h : ring.InTurn d c) :
    (ring.cur - ring.dirty).toNat = c - d
      ∧ c - d ≤ rxDescCnt := by
  have hle : c - d ≤ rxDescCnt := by
    have := h.consumed_le
    have := h.room
    omega
  refine ⟨?_, hle⟩
  rw [h.cur, h.dirty]
  refine Counter.sub_toNat h.returned_le ?_
  rw [rxDescCnt_eq] at hle
  omega

-- ============================================================== completion

/-- What the NIC writes back. -/
def DmaDesc.writtenBack (back : DmaDesc) : DmaDesc :=
  { back with desc3 := Field.set back.desc3 31 1 0 }

theorem writtenBack_own (back : DmaDesc) : back.writtenBack.own = false := by
  have hget : Field.get back.writtenBack.desc3 31 1 = Field.get 0 0 1 :=
    Field.get_set (by decide)
  have hne : ¬ Field.get back.writtenBack.desc3 31 1 = 1 := by
    rw [hget]
    decide
  exact decide_eq_false hne

/-- The NIC completes the next position, or nothing: a ring in which it
has completed a lap has no descriptor of its own. -/
theorem RxRing.InTurn.complete_cases (h : ring.InTurn d c)
    (back : DmaDesc) :
    ring.complete back = ring
      ∨ ring.completed < d + rxDescCnt ∧ ∃ stalled,
        ring.complete back
          = { ring with
              dmaDescs := Function.update ring.dmaDescs
                (ring.completed % rxDescCnt) back.writtenBack
              head := (ring.completed + 1) % rxDescCnt
              stalled := stalled
              completed := ring.completed + 1
              stamp := Function.update ring.stamp
                (ring.completed % rxDescCnt) (some ring.completed) } := by
  rw [RxRing.complete]
  dsimp only
  split
  · exact Or.inl rfl
  · next hgo =>
    refine Or.inr ⟨?_, decide ((ring.dmaDescHeadAddr
      + BitVec.ofNat 64 (16 * (ring.completed % rxDescCnt))).setWidth 32
        = ring.rdtrLo), ?_⟩
    · by_contra hfull
      have hlap : ring.completed = d + rxDescCnt :=
        Nat.le_antisymm h.room (Nat.le_of_not_lt hfull)
      have hown := h.own d le_rfl (Nat.lt_add_of_pos_right rxDescCnt_pos)
      rw [decide_eq_false (by have := rxDescCnt_pos; omega)] at hown
      refine hgo (Or.inr ?_)
      rw [h.head, hlap, Nat.add_mod_right]
      exact hown
    · rw [h.head, h.sized, Nat.mod_add_mod]
      rfl

theorem RxRing.InTurn.complete (h : ring.InTurn d c) (back : DmaDesc) :
    (ring.complete back).InTurn d c := by
  rcases h.complete_cases back with hsame | ⟨hroom, stalled, heq⟩
  · rw [hsame]
    exact h
  · rw [heq]
    have hle := Nat.le_trans h.returned_le h.consumed_le
    have hother : ∀ j, d ≤ j → j < d + rxDescCnt → j ≠ ring.completed →
        j % rxDescCnt ≠ ring.completed % rxDescCnt :=
      fun j hlo hhi hne hmod =>
        hne (Counter.mod_inj hlo hhi hle hroom hmod)
    exact
      { sized := h.sized
        dirty := h.dirty
        cur := h.cur
        returned_le := h.returned_le
        consumed_le := Nat.le_succ_of_le h.consumed_le
        room := hroom
        head := rfl
        returned := h.returned
        consumed := h.consumed
        own := fun j hlo hhi => by
          dsimp only
          by_cases hj : j = ring.completed
          · rw [hj, Function.update_self, writtenBack_own]
            exact (decide_eq_false (Nat.not_succ_le_self _)).symm
          · rw [Function.update_of_ne (hother j hlo hhi hj),
              h.own j hlo hhi]
            exact decide_eq_decide.2 (by omega)
        stamp := fun j hlo hhi => by
          dsimp only at hhi ⊢
          by_cases hj : j = ring.completed
          · rw [hj, Function.update_self]
          · rw [Function.update_of_ne (hother j hlo (by omega) hj)]
            exact h.stamp j hlo (by omega) }

theorem RxRing.Stocked.complete (hs : ring.Stocked d c)
    (h : ring.InTurn d c) (back : DmaDesc) :
    (ring.complete back).Stocked d c := by
  rcases h.complete_cases back with hsame | ⟨hroom, stalled, heq⟩
  · rw [hsame]
    exact hs
  · rw [heq]
    have hle := Nat.le_trans h.returned_le h.consumed_le
    refine ⟨hs.known, hs.filled, fun j hlo hhi => ?_, hs.inOrder, hs.beyond⟩
    change ring.completed + 1 ≤ j at hlo
    obtain ⟨inte, harmed⟩ := hs.armed j (by omega) hhi
    have hne : j % rxDescCnt ≠ ring.completed % rxDescCnt := fun hmod => by
      have := Counter.mod_inj (by omega) hhi hle hroom hmod
      omega
    refine ⟨inte, ?_⟩
    dsimp only
    rw [Function.update_of_ne hne]
    exact harmed

-- ================================================================= reading

/-- What is read is the next position, unless the ring is full of what
waits for refill. -/
theorem RxRing.InTurn.devRead (h : ring.InTurn d c)
    (hroom : c < d + rxDescCnt)
    (hknown : ring.Known (c % rxDescCnt)) :
    ring.devRead.1 = true
      ∧ (ring.devRead.2 = ring
        ∨ c < ring.completed
          ∧ ring.devRead.2
            = { ring with
                cur := BitVec.ofNat 32 (c + 1)
                consumed := (List.range (c + 1)).map some }) := by
  unfold RxRing.devRead
  rw [h.cur, rx_entry_ofNat h.sized, hknown.1]
  dsimp only
  rw [h.own c h.returned_le hroom]
  split
  · exact ⟨rfl, Or.inl rfl⟩
  · next hless =>
    have hlt : c < ring.completed := by
      by_contra hge
      exact hless (decide_eq_true (Nat.le_of_not_lt hge))
    refine ⟨rfl, Or.inr ⟨hlt, ?_⟩⟩
    rw [h.stamp c h.returned_le hlt, h.consumed, Counter.add_one,
      List.range_succ, List.map_append]
    rfl

/-- A reading keeps the ring in turn. -/
theorem RxRing.InTurn.read (h : ring.InTurn d c) (hs : ring.Stocked d c)
    (hroom : c < d + rxDescCnt) :
    ring.devRead.1 = true
      ∧ ∃ c', ring.devRead.2.InTurn d c' ∧ ring.devRead.2.Stocked d c' := by
  obtain ⟨halive, hcases⟩ :=
    h.devRead hroom (hs.known _ (Nat.mod_lt c rxDescCnt_pos))
  refine ⟨halive, ?_⟩
  rcases hcases with hsame | ⟨hlt, heq⟩
  · rw [hsame]
    exact ⟨c, h, hs⟩
  · rw [heq]
    exact ⟨c + 1,
      { sized := h.sized
        dirty := h.dirty
        cur := rfl
        returned_le := Nat.le_succ_of_le h.returned_le
        consumed_le := hlt
        room := h.room
        head := h.head
        returned := h.returned
        consumed := rfl
        own := h.own
        stamp := h.stamp },
      { known := hs.known
        filled := fun j hlo => hs.filled j (by omega)
        armed := hs.armed
        inOrder := hs.inOrder
        beyond := hs.beyond }⟩

-- =============================================================== unmapping

section Unmap

variable {pg : Pages}

/-- The other positions of a lap are at other entries. -/
theorem lap_ne {j : Nat} (hlo : d < j) (hhi : j < d + rxDescCnt) :
    j % rxDescCnt ≠ d % rxDescCnt := fun hmod => by
  have := Counter.mod_inj (Nat.le_of_lt hlo) hhi le_rfl
    (Nat.lt_add_of_pos_right rxDescCnt_pos) hmod
  omega

/-- Every entry is at a position of a lap. -/
theorem lap_surj {i : Nat} (d : Nat) (hi : i < rxDescCnt) :
    ∃ j, d ≤ j ∧ j < d + rxDescCnt ∧ j % rxDescCnt = i := by
  rw [rxDescCnt_eq] at hi ⊢
  refine ⟨d + (i + 2 ^ 12 - d % 2 ^ 12) % 2 ^ 12, by omega, by omega, ?_⟩
  omega

theorem RxRing.InTurn.unmap (h : ring.InTurn d c) (i : Nat) :
    (ring.unmapDescData pg i).2.InTurn d c :=
  ⟨h.sized, h.dirty, h.cur, h.returned_le, h.consumed_le, h.room, h.head,
    h.returned, h.consumed, h.own, h.stamp⟩

theorem unmapDescData_known (i i' : Nat) :
    (ring.unmapDescData pg i).2.Known i' ↔ ring.Known i' := by
  unfold RxRing.Known RxRing.unmapDescData
  dsimp only
  by_cases hi : i' = i
  · rw [hi, Function.update_self]
  · rw [Function.update_of_ne hi]

/-- The first entry of those that wait for refill loses its buffers. -/
theorem RxRing.Stocked.unmap (hs : ring.Stocked d c) (h : ring.InTurn d c)
    (hlt : d < c) :
    (ring.unmapDescData pg (d % rxDescCnt)).2.Stocked d c := by
  have hrx : ∀ j, d < j → j < d + rxDescCnt →
      (ring.unmapDescData pg (d % rxDescCnt)).2.rxOf (j % rxDescCnt)
        = ring.rxOf (j % rxDescCnt) := fun j hlo hhi => by
    rw [unmapDescData_rxOf, if_neg (lap_ne hlo hhi)]
  have hle := h.consumed_le
  refine ⟨fun i hi => (unmapDescData_known _ i).2 (hs.known i hi),
    fun j hlo hhi => ?_, fun j hlo hhi => ?_, ?_, fun i hi part => ?_⟩
  · unfold RxRing.Filled
    rw [hrx j (by omega) hhi]
    exact hs.filled j hlo hhi
  · change ring.completed ≤ j at hlo
    unfold RxRing.Armed
    rw [hrx j (by omega) hhi]
    exact hs.armed j hlo hhi
  · intro part j j' c₁ c₂ hlo hjj hhi h₁ h₂ hpage
    rw [hrx j' (by omega) hhi] at h₂
    rcases Nat.eq_or_lt_of_le hlo with rfl | hlo'
    · rw [unmapDescData_rxOf, if_pos rfl] at h₁
      exact nomatch h₁
    · rw [hrx j hlo' (by omega)] at h₁
      exact hs.inOrder part j j' c₁ c₂ hlo hjj hhi h₁ h₂ hpage
  · show (ring.unmapDescData pg (d % rxDescCnt)).2.rxOf i part = .zero
    have hne : i ≠ d % rxDescCnt := by
      have := Nat.mod_lt d rxDescCnt_pos
      omega
    rw [unmapDescData_rxOf, if_neg hne]
    exact hs.beyond i hi part

-- ------------------------------------------------------------ the pool

/-- What is asked of the pool: slices are released in order, and a page
is of one ring and part. -/
def TurnPool (pool : SlicePool (Nat × Part) Slot) : Prop :=
  pool.Fifo ∧ pool.Homed slotKey

theorem grows_turnPool (len : Nat × Part → Nat) :
    SlicePool.Grows slotKey len TurnPool where
  addPage pool k size hkept h hk hlen :=
    ⟨(SlicePool.grows_fifo slotKey len).addPage pool k size hkept h.1 hk
        hlen,
      (SlicePool.steady_homed slotKey len).addPage pool k size hkept h.2 hk
        hlen⟩
  cut pool a s hkept h hk :=
    ⟨(SlicePool.grows_fifo slotKey len).cut pool a s hkept h.1 hk,
      (SlicePool.steady_homed slotKey len).cut pool a s hkept h.2 hk⟩

variable {rings : Nat → RxRing} {r : Nat}

theorem held_of_slice {i : Nat} {part : Part} {x : Slice × Bool} :
    (slicePool pg (Function.update rings r ring)).held (r, i, part) = some x
      → (ring.rxOf i part).slice = some x.1 := by
  rw [slicePool_held_update, if_pos rfl]
  intro hheld
  obtain ⟨c, hc, rfl⟩ := Option.map_eq_some_iff.1 hheld
  exact hc

/-- The entry that is refilled next has the first slice of its page. -/
theorem RxRing.Stocked.first_of_page (hs : ring.Stocked d c)
    (hhomed : (slicePool pg (Function.update rings r ring)).Homed slotKey)
    {part : Part} {s : Slot} {x y : Slice × Bool}
    (hx : (slicePool pg (Function.update rings r ring)).held
      (r, d % rxDescCnt, part) = some x)
    (hy : (slicePool pg (Function.update rings r ring)).held s = some y)
    (hne : s ≠ (r, d % rxDescCnt, part)) (hpage : x.1.page = y.1.page) :
    x.1.off < y.1.off := by
  obtain ⟨r', i, part'⟩ := s
  have hkey : slotKey (r, d % rxDescCnt, part) = slotKey (r', i, part') :=
    hhomed.held _ _ x.1 y.1 x.2 y.2 hx hy hpage
  obtain ⟨rfl, rfl⟩ := Prod.mk.inj hkey
  have hslice := held_of_slice hy
  by_cases hi : i < rxDescCnt
  · obtain ⟨j, hlo, hhi, rfl⟩ := lap_surj d hi
    have hj : j ≠ d := by
      rintro rfl
      exact hne rfl
    exact hs.inOrder part d j x.1 y.1 le_rfl (by omega) hhi
      (held_of_slice hx) hslice hpage
  · have hnone : ring.rxOf i part = .zero :=
      hs.beyond i (Nat.le_of_not_lt hi) part
    rw [hnone] at hslice
    exact nomatch hslice

theorem held_of_release {pool : SlicePool (Nat × Part) Slot} {s s' : Slot}
    {x : Slice × Bool} (h : (pool.release s).held s' = some x) :
    pool.held s' = some x := by
  cases hs : pool.held s with
  | none =>
    rw [SlicePool.release_of_none hs] at h
    exact h
  | some held => exact (SlicePool.release_held_cases hs h).2

/-- Its buffers are released in order. -/
theorem Sound.unmapFirst
    (h : Sound TurnPool pg (Function.update rings r ring))
    (hs : ring.Stocked d c) :
    Sound TurnPool (ring.unmapDescData pg (d % rxDescCnt)).1
      (Function.update rings r
        (ring.unmapDescData pg (d % rxDescCnt)).2) := by
  obtain ⟨hfifo, hhomed⟩ := h.also
  have hkeep : ∀ (pool : SlicePool (Nat × Part) Slot) (s : Slot),
      pool.Homed slotKey → (pool.release s).Homed slotKey :=
    (SlicePool.steady_homed slotKey (partLen 0)).release
  refine h.unmapDescData ⟨?_, hkeep _ _ (hkeep _ _ hhomed)⟩
  refine SlicePool.Fifo.release (SlicePool.Fifo.release hfifo ?_) ?_
  · intro c₁ own₁ h₁ s' c₂ own₂ hne h₂ hpage
    exact hs.first_of_page hhomed h₁ h₂ hne hpage
  · intro c₁ own₁ h₁ s' c₂ own₂ hne h₂ hpage
    exact hs.first_of_page hhomed (held_of_release h₁) (held_of_release h₂)
      hne hpage

end Unmap

-- ================================================================= filling

section Fill

variable {ans : Answers} {rxBufSize : Nat} {rings : Nat → RxRing}
  {r i : Nat} {pg pg' : Pages} {rx : Part → BufferData}
  {rxPa : Part → PageAlloc} {Q : SlicePool (Nat × Part) Slot → Prop}

/-- A slice of an entry has been cut. -/
theorem Sound.cut_of_slice (h : Sound Q pg (Function.update rings r ring))
    {part : Part} {c : Slice} (hc : (ring.rxOf i part).slice = some c) :
    c ∈ pg.cuts := by
  have hheld : (slicePool pg (Function.update rings r ring)).held
      (r, i, part) = some (c, (ring.rxOf i part).paUnmap.pages.isSome) := by
    rw [slicePool_held_update, if_pos rfl]
    show (ring.rxOf i part).slice.map _ = _
    rw [hc]
    rfl
  exact h.kept.held_cut _ c _ hheld

/-- The slices of a part that was just filled come after all others. -/
theorem CutBoth.after {old cuts : List Slice} (h : CutBoth old cuts rx)
    (hafter : cuts.Pairwise Slice.After) (hlen : ∀ c ∈ cuts, 0 < c.len)
    {part : Part} {c₁ c₂ : Slice} (h₁ : c₁ ∈ old)
    (h₂ : (rx part).slice = some c₂) (hpage : c₁.page = c₂.page) :
    c₁.off < c₂.off := by
  obtain ⟨chdr, cbuf, hhdr, hbuf, rfl⟩ := h
  obtain ⟨hnew, hrest⟩ := List.pairwise_cons.1 hafter
  have hpos := hlen c₁
    (List.mem_cons_of_mem _ (List.mem_cons_of_mem _ h₁))
  have hle : c₁.off + c₁.len ≤ c₂.off := by
    cases part with
    | hdr =>
      obtain rfl := Option.some.inj (hhdr.symm.trans h₂)
      exact (List.pairwise_cons.1 hrest).1 c₁ h₁ hpage.symm
    | buf =>
      obtain rfl := Option.some.inj (hbuf.symm.trans h₂)
      exact hnew c₁ (List.mem_cons_of_mem _ h₁) hpage.symm
  omega

theorem CutBoth.slices {old cuts : List Slice} (h : CutBoth old cuts rx)
    (part : Part) : ∃ c, (rx part).slice = some c := by
  obtain ⟨chdr, cbuf, hhdr, hbuf, -⟩ := h
  cases part with
  | hdr => exact ⟨chdr, hhdr⟩
  | buf => exact ⟨cbuf, hbuf⟩

theorem withBuffers_rxOf_other {i' : Nat} (hne : i' ≠ i) :
    (ring.withBuffers i rxPa rx).rxOf i' = ring.rxOf i' := by
  unfold RxRing.rxOf RxRing.withBuffers
  dsimp only
  rw [Function.update_of_ne hne]

theorem withBuffers_known (i' : Nat) :
    (ring.withBuffers i rxPa rx).Known i' ↔ ring.Known i' := by
  unfold RxRing.Known RxRing.withBuffers
  dsimp only
  by_cases hi : i' = i
  · rw [hi, Function.update_self]
  · rw [Function.update_of_ne hi]

/-- A ring after its first entry has been filled, armed and given back. -/
def RxRing.givenBack (ring : RxRing) (d : Nat) (inte : U32) : RxRing :=
  { ring with
    dmaDescs := Function.update ring.dmaDescs (d % rxDescCnt)
      (armedDesc (ring.rxOf (d % rxDescCnt) .hdr)
        (ring.rxOf (d % rxDescCnt) .buf) inte)
    stamp := Function.update ring.stamp (d % rxDescCnt) none
    returned := (List.range (d + 1)).map some
    dirty := BitVec.ofNat 32 (d + 1) }

/-- `mac_rx_desc_reset` of the entry that is refilled. -/
theorem RxRing.InTurn.reset (h : ring.InTurn d c) (hlt : d < c)
    (hknown : ring.Known (d % rxDescCnt)) (coal : Coalesce) (index : U32) :
    ∃ ring', ring.rxDescReset coal (d % rxDescCnt) index = some ring'
      ∧ { ring' with dirty := ring'.dirty + 1 }
        = ring.givenBack d (coal.inte index) := by
  unfold RxRing.rxDescReset
  dsimp only
  rw [hknown.1]
  refine ⟨_, rfl, ?_⟩
  have hstamp := h.stamp d le_rfl (Nat.lt_of_lt_of_le hlt h.consumed_le)
  unfold RxRing.givenBack
  dsimp only
  rw [h.returned, hstamp, h.dirty, Counter.add_one, List.range_succ,
    List.map_append]
  rfl

/-- Position `d` is at the end of the next lap. -/
theorem RxRing.InTurn.givenBack (h : ring.InTurn d c) (hlt : d < c)
    (inte : U32) : (ring.givenBack d inte).InTurn (d + 1) c where
  sized := h.sized
  dirty := rfl
  cur := h.cur
  returned_le := hlt
  consumed_le := h.consumed_le
  room := by
    have := h.room
    show ring.completed ≤ d + 1 + rxDescCnt
    omega
  head := h.head
  returned := rfl
  consumed := h.consumed
  own j hlo hhi := by
    show (Function.update ring.dmaDescs (d % rxDescCnt) _
      (j % rxDescCnt)).own = decide (ring.completed ≤ j)
    by_cases hj : j = d + rxDescCnt
    · rw [hj, Nat.add_mod_right, Function.update_self, armedDesc_own]
      exact (decide_eq_true h.room).symm
    · rw [Function.update_of_ne (lap_ne (by omega) (by omega))]
      exact h.own j (by omega) (by omega)
  stamp j hlo hhi := by
    change j < ring.completed at hhi
    have := h.room
    show Function.update ring.stamp (d % rxDescCnt) none (j % rxDescCnt) = _
    rw [Function.update_of_ne (lap_ne (by omega) (by omega))]
    exact h.stamp j (by omega) hhi

/-- Its buffers were cut last. -/
theorem RxRing.Stocked.givenBack (hs : ring.Stocked d c)
    (h : ring.InTurn d c) (hlt : d < c)
    (hrx : ∀ part, ∃ c, (rx part).slice = some c)
    (hlast : ∀ i part c₁ c₂, (ring.rxOf i part).slice = some c₁ →
      (rx part).slice = some c₂ → c₁.page = c₂.page → c₁.off < c₂.off)
    (inte : U32) :
    ((ring.withBuffers (d % rxDescCnt) rxPa rx).givenBack d inte).Stocked
      (d + 1) c := by
  have hold : ∀ j, d < j → j < d + rxDescCnt →
      (ring.withBuffers (d % rxDescCnt) rxPa rx).rxOf (j % rxDescCnt)
        = ring.rxOf (j % rxDescCnt) := fun j hlo hhi =>
    withBuffers_rxOf_other (lap_ne hlo hhi)
  have hnew : (ring.withBuffers (d % rxDescCnt) rxPa rx).rxOf
      ((d + rxDescCnt) % rxDescCnt) = rx := by
    rw [Nat.add_mod_right, rxOf_withBuffers]
  have hknown : ∀ i, i < rxDescCnt →
      (ring.withBuffers (d % rxDescCnt) rxPa rx).Known i := fun i hi =>
    (withBuffers_known i).2 (hs.known i hi)
  have hle := h.consumed_le
  refine ⟨hknown, fun j hlo hhi => ?_, fun j hlo hhi => ?_, ?_,
    fun i hi part => ?_⟩
  · show (ring.withBuffers (d % rxDescCnt) rxPa rx).Filled (j % rxDescCnt)
    unfold RxRing.Filled
    by_cases hj : j = d + rxDescCnt
    · rw [hj, hnew]
      exact hrx
    · rw [hold j (by omega) (by omega)]
      exact hs.filled j hlo (by omega)
  · change ring.completed ≤ j at hlo
    show ∃ inte', Function.update ring.dmaDescs (d % rxDescCnt) _
      (j % rxDescCnt) = armedDesc
        ((ring.withBuffers (d % rxDescCnt) rxPa rx).rxOf (j % rxDescCnt)
          .hdr)
        ((ring.withBuffers (d % rxDescCnt) rxPa rx).rxOf (j % rxDescCnt)
          .buf) inte'
    by_cases hj : j = d + rxDescCnt
    · rw [hj, Nat.add_mod_right, Function.update_self]
      exact ⟨inte, rfl⟩
    · rw [Function.update_of_ne (lap_ne (by omega) (by omega)),
        hold j (by omega) (by omega)]
      exact hs.armed j hlo (by omega)
  · intro part j j' c₁ c₂ hlo hjj hhi h₁ h₂ hpage
    change ((ring.withBuffers (d % rxDescCnt) rxPa rx).rxOf
      (j % rxDescCnt) part).slice = some c₁ at h₁
    change ((ring.withBuffers (d % rxDescCnt) rxPa rx).rxOf
      (j' % rxDescCnt) part).slice = some c₂ at h₂
    rw [hold j (by omega) (by omega)] at h₁
    by_cases hj : j' = d + rxDescCnt
    · rw [hj, hnew] at h₂
      exact hlast _ part c₁ c₂ h₁ h₂ hpage
    · rw [hold j' (by omega) (by omega)] at h₂
      exact hs.inOrder part j j' c₁ c₂ (by omega) hjj (by omega) h₁ h₂
        hpage
  · have hne : i ≠ d % rxDescCnt := by
      have := Nat.mod_lt d rxDescCnt_pos
      omega
    show (ring.withBuffers (d % rxDescCnt) rxPa rx).rxOf i part = .zero
    rw [withBuffers_rxOf_other hne]
    exact hs.beyond i hi part

end Fill

end Turn

-- =============================================================== refilling

/-- The next entry that waits for refill gets its buffers. -/
def RxRing.Refills (ans : Answers) (rxBufSize : Nat) (pg : Pages)
    (ring : RxRing) : Prop :=
  ((ring.unmapDescData pg (ring.entry ring.dirty)).2.mapRxBuffer ans
    rxBufSize (ring.unmapDescData pg (ring.entry ring.dirty)).1
    (ring.entry ring.dirty)).1 = true

/-- A ring in turn, among the others. -/
structure Turning (pg : Pages) (rings : Nat → RxRing) (r : Nat)
    (ring : RxRing) (d c : Nat) : Prop where
  sound : Sound TurnPool pg (Function.update rings r ring)
  turn : ring.InTurn d c
  stock : ring.Stocked d c

section Refill

variable {ans : Answers} {rxBufSize : Nat} {rings : Nat → RxRing}
  {r d c : Nat} {pg : Pages} {ring : RxRing}

theorem Turning.dirty_entry (h : Turning pg rings r ring d c) :
    ring.entry ring.dirty = d % rxDescCnt := by
  rw [h.turn.dirty, rx_entry_ofNat h.turn.sized]

theorem Turning.unmap (h : Turning pg rings r ring d c) (hlt : d < c) :
    Turning (ring.unmapDescData pg (d % rxDescCnt)).1 rings r
      (ring.unmapDescData pg (d % rxDescCnt)).2 d c :=
  ⟨h.sound.unmapFirst h.stock, h.turn.unmap _, h.stock.unmap h.turn hlt⟩

/-- The entry gets no buffers: some pages may have been allocated. -/
theorem Turning.map_fails (h : Turning pg rings r ring d c)
    (hsize : SizeOk rxBufSize) {i : Nat}
    (hclear : ∀ part, ring.rxOf i part = .zero)
    (hfail : (ring.mapRxBuffer ans rxBufSize pg i).1 = false) :
    Turning (ring.mapRxBuffer ans rxBufSize pg i).2.1 rings r
      (ring.mapRxBuffer ans rxBufSize pg i).2.2 d c := by
  have hsound := h.sound.mapRxBuffer (grows_turnPool (partLen rxBufSize))
    hsize ans hclear
  obtain ⟨rxPa, rx, hring, hsame, -⟩ :=
    mapRxBuffer_frame ans rxBufSize pg ring i
  rw [hsame hfail, withBuffers_rxOf] at hring
  rw [hring] at hsound ⊢
  obtain ⟨-, hturn, hstock⟩ := h
  exact ⟨hsound,
    ⟨hturn.sized, hturn.dirty, hturn.cur, hturn.returned_le,
      hturn.consumed_le, hturn.room, hturn.head, hturn.returned,
      hturn.consumed, hturn.own, hturn.stamp⟩,
    ⟨hstock.known, hstock.filled, hstock.armed, hstock.inOrder,
      hstock.beyond⟩⟩

/-- The entry gets its buffers and is given back. -/
theorem Turning.map_succeeds (h : Turning pg rings r ring d c)
    (hlt : d < c) (hsize : SizeOk rxBufSize)
    (hclear : ∀ part, ring.rxOf (d % rxDescCnt) part = .zero)
    (hok : (ring.mapRxBuffer ans rxBufSize pg (d % rxDescCnt)).1 = true)
    (coal : Coalesce) (index : U32) :
    ∃ ring', (ring.mapRxBuffer ans rxBufSize pg
        (d % rxDescCnt)).2.2.rxDescReset coal (d % rxDescCnt) index
          = some ring'
      ∧ Turning (ring.mapRxBuffer ans rxBufSize pg (d % rxDescCnt)).2.1
        rings r { ring' with dirty := ring'.dirty + 1 } (d + 1) c := by
  have hsound := h.sound.mapRxBuffer (grows_turnPool (partLen rxBufSize))
    hsize ans hclear
  obtain ⟨rxPa, rx, hring, -, hcut⟩ :=
    mapRxBuffer_frame ans rxBufSize pg ring (d % rxDescCnt)
  have hboth := hcut hok
  rw [hring] at hsound ⊢
  obtain ⟨hold, hturn, hstock⟩ := h
  have hmapped : (ring.withBuffers (d % rxDescCnt) rxPa rx).InTurn d c :=
    ⟨hturn.sized, hturn.dirty, hturn.cur, hturn.returned_le,
      hturn.consumed_le, hturn.room, hturn.head, hturn.returned,
      hturn.consumed, hturn.own, hturn.stamp⟩
  have hknown : (ring.withBuffers (d % rxDescCnt) rxPa rx).Known
      (d % rxDescCnt) :=
    (withBuffers_known _).2 (hstock.known _ (Nat.mod_lt d rxDescCnt_pos))
  obtain ⟨ring', hreset, hgiven⟩ := hmapped.reset hlt hknown coal index
  refine ⟨ring', hreset, ?_⟩
  rw [hgiven]
  refine ⟨hsound.congr rfl fun _ => rfl, hmapped.givenBack hlt _,
    hstock.givenBack hturn hlt hboth.slices ?_ _⟩
  intro i part c₁ c₂ h₁ h₂ hpage
  exact hboth.after hsound.kept.after hsound.kept.cut_len
    (hold.cut_of_slice h₁) h₂ hpage

/-- Refilling goes on as far as there are buffers: past the first entry
when that gets its own. -/
theorem Turning.refillLoop (hsize : SizeOk rxBufSize) (ans : Answers)
    (coal : Coalesce) {left : Nat} (h : Turning pg rings r ring d c)
    (hleft : d + left ≤ c) :
    (ring.refillLoop ans coal rxBufSize left pg).1 = true
      ∧ ∃ d', d ≤ d'
        ∧ (0 < left → (ring.Refills ans rxBufSize pg ↔ d < d'))
        ∧ Turning (ring.refillLoop ans coal rxBufSize left pg).2.1 rings r
          (ring.refillLoop ans coal rxBufSize left pg).2.2 d' c := by
  induction left generalizing pg ring d with
  | zero =>
    exact ⟨rfl, d, le_rfl, fun h0 => absurd h0 (Nat.lt_irrefl 0), h⟩
  | succ left ih =>
    have hlt : d < c := by omega
    have hunmap := h.unmap hlt
    have hclear : ∀ part, (ring.unmapDescData pg (d % rxDescCnt)).2.rxOf
        (d % rxDescCnt) part = .zero := fun part => by
      rw [unmapDescData_rxOf, if_pos rfl]
    unfold RxRing.Refills
    rw [RxRing.refillLoop]
    dsimp only
    rw [h.dirty_entry]
    cases hok : ((ring.unmapDescData pg (d % rxDescCnt)).2.mapRxBuffer ans
        rxBufSize (ring.unmapDescData pg (d % rxDescCnt)).1
        (d % rxDescCnt)).1 with
    | false =>
      have hfails := hunmap.map_fails hsize hclear hok
      rcases hout : (ring.unmapDescData pg (d % rxDescCnt)).2.mapRxBuffer
        ans rxBufSize (ring.unmapDescData pg (d % rxDescCnt)).1
        (d % rxDescCnt) with ⟨ok, pg', ring'⟩
      rw [hout] at hok hfails
      cases hok
      have hstays : false = true ↔ d < d :=
        ⟨fun h0 => Bool.noConfusion h0, fun h0 => absurd h0 (Nat.lt_irrefl d)⟩
      exact ⟨rfl, d, le_rfl, fun _ => hstays, hfails⟩
    | true =>
      obtain ⟨ring'', hreset, hnext⟩ := hunmap.map_succeeds hlt hsize hclear
        hok coal ((ring.unmapDescData pg (d % rxDescCnt)).2.mapRxBuffer ans
          rxBufSize (ring.unmapDescData pg (d % rxDescCnt)).1
          (d % rxDescCnt)).2.2.dirty
      rcases hout : (ring.unmapDescData pg (d % rxDescCnt)).2.mapRxBuffer
        ans rxBufSize (ring.unmapDescData pg (d % rxDescCnt)).1
        (d % rxDescCnt) with ⟨ok, pg', ring'⟩
      rw [hout] at hok hreset hnext
      cases hok
      dsimp only at hreset hnext ⊢
      rw [hreset]
      obtain ⟨halive, d', hle, -, hlast⟩ := ih hnext (by omega)
      exact ⟨halive, d', by omega, fun _ => ⟨fun _ => hle, fun _ => rfl⟩,
        hlast⟩

/-- `mac_rx_refresh` -/
theorem Turning.refresh (hsize : SizeOk rxBufSize) (ans : Answers)
    (coal : Coalesce) (h : Turning pg rings r ring d c) :
    (ring.refresh ans coal rxBufSize pg).1 = true
      ∧ ∃ d', d ≤ d'
        ∧ (d < c → (ring.Refills ans rxBufSize pg ↔ d < d'))
        ∧ Turning (ring.refresh ans coal rxBufSize pg).2.1 rings r
          (ring.refresh ans coal rxBufSize pg).2.2 d' c := by
  have hcount := h.turn.dirty_count.1
  have hle := h.turn.returned_le
  obtain ⟨halive, d', hd, hmore, hloop⟩ :=
    h.refillLoop hsize ans coal (by omega :
      d + (ring.cur - ring.dirty).toNat ≤ c)
  rw [RxRing.refresh]
  rcases hout : ring.refillLoop ans coal rxBufSize
    (ring.cur - ring.dirty).toNat pg with ⟨ok, pg', ring'⟩
  rw [hout] at halive hloop
  cases halive
  refine ⟨rfl, d', hd, fun hlt => hmore (by omega), ?_⟩
  obtain ⟨hsound, hturn, hstock⟩ := hloop
  exact ⟨hsound.congr rfl fun _ => rfl,
    ⟨hturn.sized, hturn.dirty, hturn.cur, hturn.returned_le,
      hturn.consumed_le, hturn.room, hturn.head, hturn.returned,
      hturn.consumed, hturn.own, hturn.stamp⟩,
    ⟨hstock.known, hstock.filled, hstock.armed, hstock.inOrder,
      hstock.beyond⟩⟩

/-- One reading, of a ring that is not full of what waits for refill. -/
theorem Turning.devRead (h : Turning pg rings r ring d c)
    (hroom : c < d + rxDescCnt) :
    ring.devRead.1 = true
      ∧ ∃ c', Turning pg rings r ring.devRead.2 d c' := by
  obtain ⟨halive, c', hturn, hstock⟩ := h.turn.read h.stock hroom
  exact ⟨halive, c', h.sound.devRead, hturn, hstock⟩

/-- If all entries wait for refill, the first of them gets its buffers. -/
def RxRing.ReadsRoom (ans : Answers) (rxBufSize : Nat) (pg : Pages)
    (ring : RxRing) : Prop :=
  (ring.cur - ring.dirty).toNat = ring.dmaDescCount →
    ring.Refills ans rxBufSize pg

/-- One reading of `mac_rx_poll`. -/
theorem Turning.pollRead (hsize : SizeOk rxBufSize) (ans : Answers)
    (coal : Coalesce) (h : Turning pg rings r ring d c)
    (hroom : ring.ReadsRoom ans rxBufSize pg) :
    (ring.pollRead ans coal rxBufSize pg).1 = true
      ∧ ∃ d' c', Turning (ring.pollRead ans coal rxBufSize pg).2.1 rings r
        (ring.pollRead ans coal rxBufSize pg).2.2 d' c' := by
  obtain ⟨hcount, hle⟩ := h.turn.dirty_count
  unfold RxRing.ReadsRoom at hroom
  rw [hcount, h.turn.sized] at hroom
  have hd := h.turn.returned_le
  rw [RxRing.pollRead]
  split
  · obtain ⟨halive, d', hd', hmore, hrefresh⟩ := h.refresh hsize ans coal
    have hroom' : c < d' + rxDescCnt := by
      by_cases hfull : c - d = rxDescCnt
      · have := rxDescCnt_pos
        have := (hmore (by omega)).1 (hroom hfull)
        omega
      · omega
    rcases hout : ring.refresh ans coal rxBufSize pg with ⟨ok, pg', ring'⟩
    rw [hout] at halive hrefresh
    cases halive
    obtain ⟨hread, c', hlast⟩ := hrefresh.devRead hroom'
    exact ⟨hread, d', c', hlast⟩
  · next hfew =>
    -- a full ring is over the limit
    have hroom' : c < d + rxDescCnt := by
      by_contra hfull
      have hmax : (ring.cur - ring.dirty).toNat ≤ rxDescMaxDirty.toNat :=
        Nat.le_of_not_lt hfew
      have hlimit : rxDescMaxDirty.toNat = 512 := by decide
      rw [rxDescCnt_eq] at hle hfull
      omega
    obtain ⟨hread, c', hlast⟩ := h.devRead hroom'
    exact ⟨hread, d, c', hlast⟩

/-- Otherwise the poll takes an entry it has read before, and more wait
for refill than there are. -/
theorem Turning.reads_twice (hsize : SizeOk rxBufSize) (ans : Answers)
    (coal : Coalesce) (h : Turning pg rings r ring d c)
    (hroom : ¬ ring.ReadsRoom ans rxBufSize pg) :
    (ring.pollRead ans coal rxBufSize pg).2.2.consumed
        = ring.consumed ++ [some d]
      ∧ some d ∈ ring.consumed
      ∧ ((ring.pollRead ans coal rxBufSize pg).2.2.cur
          - (ring.pollRead ans coal rxBufSize pg).2.2.dirty).toNat
        = rxDescCnt + 1
      ∧ (ring.pollRead ans coal rxBufSize pg).2.2.dmaDescCount
        = rxDescCnt := by
  obtain ⟨hcount, -⟩ := h.turn.dirty_count
  unfold RxRing.ReadsRoom at hroom
  rw [hcount, h.turn.sized, Classical.not_imp] at hroom
  obtain ⟨hfull, hfails⟩ := hroom
  have hpos := rxDescCnt_pos
  have hlt : d < c := by omega
  have hlap : c = d + rxDescCnt := by omega
  have hmany : rxDescMaxDirty < ring.cur - ring.dirty := by
    show rxDescMaxDirty.toNat < (ring.cur - ring.dirty).toNat
    rw [hcount, hfull, rxDescCnt_eq]
    decide
  obtain ⟨halive, d', hd', hmore, hrefresh⟩ := h.refresh hsize ans coal
  have hsame : d' = d := by
    by_contra hne
    exact hfails ((hmore hlt).2 (by omega))
  rw [hsame] at hrefresh
  rw [RxRing.pollRead, if_pos hmany]
  rcases hout : ring.refresh ans coal rxBufSize pg with ⟨ok, pg', ring'⟩
  rw [hout] at halive hrefresh
  cases halive
  dsimp only
  obtain ⟨-, hturn, hstock⟩ := hrefresh
  have hread : ring'.devRead.2
      = { ring' with
          cur := ring'.cur + 1
          consumed := ring'.consumed ++ [some d] } := by
    have hbehind : d < ring'.completed :=
      Nat.lt_of_lt_of_le hlt hturn.consumed_le
    have hmod : c % rxDescCnt = d % rxDescCnt := by
      rw [hlap, Nat.add_mod_right]
    unfold RxRing.devRead
    rw [hturn.cur, rx_entry_ofNat hturn.sized, hmod,
      (hstock.known _ (Nat.mod_lt d hpos)).1]
    dsimp only
    rw [hturn.own d le_rfl (by omega),
      if_neg (by simpa using hbehind), hturn.stamp d le_rfl hbehind]
  rw [hread]
  have hnext : ring'.cur + 1 = BitVec.ofNat 32 (c + 1) := by
    rw [hturn.cur, Counter.add_one]
  refine ⟨?_, ?_, ?_, hturn.sized⟩
  · show ring'.consumed ++ [some d] = ring.consumed ++ [some d]
    rw [hturn.consumed, h.turn.consumed]
  · rw [h.turn.consumed]
    exact List.mem_map_of_mem (List.mem_range.2 hlt)
  · show (ring'.cur + 1 - ring'.dirty).toNat = rxDescCnt + 1
    rw [hnext, hturn.dirty, Counter.sub_toNat (by omega)
      (by rw [hlap, rxDescCnt_eq]; omega)]
    omega

/-- The NIC completes a descriptor. -/
theorem Turning.complete (h : Turning pg rings r ring d c)
    (back : DmaDesc) :
    Turning pg rings r (ring.complete back) d c :=
  ⟨h.sound.complete back, h.turn.complete back,
    h.stock.complete h.turn back⟩

end Refill

end BxRnic.Mac
