/-
Objects known by an address and an id, and the marks an allocator keeps
of the ids.

# The relation

`Registered` says that a list of objects has ids of its own and that,
over a range, exactly the ids of the list are marked. It is what a
bitmap allocator is meant to keep between its bits and the objects made
with them: an object joins with its mark (`Registered.cons`), leaves
with its mark (`Registered.erase`), and cannot leave without it
(`Registered.not_erase`).
-/
import Mathlib.Data.List.Nodup

namespace BxRnic

variable {α : Type*} {id addr : α → Nat}

/-- The objects have ids of their own, and the marks from `lo` to `hi`
are on exactly for these. -/
structure Registered (id : α → Nat) (lo hi : Nat) (marked : Nat → Prop)
    (objs : List α) : Prop where
  distinct : (objs.map id).Nodup
  marked_iff : ∀ i, lo ≤ i → i < hi →
    (marked i ↔ ∃ obj ∈ objs, id obj = i)

/-- The objects are at addresses of their own, below the next one. -/
structure Placed (addr : α → Nat) (fresh : Nat) (objs : List α) :
    Prop where
  distinct : (objs.map addr).Nodup
  below : ∀ obj ∈ objs, addr obj < fresh

-- ============================================================ addresses

section Placed

variable {fresh : Nat} {objs : List α}

/-- A new object goes to the next address. -/
theorem Placed.cons (h : Placed addr fresh objs) {obj : α}
    (hobj : addr obj = fresh) : Placed addr (fresh + 1) (obj :: objs) := by
  refine ⟨?_, fun obj' hobj' => ?_⟩
  · rw [List.map_cons, List.nodup_cons]
    refine ⟨fun hmem => ?_, h.distinct⟩
    obtain ⟨obj', hobj', haddr⟩ := List.mem_map.1 hmem
    have hlt := h.below obj' hobj'
    omega
  · cases List.mem_cons.1 hobj' with
    | inl heq =>
        rw [heq]
        omega
    | inr hold =>
        have hlt := h.below obj' hold
        omega

theorem Placed.mono {fresh' : Nat} (h : Placed addr fresh objs)
    (hle : fresh ≤ fresh') : Placed addr fresh' objs :=
  ⟨h.distinct, fun obj hobj => Nat.lt_of_lt_of_le (h.below obj hobj) hle⟩

theorem Placed.filter (h : Placed addr fresh objs) (p : α → Bool) :
    Placed addr fresh (objs.filter p) :=
  ⟨h.distinct.sublist (List.filter_sublist.map _),
    fun obj hobj => h.below obj (List.mem_of_mem_filter hobj)⟩

/-- Two objects of one address are one. -/
theorem Placed.eq_of_addr (h : Placed addr fresh objs) {obj obj' : α}
    (hobj : obj ∈ objs) (hobj' : obj' ∈ objs)
    (haddr : addr obj = addr obj') : obj = obj' :=
  List.inj_on_of_nodup_map h.distinct hobj hobj' haddr

end Placed

-- ================================================================== ids

section Registered

variable {lo hi : Nat} {marked marked' : Nat → Prop} {objs : List α}

/-- Two objects of one id are one. -/
theorem Registered.eq_of_id (h : Registered id lo hi marked objs)
    {obj obj' : α} (hobj : obj ∈ objs) (hobj' : obj' ∈ objs)
    (hid : id obj = id obj') : obj = obj' :=
  List.inj_on_of_nodup_map h.distinct hobj hobj' hid

/-- Marks may change outside of the range. -/
theorem Registered.congr (h : Registered id lo hi marked objs)
    (hmarks : ∀ i, lo ≤ i → i < hi → (marked' i ↔ marked i)) :
    Registered id lo hi marked' objs :=
  ⟨h.distinct, fun i hlo hhi =>
    (hmarks i hlo hhi).trans (h.marked_iff i hlo hhi)⟩

/-- An object joins with its mark. -/
theorem Registered.cons (h : Registered id lo hi marked objs) {obj : α}
    (hnew : ∀ obj' ∈ objs, id obj' ≠ id obj)
    (hmarks : ∀ i, lo ≤ i → i < hi →
      (marked' i ↔ i = id obj ∨ marked i)) :
    Registered id lo hi marked' (obj :: objs) := by
  refine ⟨?_, fun i hlo hhi => ?_⟩
  · rw [List.map_cons, List.nodup_cons]
    refine ⟨fun hmem => ?_, h.distinct⟩
    obtain ⟨obj', hobj', hid⟩ := List.mem_map.1 hmem
    exact hnew obj' hobj' hid
  · rw [hmarks i hlo hhi, h.marked_iff i hlo hhi]
    constructor
    · rintro (hi | ⟨obj', hobj', hid⟩)
      · exact ⟨obj, List.mem_cons_self, hi.symm⟩
      · exact ⟨obj', List.mem_cons_of_mem _ hobj', hid⟩
    · rintro ⟨obj', hobj', hid⟩
      cases List.mem_cons.1 hobj' with
      | inl heq => exact Or.inl (by rw [← hid, heq])
      | inr hold => exact Or.inr ⟨obj', hold, hid⟩

variable {fresh : Nat}

/-- What is left when the object of an address is gone: the objects of
other ids. -/
theorem Registered.mem_erase (h : Registered id lo hi marked objs)
    (hplaced : Placed addr fresh objs) {obj obj' : α} (hobj : obj ∈ objs) :
    obj' ∈ objs.filter (fun o => addr o ≠ addr obj)
      ↔ obj' ∈ objs ∧ id obj' ≠ id obj := by
  rw [List.mem_filter, decide_eq_true_iff]
  refine and_congr_right fun hobj' => not_congr ?_
  constructor
  · exact fun haddr => congrArg _ (hplaced.eq_of_addr hobj' hobj haddr)
  · exact fun hid => congrArg _ (h.eq_of_id hobj' hobj hid)

/-- An object leaves with its mark. -/
theorem Registered.erase (h : Registered id lo hi marked objs)
    (hplaced : Placed addr fresh objs) {obj : α} (hobj : obj ∈ objs)
    (hmarks : ∀ i, lo ≤ i → i < hi →
      (marked' i ↔ i ≠ id obj ∧ marked i)) :
    Registered id lo hi marked'
      (objs.filter fun o => addr o ≠ addr obj) := by
  refine ⟨h.distinct.sublist (List.filter_sublist.map _),
    fun i hlo hhi => ?_⟩
  rw [hmarks i hlo hhi, h.marked_iff i hlo hhi]
  constructor
  · rintro ⟨hne, obj', hobj', hid⟩
    exact ⟨obj', (h.mem_erase hplaced hobj).2 ⟨hobj', hid ▸ hne⟩, hid⟩
  · rintro ⟨obj', hobj', hid⟩
    obtain ⟨hmem, hne⟩ := (h.mem_erase hplaced hobj).1 hobj'
    exact ⟨hid ▸ hne, obj', hmem, hid⟩

/-- An object that leaves without its mark breaks the relation. -/
theorem Registered.not_erase (h : Registered id lo hi marked objs)
    (hplaced : Placed addr fresh objs) {obj : α} (hobj : obj ∈ objs)
    (hlo : lo ≤ id obj) (hhi : id obj < hi) :
    ¬ Registered id lo hi marked
      (objs.filter fun o => addr o ≠ addr obj) := by
  intro hgone
  have hmarked := (h.marked_iff _ hlo hhi).2 ⟨obj, hobj, rfl⟩
  obtain ⟨obj', hobj', hid⟩ := (hgone.marked_iff _ hlo hhi).1 hmarked
  exact ((h.mem_erase hplaced hobj).1 hobj').2 hid

/-- A mark without an object breaks it, too. -/
theorem Registered.not_of_marked {i : Nat} (hlo : lo ≤ i) (hhi : i < hi)
    (hmarked : marked i) (hnone : ∀ obj ∈ objs, id obj ≠ i) :
    ¬ Registered id lo hi marked objs := by
  intro h
  obtain ⟨obj, hobj, hid⟩ := (h.marked_iff i hlo hhi).1 hmarked
  exact hnone obj hobj hid

end Registered

end BxRnic
