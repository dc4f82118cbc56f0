/-
Rings of `n` slots: the run of slots between a consumer index and a
producer index, and what the two indices say about its length.

# The run of slots

`slots n t k` are the `k` slots from `t` on, in order. A producer at
`(t + k) % n` appends to it (`slots_succ`), a consumer at `t` takes from
its front (`slots_pop`). As long as fewer than `n` slots are in use the
producer's slot is not one of them (`next_notMem_slots`).

# The two indices

The indices tell `k` apart from every other length but one: they
coincide for the empty ring and for the full one (`next_eq_iff`). How
much an index pair says otherwise is `next_cases`.

# Several elements

A producer that puts several elements at once should go round the ring
with them. `storeFrom` is one that goes straight on; `storeRound` and
`markRound` go round. `Entered` is what such a producer leaves behind.
-/
import Mathlib.Data.List.Basic
import Mathlib.Data.Nat.ModEq

namespace BxRnic.SlotRing

variable {n t k : Nat}

-- ============================================================ the indices

/-- Where the producer is, before and after the end of the ring. -/
theorem next_cases (ht : t < n) (hk : k ≤ n) :
    t + k < n ∧ (t + k) % n = t + k
      ∨ n ≤ t + k ∧ (t + k) % n = t + k - n := by
  by_cases h : t + k < n
  · exact Or.inl ⟨h, Nat.mod_eq_of_lt h⟩
  · refine Or.inr ⟨Nat.le_of_not_lt h, ?_⟩
    rw [Nat.mod_eq_sub_mod (Nat.le_of_not_lt h),
      Nat.mod_eq_of_lt (by omega)]

/-- The producer is where the consumer is when the ring is empty or
full. -/
theorem next_eq_iff (ht : t < n) (hk : k ≤ n) :
    (t + k) % n = t ↔ k = 0 ∨ k = n := by
  rcases next_cases ht hk with ⟨hlt, heq⟩ | ⟨hge, heq⟩
  · rw [heq]
    omega
  · rw [heq]
    omega

/-- The producer moves on by one. -/
theorem next_succ : ((t + k) % n + 1) % n = (t + (k + 1)) % n := by
  rw [Nat.mod_add_mod, Nat.add_assoc]

/-- The consumer moves on by one: the producer is one less ahead. -/
theorem next_pop : ((t + 1) % n + k) % n = (t + (k + 1)) % n := by
  rw [Nat.mod_add_mod]
  congr 1
  omega

-- ============================================================== the slots

/-- The `k` slots from `t` on. -/
def slots (n t k : Nat) : List Nat :=
  (List.range k).map fun j => (t + j) % n

@[simp] theorem length_slots : (slots n t k).length = k := by
  simp [slots]

@[simp] theorem slots_zero : slots n t 0 = [] := rfl

/-- The producer's slot is taken. -/
theorem slots_succ :
    slots n t (k + 1) = slots n t k ++ [(t + k) % n] := by
  simp [slots, List.range_succ]

/-- The consumer's slot is given back. -/
theorem slots_pop (ht : t < n) :
    slots n t (k + 1) = t :: slots n ((t + 1) % n) k := by
  unfold slots
  rw [List.range_succ_eq_map, List.map_cons, List.map_map, Nat.add_zero,
    Nat.mod_eq_of_lt ht]
  congr 1
  refine List.map_congr_left fun j _ => ?_
  rw [Nat.mod_add_mod, Function.comp_apply, Nat.succ_eq_add_one]
  congr 1
  omega

theorem mem_slots {i : Nat} :
    i ∈ slots n t k ↔ ∃ j < k, (t + j) % n = i := by
  simp [slots]

/-- Unless the ring is full, the producer's slot is not in use. -/
theorem next_notMem_slots (hk : k < n) : (t + k) % n ∉ slots n t k := by
  intro hmem
  obtain ⟨j, hj, heq⟩ := mem_slots.1 hmem
  have hmod : j % n = k % n := Nat.ModEq.add_left_cancel' t heq
  rw [Nat.mod_eq_of_lt (by omega), Nat.mod_eq_of_lt hk] at hmod
  omega

/-- What the slots in use hold does not change when the producer's slot
is written. -/
theorem map_slots_update {α : Type*} (hk : k < n) (tbl : Nat → α)
    (a : α) :
    (slots n t k).map (Function.update tbl ((t + k) % n) a)
      = (slots n t k).map tbl := by
  refine List.map_congr_left fun i hi => ?_
  refine Function.update_of_ne ?_ _ _
  rintro rfl
  exact next_notMem_slots hk hi

-- ====================================================== several elements

section Stores

variable {α : Type*} {off i s : Nat} {xs : List α} {a : α}

/-- Elements stored behind each other from an index on, without a look
at the end of the ring. -/
def storeFrom (f : Nat → α) (off : Nat) : List α → Nat → α
  | [] => f
  | x :: xs => storeFrom (Function.update f off x) (off + 1) xs

/-- What is in front of the stores stays. -/
theorem storeFrom_before {f : Nat → α} (h : s < off) :
    storeFrom f off xs s = f s := by
  induction xs generalizing f off with
  | nil => rfl
  | cons x xs ih =>
      rw [storeFrom, ih (by omega), Function.update_of_ne (by omega)]

/-- What is behind the stores stays. -/
theorem storeFrom_behind {f : Nat → α} (h : off + xs.length ≤ s) :
    storeFrom f off xs s = f s := by
  induction xs generalizing f off with
  | nil => rfl
  | cons x xs ih =>
      rw [List.length_cons] at h
      rw [storeFrom, ih (by omega), Function.update_of_ne (by omega)]

/-- An element that was stored. -/
theorem storeFrom_get {f : Nat → α} (h : i < xs.length) :
    storeFrom f off xs (off + i) = xs[i] := by
  induction xs generalizing f off i with
  | nil => exact absurd h (Nat.not_lt_zero i)
  | cons x xs ih =>
      rw [storeFrom]
      cases i with
      | zero =>
          rw [storeFrom_before (by omega)]
          exact Function.update_self _ _ _
      | succ i =>
          rw [List.length_cons] at h
          rw [show off + (i + 1) = off + 1 + i by omega,
            ih (by omega), List.getElem_cons_succ]

/-- One value, put at `k` slots in order round the ring, the first one
`i` slots behind `t`. -/
def markRound (n t : Nat) (a : α) (f : Nat → α) : Nat → Nat → Nat → α
  | _, 0 => f
  | i, k + 1 => markRound n t a (Function.update f ((t + i) % n) a) (i + 1) k

/-- A slot that has the value keeps it. -/
theorem markRound_kept {f : Nat → α} (h : f s = a) :
    markRound n t a f i k s = a := by
  induction k generalizing f i with
  | zero => exact h
  | succ k ih =>
      rw [markRound]
      apply ih
      by_cases hs : s = (t + i) % n
      · rw [hs, Function.update_self]
      · rw [Function.update_of_ne hs, h]

/-- Every slot of the run gets it. -/
theorem markRound_get {f : Nat → α} {j : Nat} (hj : j < k) :
    markRound n t a f i k ((t + (i + j)) % n) = a := by
  induction k generalizing f i j with
  | zero => exact absurd hj (Nat.not_lt_zero j)
  | succ k ih =>
      rw [markRound]
      cases j with
      | zero =>
          apply markRound_kept
          exact Function.update_self _ _ _
      | succ j =>
          have hnext := @ih (i + 1)
            (Function.update f ((t + i) % n) a) j (by omega)
          rw [show i + (j + 1) = i + 1 + j by omega]
          exact hnext

/-- Elements stored one behind the other, round a ring of `n` slots. -/
def storeRound (n : Nat) (f : Nat → α) (off : Nat) : List α → Nat → α
  | [] => f
  | x :: xs =>
      storeRound n (Function.update f off x) ((off + 1) % n) xs

/-- A slot that none of them goes to stays. -/
theorem storeRound_kept {f : Nat → α}
    (h : ∀ j < xs.length, (off + j) % n ≠ s) (hoff : off < n) :
    storeRound n f off xs s = f s := by
  induction xs generalizing f off with
  | nil => rfl
  | cons x xs ih =>
      have hfirst := h 0 (by simp)
      rw [Nat.add_zero, Nat.mod_eq_of_lt hoff] at hfirst
      rw [storeRound, ih ?_ (Nat.mod_lt _ (Nat.zero_lt_of_lt hoff)),
        Function.update_of_ne (Ne.symm hfirst)]
      intro j hj
      rw [next_pop]
      exact h (j + 1) (by simpa using hj)

/-- An element that was stored, when there are no more of them than
slots. -/
theorem storeRound_get {f : Nat → α} (hoff : off < n)
    (hfit : xs.length ≤ n) (h : i < xs.length) :
    storeRound n f off xs ((off + i) % n) = xs[i] := by
  induction xs generalizing f off i with
  | nil => exact absurd h (Nat.not_lt_zero i)
  | cons x xs ih =>
      have hnext : (off + 1) % n < n := Nat.mod_lt _ (Nat.zero_lt_of_lt hoff)
      rw [List.length_cons] at hfit h
      rw [storeRound]
      cases i with
      | zero =>
          have hslot : (off + 0) % n = off := Nat.mod_eq_of_lt hoff
          rw [hslot, storeRound_kept ?_ hnext]
          · exact Function.update_self _ _ _
          intro j hj heq
          rw [next_pop] at heq
          rcases (next_eq_iff hoff (by omega)).1 heq with hzero | hround
          · omega
          · omega
      | succ i =>
          have hslot : (off + (i + 1)) % n = ((off + 1) % n + i) % n :=
            next_pop.symm
          rw [hslot, ih hnext (by omega) (by omega),
            List.getElem_cons_succ]

end Stores

-- =========================================================== what is entered

section Entered

variable {α β : Type*}

/-- Entries were put at the head of a ring of `n` slots, each at the
`slot` of its index; each has its id in the table; the head moved over
them, and the doorbell was rung for it. -/
structure Entered (n head : Nat) (slot : Nat → Nat) (entries : List α)
    (id : β) (mem : Nat → α) (tbl : Nat → β) (wp head' : Nat) : Prop where
  some : entries ≠ []
  built : ∀ (i : Nat) (hi : i < entries.length),
    mem (slot (head + i)) = entries[i]
  ids : ∀ i < entries.length, tbl ((head + i) % n) = id
  moved : head' = (head + entries.length) % n
  rung : wp % n = head'

end Entered

end BxRnic.SlotRing
