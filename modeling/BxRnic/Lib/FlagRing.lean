/-
Rings whose entries say themselves whether they are filled: a producer
fills the next entry, a consumer takes entries from its pointer on until
it meets one that is not filled, and clears what it has taken.

# The abstract queue

`FlagRing.filled` is what the consumer would meet: the filled entries
from its pointer on. Taking the first of them leaves the others
(`filled_of_flag`). Where nothing else is filled (`Tidy`) and there is
room, the entry a producer fills is the one behind them
(`Tidy.produce`).
-/
import BxRnic.Lib.Ring
import Mathlib.Data.List.TakeWhile

namespace BxRnic

open SlotRing

/-- A ring of `n` entries and the consumer's pointer into it. -/
structure FlagRing (n : Nat) (α : Type*) where
  entry : Nat → α
  rp : Nat
  rp_lt : rp < n

namespace FlagRing

variable {n : Nat} {α : Type*} (flag : α → Bool)

/-- The entry at the pointer. -/
def head (r : FlagRing n α) : α := r.entry r.rp

/-- The entry at the pointer is cleared, and the pointer moves on. -/
def consume (r : FlagRing n α) (zero : α) : FlagRing n α where
  entry := Function.update r.entry r.rp zero
  rp := (r.rp + 1) % n
  rp_lt := Nat.mod_lt _ (Nat.lt_of_le_of_lt (Nat.zero_le _) r.rp_lt)

/-- The entries in the consumer's order. -/
def entries (r : FlagRing n α) : List α := (slots n r.rp n).map r.entry

/-- The filled entries the consumer would meet. -/
def filled (r : FlagRing n α) : List α := r.entries.takeWhile flag

theorem length_entries (r : FlagRing n α) : r.entries.length = n := by
  simp [entries]

theorem length_filled_le (r : FlagRing n α) :
    (r.filled flag).length ≤ n := by
  have h := (List.takeWhile_prefix flag (l := r.entries)).length_le
  rwa [r.length_entries] at h

-- =========================================================== the consumer

/-- The entry at the pointer comes first, then the rest of the round. -/
theorem entries_eq_cons (r : FlagRing n α) :
    r.entries
      = r.head :: (slots n ((r.rp + 1) % n) (n - 1)).map r.entry := by
  have hn : n = n - 1 + 1 := by
    have := r.rp_lt
    omega
  unfold entries
  rw [show slots n r.rp n = slots n r.rp (n - 1 + 1) by rw [← hn],
    slots_pop r.rp_lt, List.map_cons]
  rfl

/-- Once the entry is consumed the rest of the round comes first, and
the cleared entry last. -/
theorem entries_consume (r : FlagRing n α) (zero : α) :
    (r.consume zero).entries
      = (slots n ((r.rp + 1) % n) (n - 1)).map r.entry ++ [zero] := by
  have hn : n - 1 + 1 = n := by
    have := r.rp_lt
    omega
  have hlast : ((r.rp + 1) % n + (n - 1)) % n = r.rp := by
    rw [next_pop, hn, Nat.add_mod_right, Nat.mod_eq_of_lt r.rp_lt]
  have hrest : (slots n ((r.rp + 1) % n) (n - 1)).map
      (Function.update r.entry r.rp zero)
      = (slots n ((r.rp + 1) % n) (n - 1)).map r.entry := by
    have h := map_slots_update (t := (r.rp + 1) % n) (k := n - 1)
      (Nat.lt_of_succ_le (Nat.le_of_eq hn)) r.entry zero
    rwa [hlast] at h
  unfold entries consume
  simp only
  rw [show slots n ((r.rp + 1) % n) n
      = slots n ((r.rp + 1) % n) (n - 1 + 1) by rw [hn],
    slots_succ, List.map_append, hrest, hlast, List.map_singleton,
    Function.update_self]

variable {flag}

/-- An entry that is not filled, put last, is never met. -/
private theorem takeWhile_append_stop {stop : α}
    (hstop : flag stop = false) (l : List α) :
    (l ++ [stop]).takeWhile flag = l.takeWhile flag := by
  induction l with
  | nil => simp [hstop]
  | cons a l ih =>
      rw [List.cons_append, List.takeWhile_cons, List.takeWhile_cons, ih]

/-- The consumer takes the first filled entry and leaves the others. -/
theorem filled_of_flag {r : FlagRing n α} (zero : α)
    (hhead : flag r.head = true) (hzero : flag zero = false) :
    r.filled flag = r.head :: (r.consume zero).filled flag := by
  unfold filled
  rw [r.entries_eq_cons, r.entries_consume, List.takeWhile_cons,
    if_pos hhead, takeWhile_append_stop hzero]

/-- An entry that is not filled stops the consumer. -/
theorem filled_of_not_flag {r : FlagRing n α}
    (hhead : flag r.head = false) : r.filled flag = [] := by
  unfold filled
  rw [r.entries_eq_cons, List.takeWhile_cons, if_neg (by simp [hhead])]

-- =========================================================== the producer

/-- The entry at `wp` is filled. -/
def produce (r : FlagRing n α) (wp : Nat) (a : α) : FlagRing n α :=
  { r with entry := Function.update r.entry wp a }

/-- Nothing is filled but what the consumer will meet, and the producer
is right behind that. -/
structure Tidy (flag : α → Bool) (r : FlagRing n α) (wp : Nat) : Prop where
  wp_eq : wp = (r.rp + (r.filled flag).length) % n
  rest : ∀ j, (r.filled flag).length ≤ j → j < n →
    flag (r.entry ((r.rp + j) % n)) = false

/-- A list whose first `m` elements pass the test and whose others do
not. -/
private theorem takeWhile_range (flag : α → Bool) {f : Nat → α}
    {m k : Nat} (hm : m ≤ k)
    (hpass : ∀ j < m, flag (f j) = true)
    (hstop : ∀ j, m ≤ j → j < k → flag (f j) = false) :
    ((List.range k).map f).takeWhile flag = (List.range m).map f := by
  obtain ⟨d, rfl⟩ := Nat.exists_eq_add_of_le hm
  rw [List.range_add, List.map_append, List.takeWhile_append_of_pos]
  · cases d with
    | zero => simp
    | succ d =>
        have hfirst := hstop m (Nat.le_refl m) (by omega)
        rw [List.range_succ_eq_map, List.map_cons, List.map_cons,
          List.takeWhile_cons, if_neg (by simp [hfirst]),
          List.append_nil]
  · intro a ha
    obtain ⟨j, hj, rfl⟩ := List.mem_map.1 ha
    exact hpass j (List.mem_range.1 hj)

/-- The filled entries by their number. -/
theorem filled_eq_map (flag : α → Bool) (r : FlagRing n α) :
    r.filled flag
      = (slots n r.rp (r.filled flag).length).map r.entry := by
  have hle := r.length_filled_le flag
  have htake : r.filled flag
      = r.entries.take (r.filled flag).length :=
    List.prefix_iff_eq_take.1 (List.takeWhile_prefix flag)
  refine htake.trans ?_
  generalize (r.filled flag).length = m at hle
  rw [entries, slots, slots, ← List.map_take, ← List.map_take,
    List.take_range, Nat.min_eq_left hle]

theorem flag_of_lt_filled (flag : α → Bool) (r : FlagRing n α) {j : Nat}
    (hj : j < (r.filled flag).length) :
    flag (r.entry ((r.rp + j) % n)) = true := by
  have hmem : r.entry ((r.rp + j) % n) ∈ r.filled flag := by
    rw [r.filled_eq_map flag]
    exact List.mem_map_of_mem (mem_slots.2 ⟨j, hj, rfl⟩)
  exact List.mem_takeWhile_imp hmem

/-- An empty ring is tidy. -/
theorem tidy_of_clear {r : FlagRing n α}
    (h : ∀ i, flag (r.entry i) = false) : Tidy flag r r.rp := by
  have hnil : r.filled flag = [] := filled_of_not_flag (h r.rp)
  constructor
  · rw [hnil, List.length_nil, Nat.add_zero, Nat.mod_eq_of_lt r.rp_lt]
  · exact fun j _ _ => h _

/-- The consumer leaves a tidy ring tidy. -/
theorem Tidy.consume {r : FlagRing n α} {wp : Nat} {zero : α}
    (h : Tidy flag r wp) (hhead : flag r.head = true)
    (hzero : flag zero = false) : Tidy flag (r.consume zero) wp := by
  have hn : 0 < n := Nat.lt_of_le_of_lt (Nat.zero_le _) r.rp_lt
  have hfilled := congrArg List.length
    (filled_of_flag zero hhead hzero)
  rw [List.length_cons] at hfilled
  constructor
  · rw [h.wp_eq, hfilled]
    exact next_pop.symm
  · intro j hj hlt
    show flag (Function.update r.entry r.rp zero
      (((r.rp + 1) % n + j) % n)) = false
    rw [next_pop]
    by_cases hlast : j + 1 = n
    · -- once round the ring: the cleared entry
      rw [hlast, Nat.add_mod_right, Nat.mod_eq_of_lt r.rp_lt,
        Function.update_self, hzero]
    · rw [Function.update_of_ne]
      · exact h.rest (j + 1) (by omega) (by omega)
      · intro heq
        have hcases := (next_eq_iff r.rp_lt (Nat.succ_le_of_lt hlt)).1 heq
        omega

/-- The producer fills the entry behind the others. -/
theorem Tidy.produce {r : FlagRing n α} {wp : Nat} (h : Tidy flag r wp)
    {a : α} (hfree : flag (r.entry wp) = false) (ha : flag a = true) :
    (r.produce wp a).filled flag = r.filled flag ++ [a]
      ∧ Tidy flag (r.produce wp a) ((wp + 1) % n) := by
  have hn : 0 < n := Nat.lt_of_le_of_lt (Nat.zero_le _) r.rp_lt
  let m := (r.filled flag).length
  have hm : m < n := by
    have hle : m ≤ n := r.length_filled_le flag
    refine Nat.lt_of_le_of_ne hle fun hfull => ?_
    -- a full ring has the producer at a filled entry
    have hwp : wp = r.rp := by
      rw [h.wp_eq]
      exact (next_eq_iff r.rp_lt hle).2 (Or.inr hfull)
    have hfilled := r.flag_of_lt_filled flag (show 0 < m by omega)
    rw [Nat.add_zero, Nat.mod_eq_of_lt r.rp_lt, ← hwp, hfree] at hfilled
    cases hfilled
  have hwp : wp = (r.rp + m) % n := h.wp_eq
  have hother : ∀ j < n, j ≠ m →
      (r.produce wp a).entry ((r.rp + j) % n)
        = r.entry ((r.rp + j) % n) := by
    intro j hj hne
    refine Function.update_of_ne (fun heq => hne ?_) _ _
    rw [hwp] at heq
    have hmod : j % n = m % n := Nat.ModEq.add_left_cancel' r.rp heq
    rwa [Nat.mod_eq_of_lt hj, Nat.mod_eq_of_lt hm] at hmod
  have hself : (r.produce wp a).entry ((r.rp + m) % n) = a := by
    rw [← hwp]
    exact Function.update_self _ _ _
  have hfilled : (r.produce wp a).filled flag = r.filled flag ++ [a] := by
    unfold filled entries slots
    rw [List.map_map]
    have htake := takeWhile_range flag
      (f := (r.produce wp a).entry ∘ fun j => (r.rp + j) % n)
      (m := m + 1) (k := n) hm ?_ ?_
    · refine htake.trans ?_
      rw [List.range_succ, List.map_append, List.map_singleton,
        Function.comp_apply, hself]
      congr 1
      refine Eq.trans ?_ (r.filled_eq_map flag).symm
      unfold slots
      rw [List.map_map]
      refine List.map_congr_left fun j hj => ?_
      have hj' : j < m := List.mem_range.1 hj
      exact hother j (by omega) (by omega)
    · intro j hj
      rw [Function.comp_apply]
      by_cases heq : j = m
      · rw [heq, hself, ha]
      · rw [hother j (by omega) heq]
        exact r.flag_of_lt_filled flag (show j < m by omega)
    · intro j hle hlt
      rw [Function.comp_apply, hother j hlt (by omega)]
      exact h.rest j (show m ≤ j by omega) hlt
  refine ⟨hfilled, ?_, ?_⟩
  · rw [hfilled, List.length_append, List.length_singleton, hwp]
    exact next_succ
  · intro j hj hlt
    rw [hfilled, List.length_append, List.length_singleton] at hj
    have hj' : m + 1 ≤ j := hj
    show flag ((r.produce wp a).entry ((r.rp + j) % n)) = false
    rw [hother j hlt (by omega)]
    exact h.rest j (show m ≤ j by omega) hlt

end FlagRing

end BxRnic
