/-
Dealing `n` things out to `k` holders in runs: each gets `n / k` of them,
and the first `n % k` get one more.

The holders' runs are next to each other, from 0 to `n` (`start_succ`,
`start_last`), so that each thing has exactly one holder
(`existsUnique_held`).
-/
import Mathlib.Order.Interval.Finset.Nat
import Mathlib.Order.Monotone.Basic

namespace BxRnic.Deal

variable (n k : Nat)

/-- What holder `i` gets. -/
def share (i : Nat) : Nat := n / k + if i < n % k then 1 else 0

/-- Where the run of holder `i` begins. -/
def start (i : Nat) : Nat := i * (n / k) + min i (n % k)

/-- Thing `q` is in the run of holder `i`. -/
def Held (i q : Nat) : Prop := start n k i ≤ q ∧ q < start n k (i + 1)

instance (i q : Nat) : Decidable (Held n k i q) :=
  inferInstanceAs (Decidable (_ ∧ _))

variable {n k}

theorem start_zero : start n k 0 = 0 := by
  rw [start, Nat.zero_mul, Nat.zero_min]

/-- The runs are next to each other. -/
theorem start_succ (i : Nat) :
    start n k (i + 1) = start n k i + share n k i := by
  unfold start share
  rw [Nat.succ_mul]
  split
  · omega
  · omega

/-- The last run ends with the last thing. -/
theorem start_last (hk : 0 < k) : start n k k = n := by
  have hmod : n % k < k := Nat.mod_lt n hk
  rw [start, min_eq_right hmod.le, Nat.add_comm]
  exact Nat.mod_add_div n k

theorem start_mono : Monotone (start n k) := by
  apply monotone_nat_of_le_succ
  intro i
  rw [start_succ]
  omega

/-- A run lies within the things. -/
theorem Held.lt {i q : Nat} (h : Held n k i q) (hk : 0 < k)
    (hi : i < k) : q < n := by
  have hle : start n k (i + 1) ≤ start n k k := start_mono hi
  rw [start_last hk] at hle
  exact lt_of_lt_of_le h.2 hle

/-- No two runs meet. -/
theorem Held.unique {i j q : Nat} (hi : Held n k i q) (hj : Held n k j q) :
    i = j := by
  rcases Nat.lt_trichotomy i j with hlt | heq | hlt
  · have hle : start n k (i + 1) ≤ start n k j := start_mono hlt
    have hq := hi.2
    have hq' := hj.1
    omega
  · exact heq
  · have hle : start n k (j + 1) ≤ start n k i := start_mono hlt
    have hq := hj.2
    have hq' := hi.1
    omega

/-- What is before the start of a run is in an earlier one. -/
theorem held_of_lt_start {q : Nat} :
    ∀ {m : Nat}, q < start n k m → ∃ i < m, Held n k i q
  | 0, h => by
      rw [start_zero] at h
      omega
  | m + 1, h => by
      by_cases hm : q < start n k m
      · obtain ⟨i, hi, hheld⟩ := held_of_lt_start hm
        exact ⟨i, by omega, hheld⟩
      · exact ⟨m, by omega, by omega, h⟩

/-- As many things are held as the share says. -/
theorem card_held {i : Nat} (hk : 0 < k) (hi : i < k) :
    ((Finset.range n).filter (Held n k i)).card = share n k i := by
  have hruns : (Finset.range n).filter (Held n k i)
      = Finset.Ico (start n k i) (start n k (i + 1)) := by
    ext q
    rw [Finset.mem_filter, Finset.mem_range, Finset.mem_Ico]
    constructor
    · intro h
      exact h.2
    · intro h
      exact ⟨Held.lt h hk hi, h⟩
  rw [hruns, Nat.card_Ico, start_succ]
  omega

/-- Each thing has exactly one holder. -/
theorem existsUnique_held (hk : 0 < k) {q : Nat} (hq : q < n) :
    ∃! i, i < k ∧ Held n k i q := by
  have hlt : q < start n k k := by
    rw [start_last hk]
    exact hq
  obtain ⟨i, hi, hheld⟩ := held_of_lt_start hlt
  refine ⟨i, ⟨hi, hheld⟩, ?_⟩
  intro j hj
  exact hj.2.unique hheld

/-- The loops of the dealing: `n / k` times, and once more for the first
holders. -/
theorem iterate_share {α : Type} (f : α → α) (i : Nat) (a : α) :
    (if i < n % k then f (f^[n / k] a) else f^[n / k] a)
      = f^[share n k i] a := by
  unfold share
  split
  · rw [Function.iterate_succ_apply']
  · rfl

end BxRnic.Deal
