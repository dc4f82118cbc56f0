/-
A table of places, each of which holds some things.

What the whole table holds is a list, place after place. As a bag it does
not depend on where one begins to read, round the table (`held_window`),
and it changes with a place by what that place holds (`held_update`). So
a law of conservation, that what is held and what has been given back
make up what was taken, can be shown one place at a time.
-/
import Mathlib.Data.List.Nodup
import Mathlib.Data.List.Perm.Subperm
import Mathlib.Logic.Function.Basic

namespace BxRnic.Held

variable {α : Type*} {n c k : Nat} {places places' : Nat → List α}

/-- What the first `n` places hold. -/
def held (n : Nat) (places : Nat → List α) : List α :=
  (List.range n).flatMap places

theorem held_congr (h : ∀ k < n, places k = places' k) :
    held n places = held n places' := by
  apply List.flatMap_congr
  intro k hk
  exact h k (List.mem_range.1 hk)

theorem held_eq_nil (h : ∀ k < n, places k = []) : held n places = [] := by
  rw [held, List.flatMap_eq_nil_iff]
  intro k hk
  exact h k (List.mem_range.1 hk)

/-- The first places, and those behind them. -/
theorem held_add (a b : Nat) (places : Nat → List α) :
    held (a + b) places
      = held a places ++ held b fun j => places (a + j) := by
  rw [held, List.range_add, List.flatMap_append, List.flatMap_map]
  rfl

/-- The last place is the only one that holds something. -/
theorem held_last (h : ∀ k < n, places k = []) :
    held (n + 1) places = places n := by
  rw [held, List.range_succ, List.flatMap_append, List.flatMap_singleton]
  exact congrArg (· ++ places n) (held_eq_nil h)

-- =============================================================== windows

/-- The places from `c` on, round the table, are the places. -/
theorem perm_window (n c : Nat) :
    ((List.range n).map fun j => (c + j) % n).Perm (List.range n) := by
  apply List.Perm.symm
  apply List.Subperm.perm_of_length_le
  · apply List.nodup_range.subperm
    intro k hk
    have hlt := List.mem_range.1 hk
    apply List.mem_map.2
    refine ⟨(k + (n - c % n)) % n,
      List.mem_range.2 (Nat.mod_lt _ (by omega)), ?_⟩
    have hmod : c % n < n := Nat.mod_lt _ (by omega)
    have hsum : c + (k + (n - c % n)) = k + n * (c / n + 1) := by
      have hdiv := Nat.div_add_mod c n
      rw [Nat.mul_add, Nat.mul_one]
      omega
    rw [Nat.add_mod_mod, hsum, Nat.add_mul_mod_self_left,
      Nat.mod_eq_of_lt hlt]
  · exact Nat.le_of_eq (List.length_map _)

/-- It is one where the reading begins. -/
theorem held_window (places : Nat → List α) (n c : Nat) :
    (held n fun j => places ((c + j) % n)).Perm (held n places) := by
  have hperm := (perm_window n c).flatMap_right places
  rw [List.flatMap_map] at hperm
  exact hperm

-- =============================================================== updates

/-- What a place holds is replaced. -/
theorem held_update (hk : k < n) (places : Nat → List α) (xs : List α) :
    (places k ++ held n (Function.update places k xs)).Perm
      (xs ++ held n places) := by
  have hmem := List.mem_range.2 hk
  have hperm := List.perm_cons_erase hmem
  have hrest : ((List.range n).erase k).flatMap
      (Function.update places k xs)
      = ((List.range n).erase k).flatMap places := by
    apply List.flatMap_congr
    intro j hj
    have hne := ((List.nodup_range (n := n)).mem_erase_iff.1 hj).1
    rw [Function.update_of_ne hne]
  have hnew := hperm.flatMap_right (Function.update places k xs)
  rw [List.flatMap_cons, Function.update_self, hrest] at hnew
  have hold := hperm.flatMap_right places
  rw [List.flatMap_cons] at hold
  apply (hnew.append_left (places k)).trans
  apply (List.perm_append_comm_assoc _ _ _).trans
  exact (hold.append_left xs).symm

end BxRnic.Held
