/-
Reference counts, and the places that hold the references.

A place holds at most one reference. The counts are right if the count of
a thing is the number of the places that hold it, and of the references
to it that are elsewhere (`Balanced`). What is elsewhere is anything: the
references of somebody whose places are not looked at, or those that
nobody has any more (`Balanced.lose`).
-/
import Mathlib.Algebra.Order.BigOperators.Group.Finset

namespace BxRnic.RefCount

variable {κ α : Type*} [Fintype κ] [DecidableEq α]

-- =============================================================== holders

/-- How many places hold a thing. -/
def holders (held : κ → Option α) (a : α) : Nat :=
  ∑ k, if held k = some a then 1 else 0

variable {held : κ → Option α}

theorem holders_eq_zero {a : α} (h : ∀ k, held k ≠ some a) :
    holders held a = 0 := by
  apply Finset.sum_eq_zero
  intro k _
  rw [if_neg (h k)]

theorem holders_none (a : α) : holders (fun _ : κ => none) a = 0 :=
  holders_eq_zero fun _ => (Option.some_ne_none a).symm

theorem holders_pos {k : κ} {a : α} (h : held k = some a) :
    0 < holders held a := by
  have hle := Finset.single_le_sum
    (f := fun k => if held k = some a then 1 else 0)
    (fun _ _ => Nat.zero_le _) (Finset.mem_univ k)
  rw [if_pos h] at hle
  exact hle

/-- Some of the places hold no more than all of them. -/
theorem holders_mono {some' : κ → Option α} {a : α}
    (h : ∀ k, some' k = some a → held k = some a) :
    holders some' a ≤ holders held a := by
  apply Finset.sum_le_sum
  intro k _
  by_cases hk : some' k = some a
  · rw [if_pos hk, if_pos (h k hk)]
  · rw [if_neg hk]
    exact Nat.zero_le _

-- =============================================================== updates

section

variable [DecidableEq κ]

/-- What a place holds is replaced. -/
theorem holders_update (held : κ → Option α) (k : κ) (o : Option α)
    (a : α) :
    holders (Function.update held k o) a
        + (if held k = some a then 1 else 0)
      = holders held a + (if o = some a then 1 else 0) := by
  have hrest : ∑ k' ∈ Finset.univ.erase k,
      (if Function.update held k o k' = some a then 1 else 0)
        = ∑ k' ∈ Finset.univ.erase k,
          (if held k' = some a then 1 else 0) := by
    apply Finset.sum_congr rfl
    intro k' hk'
    rw [Function.update_of_ne (Finset.ne_of_mem_erase hk')]
  unfold holders
  rw [← Finset.add_sum_erase _ _ (Finset.mem_univ k), hrest,
    Function.update_self,
    ← Finset.add_sum_erase _ (fun k' => if held k' = some a then 1 else 0)
      (Finset.mem_univ k)]
  omega

end

-- ============================================================== balanced

/-- The counts are right: what is elsewhere is `out`. -/
def Balanced (refs : α → Nat) (held : κ → Option α) (out : α → Nat) :
    Prop :=
  ∀ a, refs a = holders held a + out a

namespace Balanced

theorem empty :
    Balanced (fun _ : α => 0) (fun _ : κ => none) fun _ => 0 := by
  intro a
  rw [holders_none]
  rfl

variable {refs out : α → Nat} {k k' : κ} {a : α}

theorem pos (h : Balanced refs held out) (hk : held k = some a) :
    refs a ≠ 0 := by
  have := holders_pos hk
  rw [h a]
  omega

/-- One that is elsewhere is given back. -/
theorem putOut (h : Balanced refs held out) (ha : out a ≠ 0) :
    Balanced (Function.update refs a (refs a - 1)) held
      (Function.update out a (out a - 1)) := by
  intro b
  by_cases hb : b = a
  · rw [hb, Function.update_self, Function.update_self, h a]
    omega
  · rw [Function.update_of_ne hb, Function.update_of_ne hb]
    exact h b

variable [DecidableEq κ]

/-- What a place holds is replaced, and the counts go along. -/
theorem change {refs' out' : α → Nat} {o : Option α}
    (h : Balanced refs held out)
    (hnew : ∀ b, refs' b + (if held k = some b then 1 else 0) + out b
      = refs b + (if o = some b then 1 else 0) + out' b) :
    Balanced refs' (Function.update held k o) out' := by
  intro b
  have hupdate := holders_update held k o b
  have hb := hnew b
  rw [h b] at hb
  omega

/-- A reference more, and a place that holds it. -/
theorem get (h : Balanced refs held out) (hk : held k = none) (a : α) :
    Balanced (Function.update refs a (refs a + 1))
      (Function.update held k (some a)) out := by
  apply h.change
  intro b
  rw [hk]
  by_cases hb : b = a
  · simp only [hb, Function.update_self, reduceCtorEq, if_true, if_false,
      Nat.add_zero]
  · simp [Function.update_of_ne hb, Ne.symm hb]

/-- A place gives its reference back. -/
theorem put (h : Balanced refs held out) (hk : held k = some a) :
    Balanced (Function.update refs a (refs a - 1))
      (Function.update held k none) out := by
  have hpos := h.pos hk
  apply h.change
  intro b
  rw [hk]
  by_cases hb : b = a
  · simp only [hb, Function.update_self, reduceCtorEq, if_true, if_false]
    omega
  · simp [Function.update_of_ne hb, Ne.symm hb]

/-- A place loses its reference to what is elsewhere. -/
theorem lose (h : Balanced refs held out) (hk : held k = some a) :
    Balanced refs (Function.update held k none)
      (Function.update out a (out a + 1)) := by
  apply h.change
  intro b
  rw [hk]
  by_cases hb : b = a
  · simp only [hb, Function.update_self, reduceCtorEq, if_true, if_false]
    omega
  · simp [Function.update_of_ne hb, Ne.symm hb]

/-- A reference goes from one place to another. -/
theorem move (h : Balanced refs held out) (hk : held k = some a)
    (hk' : held k' = none) :
    Balanced refs
      (Function.update (Function.update held k none) k' (some a)) out := by
  have hne : k' ≠ k := by
    intro heq
    rw [heq, hk] at hk'
    cases hk'
  apply (h.lose hk).change
  intro b
  rw [Function.update_of_ne hne, hk']
  by_cases hb : b = a
  · simp only [hb, Function.update_self, reduceCtorEq, if_true, if_false]
    omega
  · simp [Function.update_of_ne hb, Ne.symm hb]

end Balanced

end BxRnic.RefCount
