/-
Programs over a state compared in two runs that start from related
states.

`Related R f g` says that the two programs return the same value and
leave related states whenever they start from related ones. What it
means depends on the relation: over "the observer sees the same in
both" it is noninterference, over "one is the mirror image of the
other" it is a symmetry of the program. The rules below follow the way
programs are put together, so that one derivation serves every relation
the basic steps keep.

`Moves Q f` is the one-run companion: what the program makes of a state
stands to it in the relation `Q`.
-/
import Mathlib.Logic.Basic

namespace BxRnic

universe u

variable {σ τ α β : Type u}

-- ============================================================= running

theorem get_bind_run (F : σ → StateM σ α) (s : σ) :
    (get >>= F) s = F s s := rfl

theorem bind_run (f : StateM σ α) (F : α → StateM σ β) (s : σ) :
    (f >>= F) s = F (f s).1 (f s).2 := rfl

-- ============================================================ outcomes

/-- Two outcomes with the same value and related states. -/
structure SameOutcome (R : σ → τ → Prop) (x : α × σ) (y : α × τ) :
    Prop where
  value : x.1 = y.1
  state : R x.2 y.2

/-- From related states the two programs return the same value and leave
related states. -/
def Related (R : σ → τ → Prop) (f : StateM σ α) (g : StateM τ α) : Prop :=
  ∀ s t, R s t → SameOutcome R (f s) (g t)

namespace Related

variable {R : σ → τ → Prop}

-- =============================================================== rules

theorem pure (a : α) :
    Related R (Pure.pure a : StateM σ α) (Pure.pure a : StateM τ α) := by
  intro s t h
  exact ⟨rfl, h⟩

/-- One after the other: the second parts are compared at the value the
first parts agree on. -/
theorem bind {f : StateM σ α} {g : StateM τ α} {F : α → StateM σ β}
    {G : α → StateM τ β} (hfg : Related R f g)
    (hFG : ∀ a, Related R (F a) (G a)) :
    Related R (f >>= F) (g >>= G) := by
  intro s t h
  obtain ⟨hval, hst⟩ := hfg s t h
  show SameOutcome R (F (f s).1 (f s).2) (G (g t).1 (g t).2)
  rw [hval]
  exact hFG _ _ _ hst

/-- A value read from the state may steer the rest when related states
have it in common. -/
theorem gets {a : σ → α} {b : τ → α} (h : ∀ s t, R s t → a s = b t) :
    Related R (get >>= fun s => Pure.pure (a s))
      (get >>= fun t => Pure.pure (b t)) := by
  intro s t hst
  exact ⟨h s t hst, hst⟩

theorem modify {a : σ → σ} {b : τ → τ}
    (h : ∀ s t, R s t → R (a s) (b t)) :
    Related R (fun s => (PUnit.unit, a s)) (fun t => (PUnit.unit, b t)) := by
  intro s t hst
  exact ⟨rfl, h s t hst⟩

/-- A branch on a condition the two runs share. -/
theorem ite {c : Prop} [Decidable c] {f f' : StateM σ α}
    {g g' : StateM τ α} (ht : c → Related R f g)
    (he : ¬ c → Related R f' g') :
    Related R (if c then f else f') (if c then g else g') := by
  by_cases hc : c
  · rw [if_pos hc, if_pos hc]
    exact ht hc
  · rw [if_neg hc, if_neg hc]
    exact he hc

end Related

-- ============================================================= one run

/-- The program takes every state to one that `Q` relates it to. -/
def Moves (Q : σ → σ → Prop) (f : StateM σ α) : Prop := ∀ s, Q s (f s).2

namespace Moves

variable {P Q Q' : σ → σ → Prop}

theorem pure (h : ∀ s, Q s s) (a : α) :
    Moves Q (Pure.pure a : StateM σ α) := h

theorem bind {f : StateM σ α} {F : α → StateM σ β}
    (hcomp : ∀ r s t, P r s → Q s t → Q' r t) (hf : Moves P f)
    (hF : ∀ a, Moves Q (F a)) : Moves Q' (f >>= F) := by
  intro s
  exact hcomp _ _ _ (hf s) (hF (f s).1 (f s).2)

theorem ite {c : Prop} [Decidable c] {f g : StateM σ α}
    (ht : c → Moves Q f) (he : ¬ c → Moves Q g) :
    Moves Q (if c then f else g) := by
  by_cases hc : c
  · rw [if_pos hc]
    exact ht hc
  · rw [if_neg hc]
    exact he hc

theorem mono {f : StateM σ α} (h : ∀ s t, P s t → Q s t)
    (hf : Moves P f) : Moves Q f := by
  intro s
  exact h _ _ (hf s)

end Moves

end BxRnic
