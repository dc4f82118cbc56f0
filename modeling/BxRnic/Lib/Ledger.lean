/-
What a call does with resources: the ones it takes and the ones it gives
back, in order.

A call that fails is to give back what it took, each resource once and
nothing else: its ledger is `Closed`. It is not if something taken is
still held (`not_closed_held`), or if something is given back more often
than it was taken (`Closed.count`).
-/
import Mathlib.Data.List.Perm.Basic

namespace BxRnic

/-- What was taken and what was given back. -/
structure Ledger (α : Type*) where
  acquired : List α
  released : List α
deriving DecidableEq

namespace Ledger

variable {α : Type*} {l : Ledger α} {a : α}

/-- Nothing has happened. -/
def empty : Ledger α := ⟨[], []⟩

/-- A resource is taken. -/
def acquire (l : Ledger α) (a : α) : Ledger α :=
  { l with acquired := l.acquired ++ [a] }

/-- A resource is given back. -/
def release (l : Ledger α) (a : α) : Ledger α :=
  { l with released := l.released ++ [a] }

@[simp] theorem acquired_empty : (empty : Ledger α).acquired = [] := rfl

@[simp] theorem released_empty : (empty : Ledger α).released = [] := rfl

@[simp] theorem acquired_acquire :
    (l.acquire a).acquired = l.acquired ++ [a] := rfl

@[simp] theorem released_acquire : (l.acquire a).released = l.released :=
  rfl

@[simp] theorem acquired_release : (l.release a).acquired = l.acquired :=
  rfl

@[simp] theorem released_release :
    (l.release a).released = l.released ++ [a] := rfl

/-- Everything taken is given back once, and nothing else is. -/
def Closed (l : Ledger α) : Prop := l.released.Perm l.acquired

instance [DecidableEq α] (l : Ledger α) : Decidable l.Closed :=
  inferInstanceAs (Decidable (l.released.Perm l.acquired))

theorem closed_empty : (empty : Ledger α).Closed := List.Perm.refl []

/-- Each resource is given back as often as it was taken. -/
theorem Closed.count [DecidableEq α] (h : l.Closed) (a : α) :
    l.released.count a = l.acquired.count a := List.Perm.count_eq h a

/-- Something is still held. -/
theorem not_closed_held (ha : a ∈ l.acquired) (hnot : a ∉ l.released) :
    ¬ l.Closed := fun h => hnot (h.mem_iff.2 ha)

end Ledger

end BxRnic
