/-
Threads that have nothing to do with each other: each keeps to registers
of its own.

Whatever order their accesses come in, each register ends with what its
thread would have left there alone (`Race.quiet_of_apart`), so that two of
them end as if one had run after the other (`Race.quiet_eq_exec`).
-/
import BxRnic.Lib.Race

namespace BxRnic.Window

variable {T R V : Type*} [DecidableEq R]

-- ================================================================= alone

/-- What a sequence leaves that runs alone. -/
def Prog.exec : Prog R V → (R → V) → R → V
  | done, regs => regs
  | write reg value next, regs =>
      next.exec (Function.update regs reg value)
  | read reg next, regs => (next (regs reg)).exec regs
  | await _ _ next, regs => next.exec regs

/-- Alone, it keeps to its own registers and does not have to wait. -/
def Prog.Within (own : R → Prop) : Prog R V → (R → V) → Prop
  | done, _ => True
  | write reg value next, regs =>
      own reg ∧ next.Within own (Function.update regs reg value)
  | read reg next, regs =>
      own reg ∧ (next (regs reg)).Within own regs
  | await reg stop next, regs =>
      own reg ∧ stop (regs reg) = true ∧ next.Within own regs

/-- The same value goes to the same register. -/
theorem update_agree {own : R → Prop} {regs regs' : R → V}
    (h : ∀ reg, own reg → regs' reg = regs reg) (reg₀ : R) (value : V) :
    ∀ reg, own reg → Function.update regs' reg₀ value reg
      = Function.update regs reg₀ value reg := by
  intro reg hreg
  rcases eq_or_ne reg reg₀ with rfl | hne
  · rw [Function.update_self, Function.update_self]
  · rw [Function.update_of_ne hne, Function.update_of_ne hne, h reg hreg]

/-- A sequence does the same wherever its own registers hold the same, and
leaves the others alone. -/
theorem Prog.exec_of_agree {own : R → Prop} {prog : Prog R V} :
    ∀ {regs regs' : R → V}, prog.Within own regs →
      (∀ reg, own reg → regs' reg = regs reg) →
      (∀ reg, own reg → prog.exec regs' reg = prog.exec regs reg)
        ∧ ∀ reg, ¬ own reg → prog.exec regs' reg = regs' reg := by
  induction prog with
  | done =>
    intro regs regs' _ hagree
    exact ⟨hagree, fun _ _ => rfl⟩
  | write reg₀ value next ih =>
    intro regs regs' hwithin hagree
    obtain ⟨hown, hother⟩ :=
      ih hwithin.2 (update_agree hagree reg₀ value)
    refine ⟨hown, ?_⟩
    intro reg hreg
    have hne : reg ≠ reg₀ := by
      intro heq
      rw [heq] at hreg
      exact hreg hwithin.1
    have := hother reg hreg
    rw [Function.update_of_ne hne] at this
    exact this
  | read reg₀ next ih =>
    intro regs regs' hwithin hagree
    have hsame := hagree reg₀ hwithin.1
    have hrest := ih (regs reg₀) hwithin.2 hagree
    rw [← hsame] at hrest
    refine ⟨?_, hrest.2⟩
    intro reg hreg
    show (next (regs' reg₀)).exec regs' reg
      = (next (regs reg₀)).exec regs reg
    rw [← hsame]
    exact hrest.1 reg hreg
  | await reg₀ stop next ih =>
    intro regs regs' hwithin hagree
    exact ih hwithin.2.2 hagree

-- ============================================================== together

variable [DecidableEq T]

/-- What the registers hold while the threads are at work: each its
thread's, as it would be alone. -/
def Race.Apart (owner : R → Option T) (regs : R → V)
    (goal : T → R → V) (w : Race T R V) : Prop :=
  ∃ alone : T → R → V,
    (∀ reg, w.regs reg
      = match owner reg with
        | some t => alone t reg
        | none => regs reg)
    ∧ ∀ t, (w.thread t).Within (fun reg => owner reg = some t) (alone t)
      ∧ (w.thread t).exec (alone t) = goal t

variable {owner : R → Option T} {regs : R → V} {goal : T → R → V}

theorem Race.Apart.access {w : Race T R V}
    (h : w.Apart owner regs goal) (t : T) :
    (w.access t).Apart owner regs goal := by
  obtain ⟨alone, hregs, hthread⟩ := h
  have hread : ∀ {reg}, owner reg = some t → w.regs reg = alone t reg := by
    intro reg hreg
    rw [hregs reg, hreg]
  -- the thread goes on, and what it has left is what was left after the
  -- access
  have hgoes : ∀ {next : Prog R V},
      next.Within (fun reg => owner reg = some t) (alone t)
        ∧ next.exec (alone t) = goal t →
      Race.Apart owner regs goal
        { w with thread := Function.update w.thread t next } := by
    intro next hnext
    refine ⟨alone, hregs, ?_⟩
    intro t'
    dsimp only
    rcases eq_or_ne t' t with rfl | hne
    · rw [Function.update_self]
      exact hnext
    · rw [Function.update_of_ne hne]
      exact hthread t'
  obtain ⟨hwithin, hexec⟩ := hthread t
  unfold Race.access
  split
  · exact ⟨alone, hregs, hthread⟩
  · next reg value next hprog =>
    rw [hprog] at hwithin hexec
    refine ⟨Function.update alone t (Function.update (alone t) reg value),
      ?_, ?_⟩
    · intro reg'
      dsimp only
      rcases eq_or_ne reg' reg with rfl | hne
      · rw [hwithin.1]
        dsimp only
        rw [Function.update_self, Function.update_self,
          Function.update_self]
      · rw [Function.update_of_ne hne, hregs reg']
        cases hown : owner reg' with
        | none => rfl
        | some t' =>
          dsimp only
          rcases eq_or_ne t' t with rfl | hne'
          · rw [Function.update_self, Function.update_of_ne hne]
          · rw [Function.update_of_ne hne']
    · intro t'
      dsimp only
      rcases eq_or_ne t' t with rfl | hne
      · rw [Function.update_self, Function.update_self]
        exact ⟨hwithin.2, hexec⟩
      · rw [Function.update_of_ne hne, Function.update_of_ne hne]
        exact hthread t'
  · next reg next hprog =>
    rw [hprog] at hwithin hexec
    apply hgoes
    rw [hread hwithin.1]
    exact ⟨hwithin.2, hexec⟩
  · next reg stop next hprog =>
    rw [hprog] at hwithin hexec
    split
    · exact hgoes ⟨hwithin.2.2, hexec⟩
    · exact ⟨alone, hregs, hthread⟩

/-- When all threads are done, each register holds what its thread would
have left alone. -/
theorem Race.quiet_of_apart {w : Race T R V}
    (hprog : ∀ t, (w.thread t).Within (fun reg => owner reg = some t)
      w.regs)
    (ts : List T) (hquiet : (Run.exec Race.access w ts).Quiet) (reg : R) :
    (Run.exec Race.access w ts).regs reg
      = match owner reg with
        | some t => (w.thread t).exec w.regs reg
        | none => w.regs reg := by
  have hstart : w.Apart owner w.regs
      fun t => (w.thread t).exec w.regs := by
    refine ⟨fun _ => w.regs, ?_, fun t => ⟨hprog t, rfl⟩⟩
    intro reg
    cases owner reg with
    | none => rfl
    | some t => rfl
  obtain ⟨alone, hregs, hthread⟩ :=
    Run.exec_inv (I := Race.Apart owner w.regs _)
      (fun w t h => h.access t) hstart ts
  rw [hregs reg]
  cases owner reg with
  | none => rfl
  | some t =>
    have hdone := (hthread t).2
    rw [hquiet t] at hdone
    exact congrFun hdone reg

/-- Two threads end as if one had run after the other. -/
theorem Race.quiet_eq_exec {w : Race Bool R V} {owner : R → Option Bool}
    (hprog : ∀ t, (w.thread t).Within (fun reg => owner reg = some t)
      w.regs)
    (ts : List Bool) (hquiet : (Run.exec Race.access w ts).Quiet) :
    (Run.exec Race.access w ts).regs
      = (w.thread false).exec ((w.thread true).exec w.regs) := by
  obtain ⟨-, hkept⟩ := Prog.exec_of_agree (hprog true) fun _ _ => rfl
  have hagree : ∀ reg, owner reg = some false →
      (w.thread true).exec w.regs reg = w.regs reg := by
    intro reg hreg
    apply hkept
    rw [hreg]
    simp
  obtain ⟨hown, hother⟩ := Prog.exec_of_agree (hprog false) hagree
  funext reg
  rw [Race.quiet_of_apart hprog ts hquiet reg]
  cases howner : owner reg with
  | none =>
    rw [hother reg (by rw [howner]; simp), hkept reg (by rw [howner]; simp)]
  | some t =>
    cases t with
    | true => exact (hother reg (by rw [howner]; simp)).symm
    | false => exact (hown reg howner).symm

end BxRnic.Window
