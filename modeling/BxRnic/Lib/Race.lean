/-
Threads that use the same registers with no mutex between them: each runs
sequences of accesses, and the accesses of different threads come in any
order.

# Values that survive

A sequence that reads a register, changes the value and writes it back may
write what was made of a value that is no longer there. What can still be
said is which values a register may hold at all. If every sequence writes
allowed values whenever all it has read is allowed (`Prog.Keeps`), the
registers never hold anything else, however the accesses fall
(`Race.always_allowed`).
-/
import BxRnic.Lib.Run
import BxRnic.Lib.Window

namespace BxRnic.Window

variable {T R V : Type*}

-- ============================================================== sequences

/-- What the sequence writes is allowed, as long as what it reads is. -/
def Prog.Keeps (allowed : R → V → Prop) : Prog R V → Prop
  | done => True
  | write reg value next => allowed reg value ∧ next.Keeps allowed
  | read reg next => ∀ value, allowed reg value → (next value).Keeps allowed
  | await _ _ next => next.Keeps allowed

-- ================================================================== a race

/-- The registers, and what each thread has still to do. -/
structure Race (T R V : Type*) where
  regs : R → V
  thread : T → Prog R V

/-- What can happen. -/
inductive RaceEvent (T R V : Type*)
  /-- A thread that has nothing to do begins a sequence. -/
  | begin (t : T) (prog : Prog R V)
  /-- A thread makes its next access. -/
  | access (t : T)

variable [DecidableEq T] [DecidableEq R]

/-- The next access of a thread. -/
def Race.access (w : Race T R V) (t : T) : Race T R V :=
  match w.thread t with
  | .done => w
  | .write reg value next =>
      { regs := Function.update w.regs reg value
        thread := Function.update w.thread t next }
  | .read reg next =>
      { w with thread := Function.update w.thread t (next (w.regs reg)) }
  | .await reg stop next =>
      if stop (w.regs reg) then
        { w with thread := Function.update w.thread t next }
      else w

/-- The state after an event. -/
def Race.step (w : Race T R V) : RaceEvent T R V → Race T R V
  | .begin t prog =>
      match w.thread t with
      | .done => { w with thread := Function.update w.thread t prog }
      | _ => w
  | .access t => w.access t

/-- The sequences that are begun keep the registers at what is allowed. -/
def RaceEvent.Keeps (allowed : R → V → Prop) :
    RaceEvent T R V → Prop
  | .begin _ prog => prog.Keeps allowed
  | .access _ => True

/-- Nobody is in the middle of a sequence. -/
def Race.Quiet (w : Race T R V) : Prop := ∀ t, w.thread t = .done

/-- The registers hold what is allowed, and so does whatever is still to
be written. -/
structure Race.Allowed (allowed : R → V → Prop) (w : Race T R V) :
    Prop where
  regs : ∀ reg, allowed reg (w.regs reg)
  thread : ∀ t, (w.thread t).Keeps allowed

namespace Race.Allowed

variable {allowed : R → V → Prop} {w : Race T R V}

omit [DecidableEq R] in
/-- A thread goes on with something else. -/
theorem goes (h : w.Allowed allowed) (t : T) {prog : Prog R V}
    (hprog : prog.Keeps allowed) :
    Race.Allowed allowed
      { w with thread := Function.update w.thread t prog } where
  regs := h.regs
  thread t' := by
    show (Function.update w.thread t prog t').Keeps allowed
    rcases eq_or_ne t' t with rfl | hne
    · rw [Function.update_self]
      exact hprog
    · rw [Function.update_of_ne hne]
      exact h.thread t'

omit [DecidableEq T] in
/-- A register is given an allowed value. -/
theorem writes (h : w.Allowed allowed) {reg : R} {value : V}
    (hvalue : allowed reg value) :
    Race.Allowed allowed
      { w with regs := Function.update w.regs reg value } where
  regs reg' := by
    show allowed reg' (Function.update w.regs reg value reg')
    rcases eq_or_ne reg' reg with rfl | hne
    · rw [Function.update_self]
      exact hvalue
    · rw [Function.update_of_ne hne]
      exact h.regs reg'
  thread := h.thread

theorem access (h : w.Allowed allowed) (t : T) :
    (w.access t).Allowed allowed := by
  have hkeeps := h.thread t
  unfold Race.access
  split
  · exact h
  · next reg value next hprog =>
    rw [hprog] at hkeeps
    exact (h.writes hkeeps.1).goes t hkeeps.2
  · next reg next hprog =>
    rw [hprog] at hkeeps
    exact h.goes t (hkeeps _ (h.regs reg))
  · next reg stop next hprog =>
    rw [hprog] at hkeeps
    split
    · exact h.goes t hkeeps
    · exact h

theorem step (h : w.Allowed allowed) {e : RaceEvent T R V}
    (he : e.Keeps allowed) : (w.step e).Allowed allowed := by
  cases e with
  | begin t prog =>
    unfold Race.step
    dsimp only
    split
    · exact h.goes t he
    · exact h
  | access t => exact h.access t

end Race.Allowed

omit [DecidableEq T] [DecidableEq R] in
theorem Race.Quiet.allowed {allowed : R → V → Prop} {w : Race T R V}
    (hquiet : w.Quiet) (hregs : ∀ reg, allowed reg (w.regs reg)) :
    w.Allowed allowed where
  regs := hregs
  thread t := by
    rw [hquiet t]
    trivial

/-- However the accesses of the threads fall, no register comes to hold a
value that is not allowed. -/
theorem Race.always_allowed {allowed : R → V → Prop} {w : Race T R V}
    (hquiet : w.Quiet) (hregs : ∀ reg, allowed reg (w.regs reg))
    {events : List (RaceEvent T R V)}
    (hevents : ∀ e ∈ events, e.Keeps allowed) :
    Run.Always Race.step (fun w => ∀ reg, allowed reg (w.regs reg)) w
      events :=
  (Run.Each.always (I := Race.Allowed allowed)
    (fun _ _ h he => h.step he) (hquiet.allowed hregs)
    (Run.each_of_forall_mem hevents w)).mono fun _ h => h.regs

end BxRnic.Window
