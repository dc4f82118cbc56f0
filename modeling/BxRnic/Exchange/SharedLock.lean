/-
The mutex that keeps the processes of a machine apart at the MPB window,
from its making to its end: `main` of the exchange server
(rdma_exchange/exchange.c) makes it in shared memory,
`bxroce_start_listening_server` (libbxroce/bxroce_main.c) finds it there,
and the library's register sequences run under it.

# The segment

Both sides ask for the segment of `IPC_KEY` and make it if there is none.
Only the server makes the mutex in it. A process that comes first has
zeroed memory for one, which the C library takes for an ordinary mutex;
one that stays after the server has left has a mutex that is destroyed,
and one that comes then a segment of its own.

# The calls

`pthread_mutex_lock` and its companions are as the C library has them: a
destroyed mutex gives EINVAL, which the library does not look at; only the
owner can unlock a robust mutex; of a dead owner only a robust one is
taken over.

# What is left out

Failures of `shmget` and `shmat`, and threads: a process is one. There is
one server at a time, since a second one fails to bind its port.
-/
import BxRnic.Lib.Run
import Mathlib.Logic.Function.Basic

namespace BxRnic.Exchange

-- ============================================================== the mutex

/-- What a piece of memory is as a mutex. -/
inductive MutexKind
  /-- Nothing but zeros. -/
  | zeroed
  /-- Made by `pthread_mutex_init`, robust and shared. -/
  | robust
  | destroyed
deriving DecidableEq

/-- A segment of shared memory, with the mutex it starts with. -/
structure Segment where
  kind : MutexKind
  owner : Option Nat

namespace Segment

/-- `pthread_mutex_lock`, and `pthread_mutex_consistent` after a dead
owner: nothing if the process has to wait. -/
def lock (m : Segment) (ended : Nat → Bool) (p : Nat) : Option Segment :=
  match m.kind, m.owner with
  | .destroyed, _ => some m
  | _, none => some { m with owner := some p }
  | .zeroed, some _ => none
  | .robust, some q =>
      if ended q = true then some { m with owner := some p } else none

/-- `pthread_mutex_unlock` -/
def unlock (m : Segment) (p : Nat) : Segment :=
  match m.kind with
  | .destroyed => m
  | .zeroed => { m with owner := none }
  | .robust => if m.owner = some p then { m with owner := none } else m

end Segment

-- ============================================================ the machine

/-- How far `main` is. -/
inductive ServerAt
  | down
  /-- The segment is zeroed. -/
  | mapped (seg : Nat)
  /-- The mutex is made. -/
  | up (seg : Nat)
deriving DecidableEq

/-- The shared memory and those who use it. -/
structure Shm where
  segments : Nat → Segment
  /-- How many segments there have been. -/
  made : Nat
  /-- The segment of `IPC_KEY`. -/
  key : Option Nat
  server : ServerAt
  /-- The segment of a process's `dev->hw_lock`. -/
  hwLock : Nat → Option Nat
  /-- A process is in a register sequence. -/
  inside : Nat → Bool
  ended : Nat → Bool

namespace Shm

/-- A machine after it is booted. -/
def boot : Shm where
  segments := fun _ => ⟨.zeroed, none⟩
  made := 0
  key := none
  server := .down
  hwLock := fun _ => none
  inside := fun _ => false
  ended := fun _ => false

variable (s : Shm)

def setSegment (g : Nat) (m : Segment) : Shm :=
  { s with segments := Function.update s.segments g m }

/-- `shmget` with `IPC_CREAT`: a new segment is zeroed. -/
def shmget : Nat × Shm :=
  match s.key with
  | some g => (g, s)
  | none =>
      (s.made,
        { s.setSegment s.made ⟨.zeroed, none⟩ with
          made := s.made + 1
          key := some s.made })

/-- `bxroce_start_listening_server` -/
def attach (p : Nat) : Shm :=
  let (g, s) := s.shmget
  { s with hwLock := Function.update s.hwLock p (some g) }

/-- The start of a register sequence. -/
def enter (p g : Nat) : Shm :=
  match (s.segments g).lock s.ended p with
  | none => s
  | some m =>
      { s.setSegment g m with inside := Function.update s.inside p true }

/-- The end of a register sequence. -/
def leave (p g : Nat) : Shm :=
  { s.setSegment g ((s.segments g).unlock p) with
    inside := Function.update s.inside p false }

/-- A process ends, wherever it is. -/
def finish (p : Nat) : Shm :=
  { s with
    hwLock := Function.update s.hwLock p none
    inside := Function.update s.inside p false
    ended := Function.update s.ended p true }

/-- `main`, up to the `memset` of the segment. -/
def serverMap : Shm :=
  let (g, s) := s.shmget
  { s.setSegment g ⟨.zeroed, none⟩ with server := .mapped g }

/-- `pthread_mutex_init` in `main`. -/
def serverInit (g : Nat) : Shm :=
  { s.setSegment g ⟨.robust, none⟩ with server := .up g }

/-- The end of `main`: the mutex is destroyed, and the segment has no key
any more. -/
def serverExit (g : Nat) : Shm :=
  { s.setSegment g { s.segments g with kind := .destroyed } with
    key := none
    server := .down }

end Shm

/-- What happens on the machine. -/
inductive ShmAct
  /-- A process gets a context. -/
  | attach (p : Nat)
  /-- A process gives up its device: `bxroce_uninit_device`. -/
  | detach (p : Nat)
  | enter (p : Nat)
  | leave (p : Nat)
  | finish (p : Nat)
  | serverMap
  | serverInit
  | serverExit
  /-- The server is killed, by a signal for example. -/
  | serverDies
deriving DecidableEq

/-- A step that cannot be taken changes nothing. -/
def Shm.step (s : Shm) : ShmAct → Shm
  | .attach p =>
      if s.ended p = false ∧ s.inside p = false then s.attach p else s
  | .detach p =>
      if s.inside p = false then
        { s with hwLock := Function.update s.hwLock p none }
      else s
  | .enter p =>
      match s.hwLock p with
      | none => s
      | some g => if s.inside p = false then s.enter p g else s
  | .leave p =>
      match s.hwLock p with
      | none => s
      | some g => if s.inside p = true then s.leave p g else s
  | .finish p => s.finish p
  | .serverMap => if s.server = .down then s.serverMap else s
  | .serverInit =>
      match s.server with
      | .mapped g => s.serverInit g
      | _ => s
  | .serverExit =>
      match s.server with
      | .up g => s.serverExit g
      | _ => s
  | .serverDies => { s with server := .down }

end BxRnic.Exchange
