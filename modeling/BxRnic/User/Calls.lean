/-
The two post calls of the library as their callers see them
(libbxroce/bxroce_verbs.c): a chain of requests goes in, a status and
`*bad_wr` come out.

A call takes `q_lock`, so it starts when no other post call is going on;
from there to its end the run goes on event by event, and the turns of
the loop are among the events.

The loops leave `*bad_wr` to each `break` of theirs. All of them set it,
but the one behind `bxroce_check_foe`.
-/
import BxRnic.User.System
import BxRnic.Lib.Chain

namespace BxRnic.User

open Chain

/-- `q_lock` can be taken. -/
def Sys.Idle (s : Sys) : Prop :=
  s.sending = [] ∧ s.receiving = [] ∧ s.dead = false

instance (s : Sys) : Decidable s.Idle :=
  inferInstanceAs (Decidable (_ ∧ _ ∧ _))

-- ============================================================= post_send

/-- Whether a turn of the loop of `bxroce_post_send` that ends the loop
has set `*bad_wr`. -/
def postSendMarks (qp : Qp) (wr : SendWr) : Bool :=
  if qp.qpType = .ud ∧ wr.opcode ≠ .send ∧ wr.opcode ≠ .sendWithImm then
    true
  else
    let freeCnt := sqhwqFreeCnt qp.sq
    if freeCnt = 0 ∨ wr.numSge > qp.sq.maxSges then true
    else if freeCnt ≤ wr.numSge then true
    else decide (checkFoe wr.numSge freeCnt = 0)

/-- What an event is to a `bxroce_post_send` that has come to `wr`. -/
def Sys.sendExit (s : Sys) (wr : SendWr) : SysEvent → Exit
  | .sendTurn mrList reply =>
      if s.dead = true then .again
      else
        match (postSendTurn mrList s.qp s.regs wr reply).1 with
        | .next => .next
        | .again => .again
        | .stop status => .stop status (postSendMarks s.qp wr)
  | _ => .again

/-- `bxroce_post_send`: what its caller gets, along the events from the
call on. `none` is a call that has not come back, or waits for the
lock. -/
def Sys.postSendCall (s : Sys) (wrs : List SendWr)
    (events : List SysEvent) : Option (Outcome Sys SendWr SysEvent) :=
  if s.Idle then
    call Sys.step Sys.sendExit (postSendAllowed s.qp.qpState) EINVAL
      events wrs (s.step (.postSend wrs))
  else none

-- ============================================================= post_recv

/-- Whether a turn of the loop of `bxroce_post_recv` that ends the loop
has set `*bad_wr`. -/
def postRecvMarks (qp : Qp) (wr : RecvWr) : Bool :=
  let freeCnt := rqhwqFreeCnt qp.rq
  if freeCnt = 0 ∨ wr.numSge > qp.rq.maxSges then true
  else decide (checkFoe wr.numSge freeCnt = 0)

/-- What an event is to a `bxroce_post_recv` that has come to `wr`. -/
def Sys.recvExit (s : Sys) (wr : RecvWr) : SysEvent → Exit
  | .recvTurn mrList =>
      if s.dead = true then .again
      else
        let status := (postRecvTurn mrList s.qp s.regs wr).1
        if status = 0 then .next
        else .stop status (postRecvMarks s.qp wr)
  | _ => .again

/-- `bxroce_post_recv` -/
def Sys.postRecvCall (s : Sys) (wrs : List RecvWr)
    (events : List SysEvent) : Option (Outcome Sys RecvWr SysEvent) :=
  if s.Idle then
    call Sys.step Sys.recvExit (postRecvAllowed s.qp.qpState) EINVAL
      events wrs (s.step (.postRecv wrs))
  else none

end BxRnic.User
