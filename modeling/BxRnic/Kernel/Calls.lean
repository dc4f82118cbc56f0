/-
The two post calls of the driver as their callers see them
(bx_roce_driver/bxroce_verbs.c). As in the library every `break` of the
loops sets `*bad_wr`, but the one behind `bxroce_check_foe`.
-/
import BxRnic.Kernel.System
import BxRnic.Lib.Chain

namespace BxRnic.Kernel

open Chain

/-- `q_lock` can be taken. -/
def Sys.Idle (s : Sys) : Prop := s.sending = [] ∧ s.receiving = []

instance (s : Sys) : Decidable s.Idle :=
  inferInstanceAs (Decidable (_ ∧ _))

-- ============================================================= post_send

/-- Whether a turn of the loop of `bxroce_post_send` that ends the loop
has set `*bad_wr`. -/
def postSendMarks (qp : Qp) (wr : SendWr) : Bool :=
  if qp.qpType = .ud ∧ wr.opcode ≠ .send ∧ wr.opcode ≠ .sendWithImm then
    true
  else
    let freeCnt := hwqFreeCnt qp.sq
    if freeCnt = 0 ∨ wr.numSge > qp.sq.maxSges then true
    else decide (checkFoe wr.numSge freeCnt = 0)

/-- What an event is to a `bxroce_post_send` that has come to `wr`. -/
def Sys.sendExit (s : Sys) (wr : SendWr) : SysEvent → Exit
  | .sendTurn =>
      let status := (postSendTurn s.qp s.sqHw wr).1
      if status = 0 then .next
      else .stop status (postSendMarks s.qp wr)
  | _ => .again

/-- `bxroce_post_send`: what its caller gets, along the events from the
call on. -/
def Sys.postSendCall (s : Sys) (wrs : List SendWr)
    (events : List SysEvent) : Option (Outcome Sys SendWr SysEvent) :=
  if s.Idle then
    call Sys.step Sys.sendExit (postSendAllowed s.qp.qpState) (-EINVAL)
      events wrs (s.step (.postSend wrs))
  else none

-- ============================================================= post_recv

/-- Whether a turn of the loop of `bxroce_post_recv` that ends the loop
has set `*bad_wr`. -/
def postRecvMarks (qp : Qp) (wr : RecvWr) : Bool :=
  let freeCnt := hwqFreeCnt qp.rq
  if freeCnt = 0 ∨ wr.numSge > qp.rq.maxSges then true
  else decide (checkFoe wr.numSge freeCnt = 0)

/-- What an event is to a `bxroce_post_recv` that has come to `wr`. -/
def Sys.recvExit (s : Sys) (wr : RecvWr) : SysEvent → Exit
  | .recvTurn =>
      let status := (postRecvTurn s.qp s.rqHw wr).1
      if status = 0 then .next
      else .stop status (postRecvMarks s.qp wr)
  | _ => .again

/-- `bxroce_post_recv` -/
def Sys.postRecvCall (s : Sys) (wrs : List RecvWr)
    (events : List SysEvent) : Option (Outcome Sys RecvWr SysEvent) :=
  if s.Idle then
    call Sys.step Sys.recvExit (postRecvAllowed s.qp.qpState) (-EINVAL)
      events wrs (s.step (.postRecv wrs))
  else none

end BxRnic.Kernel
