/-
One kernel queue pair at work: the calls `bxroce_post_send` and
`bxroce_post_recv`, turn by turn, between hardware progress on both
rings.

The hardware consumes entries of a ring one by one, from its read pointer
on and no further than the doorbell was rung. It may do so between any
two turns. Within a turn it makes no difference when: what the turn reads
of the hardware's is the write pointer alone.
-/
import BxRnic.Kernel.ModifyQp
import BxRnic.Kernel.Resources
import BxRnic.Kernel.PostRecv

namespace BxRnic.Kernel

/-- `MAX_RQE` -/
def maxRqe : Nat := 256

/-- `bxroce_hw_create_qp`, the sizes of the rings. -/
def hwCreateQp (qp : Qp) : Qp :=
  { qp with
    sq :=
      { qp.sq with
        maxCnt := maxQpWr * maxSge, maxWqeIdx := maxQpWr * maxSge - 1 }
    rq := { qp.rq with maxCnt := maxRqe, maxWqeIdx := maxRqe - 1 } }

/-- The state of the queue pair's world. -/
structure Sys where
  qp : Qp
  /-- The send ring, as the hardware knows it. -/
  sqHw : Doorbell
  /-- The receive ring, as the hardware knows it. -/
  rqHw : Doorbell
  /-- What is left of the list of a `bxroce_post_send` that is going
  on. -/
  sending : List SendWr
  /-- The same for `bxroce_post_recv`. -/
  receiving : List RecvWr

/-- What can happen. -/
inductive SysEvent
  | postSend (wrs : List SendWr)
  | sendTurn
  | postRecv (wrs : List RecvWr)
  | recvTurn
  | sqConsume
  | rqConsume

/-- A call of `bxroce_post_send`, up to its loop. -/
def Sys.postSend (s : Sys) (wrs : List SendWr) : Sys :=
  let (allowed, qp) := postSendStart s.qp s.sqHw
  { s with qp := qp, sending := if allowed then wrs else [] }

/-- A turn of the `bxroce_post_send` that is going on. -/
def Sys.sendTurn (s : Sys) : Sys :=
  match s.sending with
  | [] => s
  | wr :: wrs =>
      let (status, qp, hw) := postSendTurn s.qp s.sqHw wr
      { s with
        qp := qp, sqHw := hw, sending := if status = 0 then wrs else [] }

/-- A call of `bxroce_post_recv`, up to its loop. -/
def Sys.postRecv (s : Sys) (wrs : List RecvWr) : Sys :=
  let (allowed, qp) := postRecvStart s.qp s.rqHw
  { s with qp := qp, receiving := if allowed then wrs else [] }

/-- A turn of the `bxroce_post_recv` that is going on. -/
def Sys.recvTurn (s : Sys) : Sys :=
  match s.receiving with
  | [] => s
  | wr :: wrs =>
      let (status, qp, hw) := postRecvTurn s.qp s.rqHw wr
      { s with
        qp := qp, rqHw := hw
        receiving := if status = 0 then wrs else [] }

/-- The state after an event. A call waits for `q_lock` until the one
before it has returned. -/
def Sys.step (s : Sys) : SysEvent → Sys
  | .postSend wrs =>
      if s.sending = [] ∧ s.receiving = [] then s.postSend wrs else s
  | .sendTurn => s.sendTurn
  | .postRecv wrs =>
      if s.sending = [] ∧ s.receiving = [] then s.postRecv wrs else s
  | .recvTurn => s.recvTurn
  | .sqConsume => { s with sqHw := s.sqHw.consume }
  | .rqConsume => { s with rqHw := s.rqHw.consume }

/-- A queue pair, created and past RESET→INIT, in some state, and a
hardware that has seen no entry of it. -/
def Sys.start (qp : Qp) (qpState : QpState) : Sys where
  qp :=
    { (qpStateChange { hwCreateQp qp with qpState := .rst } .init).2 with
      qpState := qpState }
  sqHw := ⟨0, 0⟩
  rqHw := ⟨0, 0⟩
  sending := []
  receiving := []

end BxRnic.Kernel
