/-
One queue pair of the library at work, with its completion queue and the
hardware on the other side: the calls `bxroce_post_send`,
`bxroce_post_recv` and `bxroce_poll_cq`, in any order, between each
other and with hardware progress.

# The grain

A post call goes on turn by turn (it holds `q_lock`, so no other post
call starts meanwhile); a poll call goes on round by round. Everything
else may happen between two turns and between two rounds.

# The hardware

- It sends the entries of the send ring from its read pointer up to the
  write pointer, and for each fills the next entry of the `xmit` ring.
- It takes posted receives in order, and fills an entry of the `rx` ring
  for one or several of them.
- It never fills an entry that has not been read (the rings do not
  overflow), and takes no receive that is not posted.

A step that is not possible leaves the state; a division by zero ends
the process.
-/
import BxRnic.User.PostSend
import BxRnic.User.PostRecv
import BxRnic.User.PollCq

namespace BxRnic.User

/-- The state of the queue pair's world. -/
structure Sys where
  qp : Qp
  cq : Cq
  regs : Regs
  /-- What is left of the list of a `bxroce_post_send` that is going
  on. -/
  sending : List SendWr
  /-- The same for `bxroce_post_recv`. -/
  receiving : List RecvWr
  /-- The hardware's write pointer into the `xmit` ring. -/
  xmitWp : Nat
  /-- The hardware's write pointer into the `rx` ring. -/
  rxWp : Nat
  /-- The receives that messages have taken. -/
  arrived : Nat
  /-- The signaled requests that were accepted, by their ids. -/
  accepted : List U64
  /-- The receives that were accepted. -/
  posted : List U64
  /-- The completions that were delivered. -/
  delivered : List (Queue × U64)
  /-- The process has ended. -/
  dead : Bool

/-- What can happen. -/
inductive SysEvent
  | postSend (wrs : List SendWr)
  | sendTurn (mrList : List MrSgInfo) (reply : Option SgPhyInfo)
  | postRecv (wrs : List RecvWr)
  | recvTurn (mrList : List MrSgInfo)
  | xmit (cqe : Xmitcqe)
  | arrive (receives : Nat) (cqe : Rxcqe)
  | pollRound (ibwc : Nat → Wc)

-- ================================================================ the calls

/-- A turn of the `bxroce_post_send` that is going on. -/
def Sys.sendTurn (s : Sys) (mrList : List MrSgInfo)
    (reply : Option SgPhyInfo) : Sys :=
  match s.sending with
  | [] => s
  | wr :: wrs =>
      let (turn, qp, regs) := postSendTurn mrList s.qp s.regs wr reply
      { s with
        qp := qp
        regs := regs
        sending :=
          match turn with
          | .next => wrs
          | .again => wr :: wrs
          | .stop _ => []
        accepted :=
          if turn = .next ∧ wr.isSignaled s.qp then
            s.accepted ++ [wr.wrId]
          else s.accepted }

/-- A turn of the `bxroce_post_recv` that is going on. -/
def Sys.recvTurn (s : Sys) (mrList : List MrSgInfo) : Sys :=
  match s.receiving with
  | [] => s
  | wr :: wrs =>
      let (status, qp, regs) := postRecvTurn mrList s.qp s.regs wr
      { s with
        qp := qp
        regs := regs
        receiving := if status = 0 then wrs else []
        posted := if status = 0 then s.posted ++ [wr.wrId] else s.posted }

/-- A round of a `bxroce_poll_cq`, writing to the array from `ibwc`
on. -/
def Sys.pollRound (s : Sys) (ibwc : Nat → Wc) : Sys :=
  if s.cq.xmit.head.valid = false ∧ s.cq.rx.head.valid = false then s
  else
    match Poll.round
        { cq := s.cq, qp := s.qp, numEntries := 1, i := 0
          ibwc := ibwc, written := [] } with
    | none => { s with dead := true }
    | some p =>
        { s with
          cq := p.cq
          qp := p.qp
          delivered := s.delivered ++ ids p.written }

-- ============================================================= the hardware

/-- The next entry of the send ring is sent. -/
def Sys.xmit (s : Sys) (cqe : Xmitcqe) : Sys :=
  if s.regs.sqRp = s.regs.sqWp ∨ cqe.valid = false
      ∨ (s.cq.xmit.entry s.xmitWp).valid = true then s
  else
    { s with
      regs :=
        { s.regs with sqRp := (s.regs.sqRp + 1) % s.qp.sq.maxCnt }
      cq := { s.cq with xmit := s.cq.xmit.produce s.xmitWp cqe }
      xmitWp := (s.xmitWp + 1) % cqEntries }

/-- Messages take `receives` of the posted receives. -/
def Sys.arrive (s : Sys) (receives : Nat) (cqe : Rxcqe) : Sys :=
  if s.posted.length < s.arrived + receives ∨ cqe.valid = false
      ∨ (s.cq.rx.entry s.rxWp).valid = true then s
  else
    { s with
      arrived := s.arrived + receives
      cq := { s.cq with rx := s.cq.rx.produce s.rxWp cqe }
      rxWp := (s.rxWp + 1) % cqEntries }

-- ================================================================ the steps

/-- The state after an event. -/
def Sys.step (s : Sys) (e : SysEvent) : Sys :=
  if s.dead = true then s
  else
    match e with
    | .postSend wrs =>
        if s.sending = [] ∧ s.receiving = []
            ∧ postSendAllowed s.qp.qpState = true then
          { s with sending := wrs }
        else s
    | .sendTurn mrList reply => s.sendTurn mrList reply
    | .postRecv wrs =>
        if s.sending = [] ∧ s.receiving = []
            ∧ postRecvAllowed s.qp.qpState = true then
          { s with receiving := wrs }
        else s
    | .recvTurn mrList => s.recvTurn mrList
    | .xmit cqe => s.xmit cqe
    | .arrive receives cqe => s.arrive receives cqe
    | .pollRound ibwc => s.pollRound ibwc

/-- A new completion queue: its memory is cleared. -/
def Cq.new : Cq where
  tx := ⟨fun _ => .zero, 0, by decide⟩
  rx := ⟨fun _ => .zero, 0, by decide⟩
  xmit := ⟨fun _ => .zero, 0, by decide⟩
  phase := 0

/-- A new queue pair, past RESET→INIT, in some state and with some
attributes, and its new completion queue. -/
def Sys.start (c : CreateQp) (qpState : QpState) (attr : QpChangeInfo) :
    Sys where
  qp :=
    { (qpStateMachine (createQp c) .init).2 with
      qpState := qpState, attr := attr }
  cq := .new
  regs := ⟨0, 0, 0⟩
  sending := []
  receiving := []
  xmitWp := 0
  rxWp := 0
  arrived := 0
  accepted := []
  posted := []
  delivered := []
  dead := false

end BxRnic.User
