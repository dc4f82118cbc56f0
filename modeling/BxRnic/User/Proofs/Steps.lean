/-
The steps of a queue pair at work, taken apart: what a turn of a post
call and a round of a poll call leave alone, and what a round takes. The
results about send completions and about receive completions read the
steps off these lemmas.

A whole `bxroce_poll_cq` is a run of rounds (`poll_rounds`), so what
holds after every step holds after every call.
-/
import BxRnic.User.System
import BxRnic.User.Proofs.PollCq
import BxRnic.User.Proofs.SendTurn
import BxRnic.Lib.Run

namespace BxRnic.User

open Run

-- ========================================================= completions

/-- The completions of one of the two queues. -/
def ofQueue (queue : Queue) (cs : List (Queue × U64)) : List U64 :=
  (cs.filter fun c => c.1 = queue).map Prod.snd

@[simp] theorem ofQueue_nil (queue : Queue) : ofQueue queue [] = [] := rfl

@[simp] theorem ofQueue_append (queue : Queue)
    (cs cs' : List (Queue × U64)) :
    ofQueue queue (cs ++ cs') = ofQueue queue cs ++ ofQueue queue cs' := by
  simp [ofQueue]

/-- What the id table has a send entry owe. -/
def owed (tbl : Nat → WqeWrId) (slot : Nat) : List U64 :=
  if (tbl slot).signaled then [(tbl slot).wrid] else []

@[simp] theorem ofQueue_send_sendIds (tbl : Nat → WqeWrId) (tail : Nat) :
    ofQueue .send (sendIds tbl tail) = owed tbl tail := by
  unfold sendIds owed
  split
  · rfl
  · rfl

@[simp] theorem ofQueue_recv_sendIds (tbl : Nat → WqeWrId) (tail : Nat) :
    ofQueue .recv (sendIds tbl tail) = [] := by
  unfold sendIds
  split
  · rfl
  · rfl

@[simp] theorem ofQueue_send_recvIds (tbl : Nat → U64) (k : Nat) :
    ∀ q : HwqInfo, ofQueue .send (recvIds tbl q k) = [] := by
  induction k with
  | zero => exact fun _ => rfl
  | succ k ih => exact fun q => ih (hwqIncRqtail q)

@[simp] theorem ofQueue_recv_recvIds (tbl : Nat → U64) (k : Nat) :
    ∀ q : HwqInfo, ofQueue .recv (recvIds tbl q k)
      = (recvIds tbl q k).map Prod.snd := by
  induction k with
  | zero => exact fun _ => rfl
  | succ k ih =>
      exact fun q => congrArg (List.cons (tbl q.tail))
        (ih (hwqIncRqtail q))

/-- The send part of a round delivers nothing for the receive queue. -/
theorem XmitTaken.ofQueue_recv {cq : Cq} {qp : Qp}
    {xmit : FlagRing cqEntries Xmitcqe} {sq : HwqInfo}
    {cs : List (Queue × U64)} (h : XmitTaken cq qp xmit sq cs) :
    ofQueue .recv cs = [] := by
  cases h with
  | idle _ => rfl
  | taken _ _ => exact ofQueue_recv_sendIds _ _

/-- The receive part of a round delivers nothing for the send queue. -/
theorem RxTaken.ofQueue_send {cq : Cq} {qp : Qp}
    {rx : FlagRing cqEntries Rxcqe} {phase : U32} {rq : HwqInfo}
    {cs : List (Queue × U64)} (h : RxTaken cq qp rx phase rq cs) :
    ofQueue .send cs = [] := by
  cases h with
  | idle _ => rfl
  | taken _ _ => exact ofQueue_send_recvIds _ _ _

-- ============================================================== the frames

/-- Posting a receive leaves the send side. -/
theorem postRecvTurn_send (mrList : List MrSgInfo) (qp : Qp)
    (regs : Regs) (wr : RecvWr) :
    (postRecvTurn mrList qp regs wr).2.1.sq = qp.sq
      ∧ (postRecvTurn mrList qp regs wr).2.1.wqeWrIdTbl = qp.wqeWrIdTbl
      ∧ (postRecvTurn mrList qp regs wr).2.2.sqWp = regs.sqWp
      ∧ (postRecvTurn mrList qp regs wr).2.2.sqRp = regs.sqRp := by
  have hloop : ∀ (sgList : List Sge) (qp : Qp) (i : Nat),
      (buildRqsgesLoop mrList wr qp i sgList).sq = qp.sq
        ∧ (buildRqsgesLoop mrList wr qp i sgList).wqeWrIdTbl
          = qp.wqeWrIdTbl := by
    intro sgList
    induction sgList with
    | nil => exact fun _ _ => ⟨rfl, rfl⟩
    | cons sge sgList ih =>
        intro qp i
        obtain ⟨hsq, htbl⟩ := ih _ (i + 1)
        exact ⟨hsq, htbl⟩
  have hbuild : (buildRqsges mrList qp wr).sq = qp.sq
      ∧ (buildRqsges mrList qp wr).wqeWrIdTbl = qp.wqeWrIdTbl := by
    unfold buildRqsges
    split
    · exact ⟨rfl, rfl⟩
    · exact hloop _ _ _
  have hhead : ∀ qp : Qp, (updateRqHead qp wr).sq = qp.sq
      ∧ (updateRqHead qp wr).wqeWrIdTbl = qp.wqeWrIdTbl := by
    intro qp
    unfold updateRqHead
    split
    · exact ⟨rfl, rfl⟩
    · exact ⟨rfl, rfl⟩
  unfold postRecvTurn
  simp only
  split
  · exact ⟨rfl, rfl, rfl, rfl⟩
  · split
    · exact ⟨rfl, rfl, rfl, rfl⟩
    · exact ⟨(hhead _).1.trans hbuild.1, (hhead _).2.trans hbuild.2,
        rfl, rfl⟩

/-- Posting a send leaves the receive side. -/
theorem postSendTurn_recv (mrList : List MrSgInfo) (qp : Qp)
    (regs : Regs) (wr : SendWr) (reply : Option SgPhyInfo) :
    (postSendTurn mrList qp regs wr reply).2.1.rq = qp.rq
      ∧ (postSendTurn mrList qp regs wr reply).2.1.rqeWrIdTbl
        = qp.rqeWrIdTbl := by
  have hsends : ∀ {sq : HwqInfo} {tbl : Nat → WqeWrId} {qp' : Qp},
      qp.Sends sq tbl qp' →
      qp'.rq = qp.rq ∧ qp'.rqeWrIdTbl = qp.rqeWrIdTbl := by
    rintro sq tbl qp' ⟨_, _, _, _, rfl⟩
    exact ⟨rfl, rfl⟩
  have hturn := postSendTurn_cases mrList qp regs wr reply
  generalize postSendTurn mrList qp regs wr reply = r at hturn
  cases hturn with
  | next _ _ htakes => exact hsends htakes
  | again _ =>
      unfold initSqPtr
      split
      · exact ⟨rfl, rfl⟩
      · exact ⟨rfl, rfl⟩
  | stop h _ => exact hsends h

-- ================================================================ polling

/-- A round finds nothing, ends the process, or takes from the rings. -/
inductive Sys.Polled (s : Sys) : Sys → Prop
  | idle : Sys.Polled s s
  | dies : Sys.Polled s { s with dead := true }
  | took {tx : FlagRing cqEntries Txcqe}
      {xmit : FlagRing cqEntries Xmitcqe}
      {rx : FlagRing cqEntries Rxcqe} {phase : U32} {sq rq : HwqInfo}
      {cs cs' : List (Queue × U64)} :
      XmitTaken s.cq s.qp xmit sq cs →
      RxTaken s.cq s.qp rx phase rq cs' →
      Sys.Polled s
        { s with
          cq := ⟨tx, rx, xmit, phase⟩
          qp := { s.qp with sq := sq, rq := rq }
          delivered := s.delivered ++ (cs ++ cs') }

theorem Sys.pollRound_polled (s : Sys) (ibwc : Nat → Wc) :
    s.Polled (s.pollRound ibwc) := by
  unfold Sys.pollRound
  split
  · exact .idle
  · cases hround : Poll.round
        { cq := s.cq, qp := s.qp, numEntries := 1, i := 0
          ibwc := ibwc, written := [] } with
    | none => exact .dies
    | some p =>
        obtain ⟨tx, xmit, rx, phase, sq, rq, cs, cs', hxmit, hrx, hcq,
          hqp, hids⟩ := round_taken hround
        simp only [hcq, hqp, hids, ids_nil, List.nil_append]
        exact .took hxmit hrx

/-- The state a poll call leaves behind. -/
def Sys.polled (s : Sys) (p : Poll) : Sys :=
  { s with
    cq := p.cq, qp := p.qp, delivered := s.delivered ++ ids p.written }

/-- A round of a call is a round from the state the call has got to. -/
theorem Sys.step_pollRound (s : Sys) (hlive : s.dead = false)
    {e p : Poll} (hround : e.round = some p)
    (hvalid : e.cq.xmit.head.valid = true
      ∨ e.cq.rx.head.valid = true) :
    (s.polled e).step
        (.pollRound fun j => e.ibwc (e.written.length + j))
      = s.polled p := by
  -- the call so far, and the round on its own
  let before : Poll := { e with numEntries := e.numEntries - 1 }
  let alone : Poll :=
    { cq := e.cq, qp := e.qp, numEntries := 1, i := 0
      ibwc := fun j => e.ibwc (e.written.length + j), written := [] }
  have hjoin : before.join alone = e := by
    simp [Poll.join, before, alone]
  have hsplit := join_round (e := before) (s := alone) rfl
  rw [hjoin, hround] at hsplit
  obtain ⟨q, hq, hp⟩ := Option.map_eq_some_iff.1 hsplit.symm
  have hgo : ¬ (e.cq.xmit.head.valid = false
      ∧ e.cq.rx.head.valid = false) := by
    rintro ⟨hx, hr⟩
    rw [hx, hr] at hvalid
    simp at hvalid
  have hids : ids p.written = ids e.written ++ ids q.written := by
    rw [← hp]
    exact ids_append e.written q.written
  have hcq : p.cq = q.cq := by
    rw [← hp]
    rfl
  have hqp : p.qp = q.qp := by
    rw [← hp]
    rfl
  unfold Sys.step Sys.polled
  simp only [hlive, Bool.false_eq_true, if_false]
  unfold Sys.pollRound
  rw [if_neg hgo]
  have hq' : Poll.round
      { cq := e.cq, qp := e.qp, numEntries := 1, i := 0
        ibwc := fun j => e.ibwc (e.written.length + j), written := [] }
      = some q := hq
  simp only [hq', hids, hcq, hqp, List.append_assoc]

/-- A `bxroce_poll_cq` that returns is a run of rounds. -/
theorem poll_rounds (s : Sys) (hlive : s.dead = false) (numEntries : Int)
    (ibwc : Nat → Wc) {p : Poll}
    (hcall : pollHwcq s.cq s.qp numEntries ibwc = some p) :
    ∃ arrays : List (Nat → Wc),
      exec Sys.step s (arrays.map SysEvent.pollRound) = s.polled p := by
  have hloop : ∀ (fuel : Nat) {e : Poll}, pollLoop fuel e = some p →
      ∃ arrays : List (Nat → Wc),
        exec Sys.step (s.polled e) (arrays.map SysEvent.pollRound)
          = s.polled p := by
    intro fuel
    induction fuel with
    | zero => exact fun h => absurd h (by simp [pollLoop])
    | succ fuel ih =>
        intro e h
        cases hstops : e.stops with
        | true =>
            rw [pollLoop_of_stops hstops] at h
            obtain rfl := Option.some.inj h
            exact ⟨[], rfl⟩
        | false =>
            rw [pollLoop_of_not_stops hstops] at h
            obtain ⟨e', hround, hrest⟩ := Option.bind_eq_some_iff.1 h
            obtain ⟨arrays, hrun⟩ := ih hrest
            refine ⟨(fun j => e.ibwc (e.written.length + j)) :: arrays,
              ?_⟩
            rw [List.map_cons, exec_cons, s.step_pollRound hlive hround
              (Poll.valid_of_not_stops hstops).2]
            exact hrun
  obtain ⟨arrays, hrun⟩ := hloop _ hcall
  refine ⟨arrays, Eq.trans ?_ hrun⟩
  congr 1
  unfold Sys.polled
  simp

end BxRnic.User
