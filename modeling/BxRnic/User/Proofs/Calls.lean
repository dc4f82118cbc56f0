/-
The two post calls of the library keep their contract, turn by turn:
what a turn that takes a request leaves, what a turn that turns one down
leaves, and the conditions under which that is what the caller is
promised.

What goes wrong:

- `bxroce_post_send` takes requests it has no entry for: those with
  neither elements nor immediate data, and reads that cannot be built.
- A request it turns down may find the head moved: by its own entry,
  when that is for immediate data alone, or back to the start of the
  ring.
- `bxroce_post_recv` takes requests without elements, and leaves
  `*bad_wr` as it was when the free entries are too few but not none.
-/
import BxRnic.User.Calls
import BxRnic.User.Proofs.Progress
import BxRnic.User.Proofs.Filling
import BxRnic.User.Proofs.RecvCompletions

namespace BxRnic.User

open Run Chain SlotRing

-- ============================================================== the property

/-- The elements a request asks entries for, with the addresses the
hardware is given. Immediate data on its own asks for one. -/
def SendWr.segments (mrList : List MrSgInfo) (wr : SendWr) : List Sge :=
  if wr.sgList = [] ∧ wr.hasImm then [⟨0, 0, 0⟩]
  else
    wr.sgList.map fun sge =>
      { sge with addr := (localDmaAddr mrList sge.addr).getD 0 }

/-- The element of an entry. -/
def segmentOf (b : WqeBody) : Sge :=
  ⟨b.localaddr, b.dmalen, b.lkey⟩

/-- The element of the entry in a slot of the send ring. -/
def Qp.segment (qp : Qp) (slot : Nat) : Sge := segmentOf (qp.bodies slot)

/-- The request has been posted: built, from the head on, and rung. -/
def SendWr.Posted (wr : SendWr) (mrList : List MrSgInfo) (qp qp' : Qp)
    (regs' : Regs) : Prop :=
  Entered qp.sq.maxCnt qp.sq.head (· % qp.sq.maxCnt) (wr.segments mrList)
    (wr.wqeWrId qp) qp'.segment qp'.wqeWrIdTbl regs'.sqWp qp'.sq.head

/-- The receive has been posted. Its entries are in memory behind each
other. -/
def RecvWr.Posted (wr : RecvWr) (mrList : List MrSgInfo) (qp qp' : Qp)
    (regs' : Regs) : Prop :=
  Entered qp.rq.maxCnt qp.rq.head id (wr.sgList.map (recvRqe mrList))
    wr.wrId qp'.rqVa qp'.rqeWrIdTbl regs'.rqWp qp'.rq.head

/-- The event is a turn that posts the request. -/
def Sys.PostedSend (s : Sys) (wr : SendWr) (e : SysEvent) (s' : Sys) :
    Prop :=
  match e with
  | .sendTurn mrList _ => wr.Posted mrList s.qp s'.qp s'.regs
  | _ => False

/-- The same for a receive. -/
def Sys.PostedRecv (s : Sys) (wr : RecvWr) (e : SysEvent) (s' : Sys) :
    Prop :=
  match e with
  | .recvTurn mrList => wr.Posted mrList s.qp s'.qp s'.regs
  | _ => False

/-- The head of the send queue. -/
def Sys.sqHead (s : Sys) : Nat := s.qp.sq.head

/-- The head of the receive queue. -/
def Sys.rqHead (s : Sys) : Nat := s.qp.rq.head

-- ============================================================ the conditions

/-- The request is taken. -/
def SendWr.Taken (wr : SendWr) (qp : Qp) (reply : Option SgPhyInfo) :
    Prop :=
  wr.Ready qp ∧ ¬ wr.Fails qp reply

instance (wr : SendWr) (qp : Qp) (reply : Option SgPhyInfo) :
    Decidable (wr.Taken qp reply) :=
  inferInstanceAs (Decidable (_ ∧ _))

/-- The request has entries, and they can be built. -/
def SendWr.Postable (wr : SendWr) (qp : Qp) (reply : Option SgPhyInfo) :
    Prop :=
  wr.Buildable qp reply ∧ (wr.sgList ≠ [] ∨ wr.hasImm = true)

instance (wr : SendWr) (qp : Qp) (reply : Option SgPhyInfo) :
    Decidable (wr.Postable qp reply) :=
  inferInstanceAs (Decidable (_ ∧ (_ ∨ _)))

/-- The condition on a turn of `bxroce_post_send`, when the last request
posted left the head at `h`: a request that is taken can be posted, and
one that is turned down finds the head at `h` and does not move it. -/
def Sys.SendKept (h : Nat) (s : Sys) (wr : SendWr) : SysEvent → Prop
  | .sendTurn _ reply =>
      s.dead = false →
        (wr.Taken s.qp reply → wr.Postable s.qp reply)
          ∧ (¬ wr.Taken s.qp reply → ¬ wr.TooLong s.qp →
            h = s.qp.sq.head
              ∧ ¬ (wr.Ready s.qp ∧ wr.SkipsSlot s.qp reply))
  | _ => True

/-- The free entries are too few for the request, but there are some:
`bxroce_check_foe` turns it down. -/
def RecvWr.FailsFoe (wr : RecvWr) (qp : Qp) : Prop :=
  rqhwqFreeCnt qp.rq ≠ 0 ∧ wr.numSge ≤ qp.rq.maxSges
    ∧ rqhwqFreeCnt qp.rq < wr.numSge

instance (wr : RecvWr) (qp : Qp) : Decidable (wr.FailsFoe qp) :=
  inferInstanceAs (Decidable (_ ∧ _ ∧ _))

/-- The condition on a turn of `bxroce_post_recv`: a request that is
taken has elements, and one that is turned down is not turned down by
`bxroce_check_foe`. -/
def Sys.RecvKept (s : Sys) (wr : RecvWr) : SysEvent → Prop
  | .recvTurn _ =>
      s.dead = false →
        (wr.Accepted s.qp → wr.sgList ≠ []) ∧ ¬ wr.FailsFoe s.qp
  | _ => True

instance (h : Nat) (s : Sys) (wr : SendWr) :
    ∀ e : SysEvent, Decidable (s.SendKept h wr e)
  | .sendTurn _ _ => inferInstanceAs (Decidable (_ → (_ → _) ∧ (_ → _)))
  | .pollRound _ => isTrue trivial
  | .postSend _ => isTrue trivial
  | .postRecv _ => isTrue trivial
  | .recvTurn _ => isTrue trivial
  | .xmit _ => isTrue trivial
  | .arrive _ _ => isTrue trivial

instance (s : Sys) (wr : RecvWr) :
    ∀ e : SysEvent, Decidable (s.RecvKept wr e)
  | .recvTurn _ => inferInstanceAs (Decidable (_ → (_ → _) ∧ _))
  | .pollRound _ => isTrue trivial
  | .postSend _ => isTrue trivial
  | .postRecv _ => isTrue trivial
  | .sendTurn _ _ => isTrue trivial
  | .xmit _ => isTrue trivial
  | .arrive _ _ => isTrue trivial

-- ================================================================ the calls

/-- The contract of a call of `bxroce_post_send`. -/
def Sys.SendContract (s : Sys) (wrs : List SendWr)
    (o : Outcome Sys SendWr SysEvent) : Prop :=
  Kept Sys.step Sys.PostedSend Sys.sqHead s.sqHead wrs o

/-- The contract of a call of `bxroce_post_recv`. -/
def Sys.RecvContract (s : Sys) (wrs : List RecvWr)
    (o : Outcome Sys RecvWr SysEvent) : Prop :=
  Kept Sys.step Sys.PostedRecv Sys.rqHead s.rqHead wrs o

/-- The call is turned down by the state of the queue pair, or each turn
of its loop meets the condition. -/
def Sys.SendCallOk (s : Sys) (wrs : List SendWr) (events : List SysEvent) :
    Prop :=
  postSendAllowed s.qp.qpState = true →
    Turns Sys.step Sys.sendExit Sys.SendKept Sys.sqHead s.sqHead
      events wrs { s with sending := wrs }

/-- The same for a call of `bxroce_post_recv`. -/
def Sys.RecvCallOk (s : Sys) (wrs : List RecvWr) (events : List SysEvent) :
    Prop :=
  postRecvAllowed s.qp.qpState = true →
    Turns Sys.step Sys.recvExit (fun _ => Sys.RecvKept) Sys.rqHead
      s.rqHead events wrs { s with receiving := wrs }

instance (s : Sys) (wrs : List SendWr) (events : List SysEvent) :
    Decidable (s.SendCallOk wrs events) :=
  inferInstanceAs (Decidable (_ → _))

instance (s : Sys) (wrs : List RecvWr) (events : List SysEvent) :
    Decidable (s.RecvCallOk wrs events) :=
  inferInstanceAs (Decidable (_ → _))

-- ============================================================ a turn of sends

theorem length_segments (mrList : List MrSgInfo) (wr : SendWr) :
    (wr.segments mrList).length = (wr.bodies mrList).length := by
  rw [length_bodies]
  unfold SendWr.segments
  split
  · rfl
  · exact List.length_map _

/-- No entries are asked for just when there is nothing to send. -/
theorem segments_eq_nil {mrList : List MrSgInfo} {wr : SendWr} :
    wr.segments mrList = [] ↔ wr.sgList = [] ∧ wr.hasImm = false := by
  unfold SendWr.segments
  cases himm : wr.hasImm with
  | true =>
      by_cases hnil : wr.sgList = []
      · simp [hnil]
      · simp [hnil]
  | false => simp

/-- The elements of the entries' bodies. -/
theorem bodies_segment (mrList : List MrSgInfo) (wr : SendWr) :
    (wr.bodies mrList).map segmentOf = wr.segments mrList := by
  have hstart : wr.startBody.localaddr = 0 ∧ wr.startBody.dmalen = 0
      ∧ wr.startBody.lkey = 0 := by
    unfold SendWr.startBody
    split
    · exact ⟨rfl, rfl, rfl⟩
    · exact ⟨rfl, rfl, rfl⟩
    · exact ⟨rfl, rfl, rfl⟩
  obtain ⟨haddr, hlen, hkey⟩ := hstart
  unfold SendWr.bodies SendWr.segments
  split
  · show [(⟨_, _, _⟩ : Sge)] = _
    rw [haddr, hlen, hkey]
  · cases wr.sgList with
    | nil => rfl
    | cons sge sgList =>
        rw [elementBodies, List.map_cons, List.map_cons, List.map_map]
        congr 1
        show (⟨(localDmaAddr mrList sge.addr).getD _, _, _⟩ : Sge) = _
        rw [haddr]
        rfl

/-- The entries of a request that is about to be built end in front of
the last. -/
theorem SendWr.Ready.segments_room {wr : SendWr} {qp : Qp}
    (h : wr.Ready qp) (hroomy : qp.sq.Roomy) (mrList : List MrSgInfo) :
    qp.sq.head + (wr.segments mrList).length < qp.sq.maxCnt := by
  have hfree := h.2
  have hcnt := hroomy.1
  unfold sqhwqFreeCnt at hfree
  rw [length_segments, length_bodies]
  split
  · omega
  · omega

/-- A request that is taken is posted just when it can be. -/
theorem SendWr.Taken.posted_iff {mrList : List MrSgInfo} {qp : Qp}
    {regs : Regs} {wr : SendWr} {reply : Option SgPhyInfo}
    (hroomy : qp.sq.Roomy) (h : wr.Taken qp reply) :
    wr.Posted mrList qp (postSendTurn mrList qp regs wr reply).2.1
        (postSendTurn mrList qp regs wr reply).2.2
      ↔ wr.Postable qp reply := by
  obtain ⟨hready, hok⟩ := h
  have hroom := hready.room hroomy
  have hshort := hready.segments_room hroomy mrList
  have hqp := postSendTurn_ready_qp hready mrList regs reply
  have hnext := postSendTurn_accepts hready hok mrList regs
  have hturn := postSendTurn_cases mrList qp regs wr reply
  generalize postSendTurn mrList qp regs wr reply = r
    at hqp hnext hturn
  cases hturn with
  | again _ => cases hnext
  | stop _ _ => cases hnext
  | @next qp' _ _ htakes =>
      dsimp only at hqp ⊢
      have hhead := congrArg HwqInfo.head htakes.sq_eq
      rw [HwqInfo.advance_eq hroom] at hhead
      dsimp only at hhead
      by_cases hbuildable : wr.Buildable qp reply
      case neg =>
        -- a read whose entries are missing
        refine iff_of_false (fun hposted => ?_) fun h => hbuildable h.1
        have hpos := List.length_pos_of_ne_nil hposted.some
        have hmoved := hposted.moved
        rw [hhead, wr.entries_of_not_buildable hok hbuildable,
          Nat.mod_eq_of_lt hshort] at hmoved
        omega
      have hlength : (wr.segments mrList).length = wr.entries qp := by
        rw [length_segments, hbuildable.length_bodies]
      by_cases hnone : wr.segments mrList = []
      · refine iff_of_false (fun h => h.some hnone) fun h => ?_
        obtain ⟨hnil, himm⟩ := segments_eq_nil.1 hnone
        rcases h.2 with hsome | hsome
        · exact hsome hnil
        · rw [himm] at hsome
          cases hsome
      have hpos := List.length_pos_of_ne_nil hnone
      have hpostable : wr.Postable qp reply := by
        refine ⟨hbuildable, ?_⟩
        rw [segments_eq_nil, not_and_or, Bool.not_eq_false] at hnone
        exact hnone
      refine iff_of_true ⟨hnone, fun i hi => ?_, fun i hi => ?_, ?_, ?_⟩
        hpostable
      · have hi' : i < (wr.bodies mrList).length := by
          rwa [← length_segments]
        have hfilled := @buildWr_filled mrList qp wr reply hbuildable
          hroom i hi'
        rw [← hqp] at hfilled
        show segmentOf (qp'.bodies ((qp.sq.head + i) % qp.sq.maxCnt)) = _
        rw [Nat.mod_eq_of_lt (by omega), hfilled]
        simp only [← bodies_segment, List.getElem_map]
      · rw [htakes.tbl_eq, Nat.mod_eq_of_lt (by omega),
          recordSlots_eq _ hroom, if_pos (by omega)]
      · rw [hhead, hlength, Nat.mod_eq_of_lt hroom]
      · have hrung : ¬ (wr.numSge = 0 ∧ wr.opcode ≠ .rdmaWriteWithImm
            ∧ wr.opcode ≠ .sendWithImm) := by
          intro hnot
          rw [wr.entries_of_not_rung qp hnot] at hlength
          omega
        unfold ringSqHw
        rw [if_neg hrung]
        show qp'.sq.head % qp.sq.maxCnt = qp'.sq.head
        rw [hhead, Nat.mod_eq_of_lt hroom]

/-- A request that is neither taken nor put off is turned down, with a
status. -/
theorem postSendTurn_turnedDown {qp : Qp} {wr : SendWr}
    {reply : Option SgPhyInfo} (hroomy : qp.sq.Roomy)
    (htaken : ¬ wr.Taken qp reply) (hlong : ¬ wr.TooLong qp)
    (mrList : List MrSgInfo) (regs : Regs) :
    (∃ status, (postSendTurn mrList qp regs wr reply).1 = .stop status)
      ∧ ((postSendTurn mrList qp regs wr reply).2.1.sq.head = qp.sq.head
        ↔ ¬ (wr.Ready qp ∧ wr.SkipsSlot qp reply)) := by
  have hskips : wr.Ready qp → wr.SkipsSlot qp reply →
      (postSendTurn mrList qp regs wr reply).2.1.sq.head
        ≠ qp.sq.head := by
    rintro hready ⟨hnil, hinline, hop⟩
    have hbare : wr.BareImm qp reply := by
      refine ⟨hnil, hinline, hop.imp And.left fun h => ?_⟩
      exact ⟨h.1, h.2.2⟩
    have hfree := hready.2
    have hcnt := hroomy.1
    unfold sqhwqFreeCnt at hfree
    rw [postSendTurn_ready_qp hready, buildWr_bareImm hbare]
    show (qp.sq.head + 1) % qp.sq.maxCnt ≠ qp.sq.head
    rw [Nat.mod_eq_of_lt (by omega)]
    omega
  have hturn := postSendTurn_cases mrList qp regs wr reply
  generalize postSendTurn mrList qp regs wr reply = r at hturn hskips
  cases hturn with
  | next hready hok _ => exact absurd ⟨hready, hok⟩ htaken
  | again h => exact absurd h hlong
  | stop hsends hkeeps =>
      refine ⟨⟨_, rfl⟩, fun h hskip => hskips hskip.1 hskip.2 h,
        fun hskip => ?_⟩
      rw [hsends.sq_eq, hkeeps hskip]

/-- The status is never 0. -/
theorem postSendTurn_stop_ne {mrList : List MrSgInfo} {qp : Qp}
    {regs : Regs} {wr : SendWr} {reply : Option SgPhyInfo} {status : Int}
    (h : (postSendTurn mrList qp regs wr reply).1 = .stop status) :
    status ≠ 0 := by
  unfold postSendTurn at h
  split at h
  · obtain rfl := Turn.stop.inj h
    exact einval_ne_zero
  dsimp only at h
  split at h
  · obtain rfl := Turn.stop.inj h
    exact enomem_ne_zero
  split at h
  · cases h
  split at h
  · rename_i hfoe
    obtain rfl := Turn.stop.inj h
    exact hfoe
  split at h
  · rename_i hbuild
    obtain rfl := Turn.stop.inj h
    exact hbuild
  · cases h

/-- `bxroce_post_send` sets `*bad_wr` at every exit it takes: the test of
`bxroce_check_foe` has been made before. -/
theorem postSendMarks_eq (qp : Qp) (wr : SendWr) :
    postSendMarks qp wr = true := by
  unfold postSendMarks
  split
  · rfl
  dsimp only
  split
  · rfl
  split
  · rfl
  · rename_i hroom
    apply decide_eq_true
    unfold checkFoe
    rw [if_neg (by omega)]

-- ============================================================ a turn of receives

/-- A receive that is taken is posted just when it has elements. -/
theorem RecvWr.Accepted.posted_iff {qp : Qp} {wr : RecvWr}
    (h : wr.Accepted qp) (mrList : List MrSgInfo) (regs : Regs) :
    wr.Posted mrList qp (postRecvTurn mrList qp regs wr).2.1
        (postRecvTurn mrList qp regs wr).2.2
      ↔ wr.sgList ≠ [] := by
  rw [postRecvTurn_accepted (postRecvTurn_ok mrList regs h)]
  by_cases hnil : wr.sgList = []
  · refine iff_of_false (fun hposted => hposted.some ?_) (not_not.2 hnil)
    rw [hnil]
    rfl
  have hnum : wr.numSge ≠ 0 := mt List.eq_nil_of_length_eq_zero hnil
  have hbuild : buildRqsges mrList qp wr
      = buildRqsgesLoop mrList wr qp 0 wr.sgList := if_neg hnil
  rw [hbuild, buildRqsgesLoop_eq, updateRqHead, if_neg hnum]
  have hlength : (wr.sgList.map (recvRqe mrList)).length = wr.numSge :=
    List.length_map _
  refine iff_of_true ⟨?_, fun i hi => ?_, fun i hi => ?_, ?_, ?_⟩ hnil
  · exact fun h => hnil (List.map_eq_nil_iff.1 h)
  · show storeFrom qp.rqVa (qp.rq.head + 0) _ (qp.rq.head + i) = _
    exact storeFrom_get hi
  · rw [hlength] at hi
    have hmark := markRound_get (n := qp.rq.maxCnt) (t := qp.rq.head)
      (a := wr.wrId) (f := qp.rqeWrIdTbl) (i := 0) hi
    rw [Nat.zero_add] at hmark
    exact hmark
  · rw [hlength]
  · rfl

/-- `*bad_wr` is left as it was just behind `bxroce_check_foe`. -/
theorem postRecvMarks_iff (qp : Qp) (wr : RecvWr) :
    postRecvMarks qp wr = true ↔ ¬ wr.FailsFoe qp := by
  unfold postRecvMarks RecvWr.FailsFoe
  dsimp only
  split
  · refine iff_of_true rfl fun h => ?_
    omega
  · rw [decide_eq_true_iff]
    unfold checkFoe
    split
    · refine iff_of_false enomem_ne_zero fun h => h ?_
      omega
    · refine iff_of_true rfl fun h => ?_
      omega

-- ================================================================ the events

/-- A turn of the `bxroce_post_send` that is going on. -/
theorem Sys.step_sendTurn {s : Sys} (hlive : s.dead = false)
    {wr : SendWr} {wrs : List SendWr} (hsending : s.sending = wr :: wrs)
    (mrList : List MrSgInfo) (reply : Option SgPhyInfo) :
    let r := postSendTurn mrList s.qp s.regs wr reply
    (s.step (.sendTurn mrList reply)).qp = r.2.1
      ∧ (s.step (.sendTurn mrList reply)).regs = r.2.2
      ∧ (s.step (.sendTurn mrList reply)).sending
        = match r.1 with
          | .next => wrs
          | .again => wr :: wrs
          | .stop _ => [] := by
  have hstep : s.step (.sendTurn mrList reply)
      = s.sendTurn mrList reply := by
    rw [Sys.step, hlive, if_neg Bool.false_ne_true]
  rw [hstep, Sys.sendTurn, hsending]
  exact ⟨rfl, rfl, rfl⟩

/-- What is left of the list, after any other event. -/
theorem Sys.step_sending {s : Sys} (hbusy : s.sending ≠ []) {e : SysEvent}
    (h : ∀ mrList reply, e ≠ .sendTurn mrList reply) :
    (s.step e).sending = s.sending := by
  unfold Sys.step
  split
  · rfl
  cases e with
  | sendTurn mrList reply => exact absurd rfl (h mrList reply)
  | postSend wrs =>
      dsimp only
      rw [if_neg fun hidle => hbusy hidle.1]
  | postRecv wrs =>
      dsimp only
      rw [if_neg fun hidle => hbusy hidle.1]
  | recvTurn mrList =>
      dsimp only
      unfold Sys.recvTurn
      cases s.receiving with
      | nil => rfl
      | cons wr wrs => rfl
  | xmit cqe =>
      dsimp only
      unfold Sys.xmit
      split
      · rfl
      · rfl
  | arrive receives cqe =>
      dsimp only
      unfold Sys.arrive
      split
      · rfl
      · rfl
  | pollRound ibwc =>
      have hpolled := s.pollRound_polled ibwc
      dsimp only
      generalize s.pollRound ibwc = s' at hpolled
      cases hpolled with
      | idle => rfl
      | dies => rfl
      | took _ _ => rfl

/-- A turn of the `bxroce_post_recv` that is going on. -/
theorem Sys.step_recvTurn {s : Sys} (hlive : s.dead = false)
    {wr : RecvWr} {wrs : List RecvWr} (hreceiving : s.receiving = wr :: wrs)
    (mrList : List MrSgInfo) :
    let r := postRecvTurn mrList s.qp s.regs wr
    (s.step (.recvTurn mrList)).qp = r.2.1
      ∧ (s.step (.recvTurn mrList)).regs = r.2.2
      ∧ (s.step (.recvTurn mrList)).receiving
        = if r.1 = 0 then wrs else [] := by
  unfold Sys.step Sys.recvTurn
  simp only [hlive, hreceiving, Bool.false_eq_true, if_false]
  exact ⟨trivial, trivial, trivial⟩

/-- The tail of the receive queue moves, its head does not. -/
theorem head_popRq (k : Nat) : ∀ q : HwqInfo, (q.popRq k).head = q.head := by
  induction k with
  | zero => exact fun _ => rfl
  | succ k ih => exact fun q => ih (hwqIncRqtail q)

/-- The receive side after any other event. -/
theorem Sys.step_receiving {s : Sys} (hbusy : s.receiving ≠ [])
    {e : SysEvent} (h : ∀ mrList, e ≠ .recvTurn mrList) :
    (s.step e).receiving = s.receiving ∧ (s.step e).rqHead = s.rqHead := by
  unfold Sys.step
  split
  · exact ⟨rfl, rfl⟩
  cases e with
  | recvTurn mrList => exact absurd rfl (h mrList)
  | postSend wrs =>
      dsimp only
      rw [if_neg fun hidle => hbusy hidle.2.1]
      exact ⟨rfl, rfl⟩
  | postRecv wrs =>
      dsimp only
      rw [if_neg fun hidle => hbusy hidle.2.1]
      exact ⟨rfl, rfl⟩
  | sendTurn mrList reply =>
      dsimp only
      unfold Sys.sendTurn
      cases s.sending with
      | nil => exact ⟨rfl, rfl⟩
      | cons wr wrs =>
          have hrq :=
            (postSendTurn_recv mrList s.qp s.regs wr reply).1
          exact ⟨rfl, congrArg HwqInfo.head hrq⟩
  | xmit cqe =>
      dsimp only
      unfold Sys.xmit
      split
      · exact ⟨rfl, rfl⟩
      · exact ⟨rfl, rfl⟩
  | arrive receives cqe =>
      dsimp only
      unfold Sys.arrive
      split
      · exact ⟨rfl, rfl⟩
      · exact ⟨rfl, rfl⟩
  | pollRound ibwc =>
      have hpolled := s.pollRound_polled ibwc
      dsimp only
      generalize s.pollRound ibwc = s' at hpolled
      cases hpolled with
      | idle => exact ⟨rfl, rfl⟩
      | dies => exact ⟨rfl, rfl⟩
      | took _ hrx =>
          cases hrx with
          | idle _ => exact ⟨rfl, rfl⟩
          | taken _ _ => exact ⟨rfl, head_popRq _ _⟩

-- ============================================================ the send call

/-- What the loop of `bxroce_post_send` keeps, when the last request
posted left the head at `h`: a request that has been put off has
elements, and the others find the head there. -/
structure Sys.Sending (h : Nat) (wrs : List SendWr) (s : Sys) : Prop where
  sending : s.sending = wrs
  roomy : s.qp.sq.Roomy
  head : h = s.sqHead ∨ ∀ wr ∈ wrs.head?, wr.sgList ≠ []

/-- A request that is put off has elements. -/
theorem SendWr.TooLong.sgList_ne {wr : SendWr} {qp : Qp}
    (h : wr.TooLong qp) : wr.sgList ≠ [] := by
  intro hnil
  have hfree := h.1.2.1
  have hshort := h.2
  rw [SendWr.numSge, hnil] at hshort
  exact hfree (Nat.le_zero.1 hshort)

theorem Sys.sendExit_idle {s : Sys} {wr : SendWr} {e : SysEvent}
    (h : ∀ mrList reply, e ≠ .sendTurn mrList reply) :
    s.sendExit wr e = .again := by
  cases e with
  | sendTurn mrList reply => exact absurd rfl (h mrList reply)
  | postSend wrs => rfl
  | postRecv wrs => rfl
  | recvTurn mrList => rfl
  | xmit cqe => rfl
  | arrive receives cqe => rfl
  | pollRound ibwc => rfl

/-- The exit of a turn, by what becomes of the request. -/
theorem Sys.sendExit_turn {s : Sys} (hlive : s.dead = false)
    (wr : SendWr) (mrList : List MrSgInfo) (reply : Option SgPhyInfo) :
    s.sendExit wr (.sendTurn mrList reply)
      = match (postSendTurn mrList s.qp s.regs wr reply).1 with
        | .next => .next
        | .again => .again
        | .stop status => .stop status true := by
  unfold Sys.sendExit
  rw [hlive, postSendMarks_eq]
  rfl

/-- Each turn does its part just when it meets the condition. -/
theorem Sys.Sending.kept_iff {h : Nat} {wr : SendWr} {wrs : List SendWr}
    {s : Sys} (hs : s.Sending h (wr :: wrs)) (e : SysEvent) :
    TurnKept Sys.step Sys.sendExit Sys.PostedSend Sys.sqHead h s wr e
      ↔ Sys.SendKept h s wr e := by
  unfold TurnKept
  by_cases hother : ∀ mrList reply, e ≠ .sendTurn mrList reply
  · rw [Sys.sendExit_idle hother]
    refine iff_of_true trivial ?_
    cases e with
    | sendTurn mrList reply => exact absurd rfl (hother mrList reply)
    | postSend wrs => trivial
    | postRecv wrs => trivial
    | recvTurn mrList => trivial
    | xmit cqe => trivial
    | arrive receives cqe => trivial
    | pollRound ibwc => trivial
  simp only [not_forall, not_not] at hother
  obtain ⟨mrList, reply, rfl⟩ := hother
  cases hlive : s.dead with
  | true =>
      have hexit : s.sendExit wr (.sendTurn mrList reply) = .again :=
        if_pos hlive
      rw [hexit]
      refine iff_of_true trivial fun hdead => ?_
      rw [hlive] at hdead
      cases hdead
  | false =>
      obtain ⟨hqp, hregs, -⟩ :=
        Sys.step_sendTurn hlive hs.sending mrList reply
      rw [Sys.sendExit_turn hlive, Sys.SendKept, forall_prop_of_true hlive]
      by_cases htaken : wr.Taken s.qp reply
      · rw [postSendTurn_accepts htaken.1 htaken.2]
        show wr.Posted mrList s.qp _ _ ↔ _
        rw [hqp, hregs, htaken.posted_iff hs.roomy]
        exact ⟨fun hpost => ⟨fun _ => hpost, absurd htaken⟩,
          fun hpost => hpost.1 htaken⟩
      by_cases hlong : wr.TooLong s.qp
      · rw [postSendTurn_tooLong hlong]
        exact iff_of_true trivial
          ⟨fun h => absurd h htaken, fun _ h => absurd hlong h⟩
      obtain ⟨⟨status, hstop⟩, hhead⟩ :=
        postSendTurn_turnedDown hs.roomy htaken hlong mrList s.regs
      rw [hstop]
      show true = true ∧ (s.step (.sendTurn mrList reply)).qp.sq.head = h
        ↔ _
      rw [hqp]
      constructor
      · rintro ⟨-, heq⟩
        refine ⟨fun h => absurd h htaken, fun _ _ => ?_⟩
        by_cases hskip : wr.Ready s.qp ∧ wr.SkipsSlot s.qp reply
        · -- it has no elements, so it was not put off
          have hsame : h = s.qp.sq.head := by
            rcases hs.head with hsame | hne
            · exact hsame
            · exact absurd hskip.2.1 (hne wr rfl)
          exact absurd hskip (hhead.1 (heq.trans hsame))
        · exact ⟨heq.symm.trans (hhead.2 hskip), hskip⟩
      · rintro ⟨-, hkept⟩
        obtain ⟨hsame, hskip⟩ := hkept htaken hlong
        exact ⟨rfl, (hhead.2 hskip).trans hsame.symm⟩

/-- The loop carries it along. -/
theorem Sys.Sending.carries {h : Nat} {wr : SendWr} {wrs : List SendWr}
    {s : Sys} (hs : s.Sending h (wr :: wrs)) (e : SysEvent) :
    Chain.Carries Sys.step Sys.sendExit Sys.Sending Sys.sqHead h wr wrs s e := by
  have hroomy := s.step_roomy e hs.roomy
  by_cases hother : ∀ mrList reply, e ≠ .sendTurn mrList reply
  · refine .again (Sys.sendExit_idle hother) ⟨?_, hroomy, ?_⟩
    · rw [Sys.step_sending (by simp [hs.sending]) hother, hs.sending]
    · unfold Sys.sqHead
      rw [(s.step_sq hother).2]
      exact hs.head
  simp only [not_forall, not_not] at hother
  obtain ⟨mrList, reply, rfl⟩ := hother
  cases hlive : s.dead with
  | true =>
      have hstep := s.step_sendTurn_idle (Or.inl hlive) mrList reply
      refine .again (if_pos hlive) ?_
      rw [hstep]
      exact hs
  | false =>
      obtain ⟨-, -, hsending⟩ :=
        Sys.step_sendTurn hlive hs.sending mrList reply
      have hexit := Sys.sendExit_turn hlive wr mrList reply
      have hturn := postSendTurn_cases mrList s.qp s.regs wr reply
      generalize postSendTurn mrList s.qp s.regs wr reply = r
        at hturn hsending hexit
      cases hturn with
      | next _ _ _ => exact .next hexit ⟨hsending, hroomy, Or.inl rfl⟩
      | again hlong =>
          refine .again hexit ⟨hsending, hroomy, Or.inr fun wr' hwr => ?_⟩
          obtain rfl := Option.some.inj hwr
          exact hlong.sgList_ne
      | stop _ _ => exact .stop hexit

/-- `bxroce_post_send` keeps the contract just when it is turned down by
the state of the queue pair, or each turn meets the condition. -/
theorem Sys.postSendCall_kept_iff {s : Sys} (hroomy : s.qp.sq.Roomy)
    {wrs : List SendWr} {events : List SysEvent}
    {o : Outcome Sys SendWr SysEvent}
    (hcall : s.postSendCall wrs events = some o) :
    s.SendContract wrs o ↔ s.SendCallOk wrs events := by
  unfold Sys.postSendCall at hcall
  split at hcall
  case isFalse => cases hcall
  rename_i hidle
  obtain ⟨hsending, hreceiving, hlive⟩ := hidle
  have hstop : ∀ (s : Sys) (wr : SendWr) (e : SysEvent) status marks,
      s.sendExit wr e = .stop status marks → status ≠ 0 := by
    intro s wr e status marks hexit
    by_cases hother : ∀ mrList reply, e ≠ .sendTurn mrList reply
    · rw [Sys.sendExit_idle hother] at hexit
      cases hexit
    simp only [not_forall, not_not] at hother
    obtain ⟨mrList, reply, rfl⟩ := hother
    unfold Sys.sendExit at hexit
    dsimp only at hexit
    split at hexit
    · cases hexit
    split at hexit
    · cases hexit
    · cases hexit
    · rename_i hturn
      obtain ⟨rfl, -⟩ := Exit.stop.inj hexit
      exact postSendTurn_stop_ne hturn
  have hstart : postSendAllowed s.qp.qpState = true →
      s.step (.postSend wrs) = { s with sending := wrs } := by
    intro hallowed
    unfold Sys.step
    rw [if_neg (by rw [hlive]; exact Bool.false_ne_true)]
    exact if_pos ⟨hsending, hreceiving, hallowed⟩
  have hhead : (s.step (.postSend wrs)).sqHead = s.sqHead :=
    (s.step_sq (by simp)).2
  have hkept :=
    call_kept_iff Sys.PostedSend Sys.sqHead hstop einval_ne_zero hcall
  rw [hhead] at hkept
  refine hkept.trans (forall_congr' fun hallowed => ?_)
  rw [hstart hallowed]
  exact turns_congr (fun h w ws s i hI => hI.kept_iff i)
    (fun h w ws s i hI => hI.carries i)
    (Sys.Sending.mk rfl hroomy (Or.inl rfl))

-- ============================================================ the receive call

/-- What the loop of `bxroce_post_recv` keeps. -/
structure Sys.Receiving (h : Nat) (wrs : List RecvWr) (s : Sys) :
    Prop where
  receiving : s.receiving = wrs
  head : wrs ≠ [] → h = s.rqHead

theorem Sys.recvExit_idle {s : Sys} {wr : RecvWr} {e : SysEvent}
    (h : ∀ mrList, e ≠ .recvTurn mrList) : s.recvExit wr e = .again := by
  cases e with
  | recvTurn mrList => exact absurd rfl (h mrList)
  | postSend wrs => rfl
  | postRecv wrs => rfl
  | sendTurn mrList reply => rfl
  | xmit cqe => rfl
  | arrive receives cqe => rfl
  | pollRound ibwc => rfl

/-- The exit of a turn. -/
theorem Sys.recvExit_turn {s : Sys} (hlive : s.dead = false)
    (wr : RecvWr) (mrList : List MrSgInfo) :
    s.recvExit wr (.recvTurn mrList)
      = if (postRecvTurn mrList s.qp s.regs wr).1 = 0 then .next
        else .stop (postRecvTurn mrList s.qp s.regs wr).1
          (postRecvMarks s.qp wr) := by
  unfold Sys.recvExit
  simp only [hlive, Bool.false_eq_true, if_false]

/-- Each turn does its part just when it meets the condition. -/
theorem Sys.Receiving.kept_iff {h : Nat} {wr : RecvWr} {wrs : List RecvWr}
    {s : Sys} (hs : s.Receiving h (wr :: wrs)) (e : SysEvent) :
    TurnKept Sys.step Sys.recvExit Sys.PostedRecv Sys.rqHead h s wr e
      ↔ s.RecvKept wr e := by
  unfold TurnKept
  by_cases hother : ∀ mrList, e ≠ .recvTurn mrList
  · rw [Sys.recvExit_idle hother]
    refine iff_of_true trivial ?_
    cases e with
    | recvTurn mrList => exact absurd rfl (hother mrList)
    | postSend wrs => trivial
    | postRecv wrs => trivial
    | sendTurn mrList reply => trivial
    | xmit cqe => trivial
    | arrive receives cqe => trivial
    | pollRound ibwc => trivial
  simp only [not_forall, not_not] at hother
  obtain ⟨mrList, rfl⟩ := hother
  cases hlive : s.dead with
  | true =>
      have hexit : s.recvExit wr (.recvTurn mrList) = .again :=
        if_pos hlive
      rw [hexit]
      refine iff_of_true trivial fun hdead => ?_
      rw [hlive] at hdead
      cases hdead
  | false =>
      obtain ⟨hqp, hregs, -⟩ :=
        Sys.step_recvTurn hlive hs.receiving mrList
      rw [Sys.recvExit_turn hlive, Sys.RecvKept, forall_prop_of_true hlive]
      by_cases haccepted : wr.Accepted s.qp
      · have hfits : ¬ wr.FailsFoe s.qp := fun h =>
          absurd h.2.2 (Nat.not_lt_of_le haccepted.2.2)
        rw [if_pos (postRecvTurn_ok mrList s.regs haccepted)]
        show wr.Posted mrList s.qp _ _ ↔ _
        rw [hqp, hregs, haccepted.posted_iff]
        exact ⟨fun hne => ⟨fun _ => hne, hfits⟩, fun h => h.1 haccepted⟩
      · obtain ⟨hstatus, hsame⟩ :=
          postRecvTurn_refused mrList s.qp s.regs haccepted
        rw [if_neg hstatus]
        show postRecvMarks s.qp wr = true
          ∧ (s.step (.recvTurn mrList)).qp.rq.head = h ↔ _
        rw [hqp, hsame, postRecvMarks_iff]
        have hhead := hs.head (List.cons_ne_nil wr wrs)
        exact ⟨fun hfoe => ⟨fun h => absurd h haccepted, hfoe.1⟩,
          fun hfoe => ⟨hfoe.2, hhead.symm⟩⟩

/-- The loop carries it along. -/
theorem Sys.Receiving.carries {h : Nat} {wr : RecvWr} {wrs : List RecvWr}
    {s : Sys} (hs : s.Receiving h (wr :: wrs)) (e : SysEvent) :
    Chain.Carries Sys.step Sys.recvExit Sys.Receiving Sys.rqHead h wr wrs s
      e := by
  have hne : wr :: wrs ≠ [] := List.cons_ne_nil wr wrs
  by_cases hother : ∀ mrList, e ≠ .recvTurn mrList
  · have hbusy : s.receiving ≠ [] := by
      rw [hs.receiving]
      exact hne
    obtain ⟨hreceiving, hhead⟩ := Sys.step_receiving hbusy hother
    refine .again (Sys.recvExit_idle hother) ⟨?_, fun _ => ?_⟩
    · rw [hreceiving, hs.receiving]
    · rw [hhead]
      exact hs.head hne
  simp only [not_forall, not_not] at hother
  obtain ⟨mrList, rfl⟩ := hother
  cases hlive : s.dead with
  | true =>
      have hstep : s.step (.recvTurn mrList) = s := if_pos hlive
      refine .again (if_pos hlive) ?_
      rw [hstep]
      exact hs
  | false =>
      obtain ⟨-, -, hreceiving⟩ :=
        Sys.step_recvTurn hlive hs.receiving mrList
      have hexit := Sys.recvExit_turn hlive wr mrList
      by_cases hstatus : (postRecvTurn mrList s.qp s.regs wr).1 = 0
      · rw [if_pos hstatus] at hreceiving hexit
        exact .next hexit ⟨hreceiving, fun _ => rfl⟩
      · rw [if_neg hstatus] at hexit
        exact .stop hexit

/-- `bxroce_post_recv` keeps the contract just when it is turned down by
the state of the queue pair, or each turn meets the condition. -/
theorem Sys.postRecvCall_kept_iff {s : Sys} {wrs : List RecvWr}
    {events : List SysEvent} {o : Outcome Sys RecvWr SysEvent}
    (hcall : s.postRecvCall wrs events = some o) :
    s.RecvContract wrs o ↔ s.RecvCallOk wrs events := by
  unfold Sys.postRecvCall at hcall
  split at hcall
  case isFalse => cases hcall
  rename_i hidle
  obtain ⟨hsending, hreceiving, hlive⟩ := hidle
  have hstop : ∀ (s : Sys) (wr : RecvWr) (e : SysEvent) status marks,
      s.recvExit wr e = .stop status marks → status ≠ 0 := by
    intro s wr e status marks hexit
    by_cases hother : ∀ mrList, e ≠ .recvTurn mrList
    · rw [Sys.recvExit_idle hother] at hexit
      cases hexit
    simp only [not_forall, not_not] at hother
    obtain ⟨mrList, rfl⟩ := hother
    unfold Sys.recvExit at hexit
    dsimp only at hexit
    split at hexit
    · cases hexit
    split at hexit
    · cases hexit
    · rename_i hstatus
      obtain ⟨rfl, -⟩ := Exit.stop.inj hexit
      exact hstatus
  have hstep : s.step (.postRecv wrs)
      = if postRecvAllowed s.qp.qpState = true then
          { s with receiving := wrs }
        else s := by
    unfold Sys.step
    rw [if_neg (by rw [hlive]; exact Bool.false_ne_true)]
    simp only [hsending, hreceiving, true_and]
  have hhead : (s.step (.postRecv wrs)).rqHead = s.rqHead := by
    rw [hstep]
    split
    · rfl
    · rfl
  have hkept :=
    call_kept_iff Sys.PostedRecv Sys.rqHead hstop einval_ne_zero hcall
  rw [hhead] at hkept
  refine hkept.trans (forall_congr' fun hallowed => ?_)
  rw [hstep, if_pos hallowed]
  exact turns_congr (fun h w ws s i hI => hI.kept_iff i)
    (fun h w ws s i hI => hI.carries i)
    (Sys.Receiving.mk rfl fun _ => rfl)

end BxRnic.User
