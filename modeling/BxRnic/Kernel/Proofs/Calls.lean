/-
The two post calls of the driver keep their contract, turn by turn.

What goes wrong:

- The status of the entries of sends and reads gets lost on the way, so
  requests that the transport refuses are taken without an entry, or with
  one that was not prepared; and requests for no entry at all are taken
  too (among them `IB_WR_LOCAL_INV` and `IB_WR_REG_MR`).
- Immediate data alone, in an RDMA write that the transport refuses, is
  turned down behind its entry.
- `*bad_wr` is left as it was when the free entries are too few but not
  none, on both rings.
-/
import BxRnic.Kernel.Calls
import BxRnic.Kernel.Proofs.Filling
import BxRnic.Kernel.Proofs.Queues
import BxRnic.Pair.Proofs.Immediate

namespace BxRnic.Kernel

open Run Chain SlotRing

-- ============================================================== the property

/-- The elements a request asks entries for. Immediate data on its own
asks for one. -/
def SendWr.segments (wr : SendWr) : List Sge :=
  if wr.sgList = [] ∧ wr.hasImm then [⟨0, 0, 0⟩] else wr.sgList

/-- The status of the routine that builds the entries of the request,
whether or not its caller looks at it. -/
def entryStatus (qp : Qp) (wr : SendWr) : Int :=
  if wr.isRdma then (buildwriteSges qp wr).1 else (buildSges qp wr).1

/-- The request has been posted: built, from the head on, and rung. -/
structure SendWr.Posted (wr : SendWr) (qp qp' : Qp) (hw' : Doorbell) :
    Prop where
  prepared : entryStatus qp wr = 0
  entered : Entered qp.sq.maxCnt qp.sq.head (· % qp.sq.maxCnt) wr.segments
    (wr.wqeWrId qp) qp'.segment qp'.wqeWrIdTbl (hw'.wp qp.sq.maxCnt)
    qp'.sq.head

/-- The receive has been posted. Its entries are in memory behind each
other. -/
def RecvWr.Posted (wr : RecvWr) (qp qp' : Qp) (hw' : Doorbell) : Prop :=
  Entered qp.rq.maxCnt qp.rq.head id (wr.sgList.map recvRqe) wr.wrId
    qp'.rqVa qp'.rqeWrIdTbl (hw'.wp qp.rq.maxCnt) qp'.rq.head

/-- The event is a turn that posts the request. -/
def Sys.PostedSend (s : Sys) (wr : SendWr) (e : SysEvent) (s' : Sys) :
    Prop :=
  match e with
  | .sendTurn => wr.Posted s.qp s'.qp s'.sqHw
  | _ => False

/-- The same for a receive. -/
def Sys.PostedRecv (s : Sys) (wr : RecvWr) (e : SysEvent) (s' : Sys) :
    Prop :=
  match e with
  | .recvTurn => wr.Posted s.qp s'.qp s'.rqHw
  | _ => False

/-- The head of the send queue. -/
def Sys.sqHead (s : Sys) : Nat := s.qp.sq.head

/-- The head of the receive queue. -/
def Sys.rqHead (s : Sys) : Nat := s.qp.rq.head

-- ============================================================ the conditions

/-- The `switch` fails on the request. Sends and reads fail silently on
what the transport refuses, reads on inline data too. -/
def SendWr.Fails (wr : SendWr) (qp : Qp) : Prop :=
  match wr.opcode with
  | .other => True
  | .localInv => False
  | .regMr => False
  | .rdmaRead => False
  | .rdmaWrite =>
      wr.inlineRefused qp = true
        ∨ opcodeRefused qp.qpType wr.opcode = true ∧ wr.segments ≠ []
  | .rdmaWriteWithImm =>
      wr.inlineRefused qp = true
        ∨ opcodeRefused qp.qpType wr.opcode = true ∧ wr.segments ≠ []
  | _ => wr.inlineRefused qp = true

instance (wr : SendWr) (qp : Qp) : Decidable (wr.Fails qp) := by
  unfold SendWr.Fails
  cases wr.opcode with
  | other => exact inferInstanceAs (Decidable True)
  | localInv => exact inferInstanceAs (Decidable False)
  | regMr => exact inferInstanceAs (Decidable False)
  | rdmaRead => exact inferInstanceAs (Decidable False)
  | rdmaWrite => exact inferInstanceAs (Decidable (_ ∨ _))
  | rdmaWriteWithImm => exact inferInstanceAs (Decidable (_ ∨ _))
  | send => exact inferInstanceAs (Decidable (_ = _))
  | sendWithImm => exact inferInstanceAs (Decidable (_ = _))
  | sendWithInv => exact inferInstanceAs (Decidable (_ = _))

/-- The request is taken. -/
def SendWr.Taken (wr : SendWr) (qp : Qp) : Prop :=
  wr.Admitted qp ∧ ¬ wr.Fails qp

/-- The request has entries, and they can be built. -/
def SendWr.Postable (wr : SendWr) (qp : Qp) : Prop :=
  wr.isBuilt = true ∧ wr.inlineRefused qp = false
    ∧ opcodeRefused qp.qpType wr.opcode = false ∧ wr.segments ≠ []

/-- The request is immediate data on its own, and is turned down once
its entry is behind the head. -/
def SendWr.SkipsSlot (wr : SendWr) (qp : Qp) : Prop :=
  wr.opcode = .rdmaWriteWithImm ∧ wr.sgList = []
    ∧ wr.inlineRefused qp = false
    ∧ opcodeRefused qp.qpType wr.opcode = true

/-- The free entries are too few for the request, but there are some:
`bxroce_check_foe` turns it down. -/
def SendWr.FailsFoe (wr : SendWr) (qp : Qp) : Prop :=
  ¬ (qp.qpType = .ud ∧ wr.opcode ≠ .send ∧ wr.opcode ≠ .sendWithImm)
    ∧ hwqFreeCnt qp.sq ≠ 0 ∧ wr.numSge ≤ qp.sq.maxSges
    ∧ hwqFreeCnt qp.sq < wr.numSge

/-- The same for a receive. -/
def RecvWr.FailsFoe (wr : RecvWr) (qp : Qp) : Prop :=
  hwqFreeCnt qp.rq ≠ 0 ∧ wr.numSge ≤ qp.rq.maxSges
    ∧ hwqFreeCnt qp.rq < wr.numSge

instance (wr : SendWr) (qp : Qp) : Decidable (wr.Admitted qp) :=
  inferInstanceAs (Decidable (_ ∧ _ ∧ _ ∧ _))

instance (wr : SendWr) (qp : Qp) : Decidable (wr.Taken qp) :=
  inferInstanceAs (Decidable (_ ∧ _))

instance (wr : SendWr) (qp : Qp) : Decidable (wr.Postable qp) :=
  inferInstanceAs (Decidable (_ ∧ _ ∧ _ ∧ _))

instance (wr : SendWr) (qp : Qp) : Decidable (wr.SkipsSlot qp) :=
  inferInstanceAs (Decidable (_ ∧ _ ∧ _ ∧ _))

instance (wr : SendWr) (qp : Qp) : Decidable (wr.FailsFoe qp) :=
  inferInstanceAs (Decidable (_ ∧ _ ∧ _ ∧ _))

instance (wr : RecvWr) (qp : Qp) : Decidable (wr.Admitted qp) :=
  inferInstanceAs (Decidable (_ ∧ _ ∧ _))

instance (wr : RecvWr) (qp : Qp) : Decidable (wr.FailsFoe qp) :=
  inferInstanceAs (Decidable (_ ∧ _ ∧ _))

/-- The condition on a turn of `bxroce_post_send`: a request that is
taken can be posted, and one that is turned down is turned down neither
by `bxroce_check_foe` nor behind its entry. -/
def Sys.SendKept (s : Sys) (wr : SendWr) : SysEvent → Prop
  | .sendTurn =>
      (wr.Taken s.qp → wr.Postable s.qp) ∧ ¬ wr.FailsFoe s.qp
        ∧ ¬ (wr.Admitted s.qp ∧ wr.SkipsSlot s.qp)
  | _ => True

/-- The condition on a turn of `bxroce_post_recv`: a request that is
taken has elements, and one that is turned down is not turned down by
`bxroce_check_foe`. -/
def Sys.RecvKept (s : Sys) (wr : RecvWr) : SysEvent → Prop
  | .recvTurn =>
      (wr.Admitted s.qp → wr.sgList ≠ []) ∧ ¬ wr.FailsFoe s.qp
  | _ => True

instance (s : Sys) (wr : SendWr) :
    ∀ e : SysEvent, Decidable (s.SendKept wr e)
  | .sendTurn => inferInstanceAs (Decidable ((_ → _) ∧ _ ∧ _))
  | .postSend _ => isTrue trivial
  | .postRecv _ => isTrue trivial
  | .recvTurn => isTrue trivial
  | .sqConsume => isTrue trivial
  | .rqConsume => isTrue trivial

instance (s : Sys) (wr : RecvWr) :
    ∀ e : SysEvent, Decidable (s.RecvKept wr e)
  | .recvTurn => inferInstanceAs (Decidable ((_ → _) ∧ _))
  | .postSend _ => isTrue trivial
  | .postRecv _ => isTrue trivial
  | .sendTurn => isTrue trivial
  | .sqConsume => isTrue trivial
  | .rqConsume => isTrue trivial

-- ================================================================ the calls

/-- The contract of a call of `bxroce_post_send`. -/
def Sys.SendContract (s : Sys) (wrs : List SendWr)
    (o : Outcome Sys SendWr SysEvent) : Prop :=
  Kept Sys.step Sys.PostedSend Sys.sqHead s.sqHead wrs o

/-- The contract of a call of `bxroce_post_recv`. -/
def Sys.RecvContract (s : Sys) (wrs : List RecvWr)
    (o : Outcome Sys RecvWr SysEvent) : Prop :=
  Kept Sys.step Sys.PostedRecv Sys.rqHead s.rqHead wrs o

/-- The call is turned down by the state of the queue pair, or each turn
of its loop meets the condition. -/
def Sys.SendCallOk (s : Sys) (wrs : List SendWr) (events : List SysEvent) :
    Prop :=
  postSendAllowed s.qp.qpState = true →
    Turns Sys.step Sys.sendExit (fun _ => Sys.SendKept) Sys.sqHead s.sqHead
      events wrs (s.postSend wrs)

/-- The same for a call of `bxroce_post_recv`. -/
def Sys.RecvCallOk (s : Sys) (wrs : List RecvWr) (events : List SysEvent) :
    Prop :=
  postRecvAllowed s.qp.qpState = true →
    Turns Sys.step Sys.recvExit (fun _ => Sys.RecvKept) Sys.rqHead
      s.rqHead events wrs (s.postRecv wrs)

instance (s : Sys) (wrs : List SendWr) (events : List SysEvent) :
    Decidable (s.SendCallOk wrs events) :=
  inferInstanceAs (Decidable (_ → _))

instance (s : Sys) (wrs : List RecvWr) (events : List SysEvent) :
    Decidable (s.RecvCallOk wrs events) :=
  inferInstanceAs (Decidable (_ → _))

-- ============================================================ the builds

/-- No entries are asked for just when there is nothing to send. -/
theorem segments_eq_nil {wr : SendWr} :
    wr.segments = [] ↔ wr.sgList = [] ∧ wr.hasImm = false := by
  unfold SendWr.segments
  cases himm : wr.hasImm with
  | true =>
      by_cases hnil : wr.sgList = []
      · simp [hnil]
      · simp [hnil]
  | false => simp

/-- The doorbell is rung for requests that ask for entries. -/
theorem rung_iff {wr : SendWr} :
    ¬ (wr.numSge = 0 ∧ wr.opcode ≠ .rdmaWriteWithImm
        ∧ wr.opcode ≠ .sendWithImm) ↔ wr.segments ≠ [] := by
  have himm : wr.hasImm = false
      ↔ wr.opcode ≠ .rdmaWriteWithImm ∧ wr.opcode ≠ .sendWithImm := by
    unfold SendWr.hasImm
    rw [decide_eq_false_iff_not, not_or, and_comm]
  refine not_congr ?_
  rw [segments_eq_nil, himm, List.length_eq_zero_iff]

/-- There are no more segments than elements may be, or one. -/
theorem length_segments (wr : SendWr) :
    wr.segments.length = if wr.sgList = [] ∧ wr.hasImm then 1
      else wr.numSge := by
  unfold SendWr.segments
  split
  · rfl
  · rfl

theorem HwqInfo.Fits.segments_lt {qp : Qp} (h : qp.sq.Fits)
    {wr : SendWr} (hadmitted : wr.Admitted qp) :
    wr.segments.length < qp.sq.maxCnt := by
  have hsges := hadmitted.2.2.1
  have hshort := h.sges_lt
  rw [length_segments]
  split
  · omega
  · omega

section Build

variable {prepare : Qp → Wqe → SendWr → Int × Qp × Wqe}

/-- Entries that can be built: the head moves over them. -/
theorem buildSgesWith_moves (hp : Prepares prepare) {qp : Qp}
    {wr : SendWr} (hin : qp.HeadIn)
    (hr : opcodeRefused qp.qpType wr.opcode = false) :
    let r := buildSgesWith wr.immOpcode prepare qp wr
    r.1 = 0 ∧ r.2.sq = qp.sq.advance wr.segments.length := by
  rw [length_segments]
  by_cases hbare : wr.sgList = [] ∧ wr.hasImm = true
  · obtain ⟨hstatus, hsq, -⟩ :=
      buildSgesWith_bare hp hbare.1 (SendWr.hasImm_iff.1 hbare.2) qp
    rw [hr] at hstatus
    rw [if_pos hbare]
    exact ⟨hstatus, hsq⟩
  · unfold buildSgesWith
    rw [if_neg hbare,
      if_neg fun h => hbare ⟨h.1, SendWr.hasImm_iff.2 h.2⟩]
    exact buildSgesLoop_built hp hin hr

/-- They are stored round the ring, with the id at each. -/
theorem buildSgesWith_stored (hp : Prepares prepare)
    (hrecords : Records prepare) {qp : Qp} {wr : SendWr}
    (hr : opcodeRefused qp.qpType wr.opcode = false)
    (hfirst : wr.hasImm = true → qp.segment qp.sq.head = ⟨0, 0, 0⟩) :
    let r := buildSgesWith wr.immOpcode prepare qp wr
    r.2.segment
        = storeRound qp.sq.maxCnt qp.segment qp.sq.head wr.segments
      ∧ r.2.wqeWrIdTbl
        = storeRound qp.sq.maxCnt qp.wqeWrIdTbl qp.sq.head
            (List.replicate wr.segments.length (wr.wqeWrId qp)) := by
  unfold SendWr.segments
  by_cases hbare : wr.sgList = [] ∧ wr.hasImm = true
  · obtain ⟨hnil, himm⟩ := hbare
    have hbody := hp.body qp (qp.sqVa qp.sq.head) wr
    have hqp := hrecords qp (qp.sqVa qp.sq.head) wr hr
    unfold buildSgesWith
    rw [if_pos ⟨hnil, SendWr.hasImm_iff.1 himm⟩, if_pos ⟨hnil, himm⟩]
    dsimp only
    rw [hqp]
    generalize prepare qp (qp.sqVa qp.sq.head) wr = r at hbody
    -- the body of the entry stays
    have hsegment : (⟨r.2.2.localaddr, r.2.2.dmalen, r.2.2.lkey⟩ : Sge)
        = ⟨0, 0, 0⟩ := by
      have haddr := congrArg WqeBody.localaddr hbody
      have hlen := congrArg WqeBody.dmalen hbody
      have hkey := congrArg WqeBody.lkey hbody
      dsimp only [Wqe.body] at haddr hlen hkey
      rw [← hfirst himm, haddr, hlen, hkey]
      rfl
    refine ⟨?_, rfl⟩
    show ((recordWrId qp wr).putWqe r.2.2).segment = _
    rw [segment_putWqe, hsegment]
    rfl
  · unfold buildSgesWith
    rw [if_neg fun h => hbare ⟨h.1, SendWr.hasImm_iff.2 h.2⟩,
      if_neg hbare]
    exact buildSgesLoop_stored hp hrecords hr

/-- Entries that cannot be built: the head is moved over one that is for
immediate data alone. -/
theorem buildSgesWith_fails (hp : Prepares prepare) {qp : Qp}
    {wr : SendWr} (hsome : wr.segments ≠ [])
    (hr : opcodeRefused qp.qpType wr.opcode = true) :
    let r := buildSgesWith wr.immOpcode prepare qp wr
    r.1 = -EINVAL
      ∧ r.2.sq = if wr.sgList = [] then qp.sq.advance 1 else qp.sq := by
  by_cases hnil : wr.sgList = []
  · have himm : wr.hasImm = true := by
      rw [Ne, segments_eq_nil, not_and, Bool.not_eq_false] at hsome
      exact hsome hnil
    obtain ⟨hstatus, hsq, -⟩ :=
      buildSgesWith_bare hp hnil (SendWr.hasImm_iff.1 himm) qp
    rw [if_pos hr] at hstatus
    rw [if_pos hnil]
    exact ⟨hstatus, hsq⟩
  · obtain ⟨hstatus, hsq⟩ :=
      buildSgesWith_refused hp wr.immOpcode hnil hr
    rw [if_neg hnil]
    exact ⟨hstatus, hsq⟩

end Build

/-- A request no entries are built for. -/
theorem buildWr_notBuilt {qp : Qp} {wr : SendWr}
    (h : wr.isBuilt = false) :
    (buildWr qp wr).2.sq = qp.sq
      ∧ ((buildWr qp wr).1 = 0 ↔ ¬ wr.Fails qp) := by
  have hne : ¬ (-EINVAL = 0) := by decide
  unfold SendWr.isBuilt at h
  unfold buildWr SendWr.Fails
  cases hop : wr.opcode with
  | localInv => exact ⟨rfl, iff_of_true rfl id⟩
  | regMr => exact ⟨rfl, iff_of_true rfl id⟩
  | other => exact ⟨rfl, iff_of_false hne (not_not.2 trivial)⟩
  | rdmaWrite => simp [hop] at h
  | rdmaWriteWithImm => simp [hop] at h
  | send => simp [hop] at h
  | sendWithImm => simp [hop] at h
  | rdmaRead => simp [hop] at h
  | sendWithInv => simp [hop] at h

/-- An inline request. -/
theorem buildWr_inline {qp : Qp} {wr : SendWr}
    (hbuilt : wr.isBuilt = true) (h : wr.inlineRefused qp = true) :
    (buildWr qp wr).2.sq = qp.sq
      ∧ ((buildWr qp wr).1 = 0 ↔ ¬ wr.Fails qp) := by
  have hne : ¬ (-EINVAL = 0) := by decide
  have hsend : ∀ qp₀ : Qp, qp₀.qpType = qp.qpType →
      buildSend qp₀ wr = (-EINVAL, qp₀.putWqe (inlineWqe qp₀ wr)) := by
    intro qp₀ htype
    unfold buildSend buildInlineSges
    rw [if_pos]
    unfold SendWr.inlineRefused at h ⊢
    rwa [htype]
  have hwrite : ∀ qp₀ : Qp, qp₀.qpType = qp.qpType →
      buildwriteInlineSges qp₀ wr
        = (-EINVAL, qp₀.putWqe (inlineWqe qp₀ wr)) := by
    intro qp₀ htype
    unfold buildwriteInlineSges
    rw [if_pos]
    unfold SendWr.inlineRefused at h ⊢
    rwa [htype]
  have hsendPut := fun wqe : Wqe => hsend (qp.putWqe wqe) rfl
  have hwritePut := fun wqe : Wqe => hwrite (qp.putWqe wqe) rfl
  unfold SendWr.isBuilt at hbuilt
  unfold buildWr SendWr.Fails
  cases hop : wr.opcode with
  | localInv => simp [hop] at hbuilt
  | regMr => simp [hop] at hbuilt
  | other => simp [hop] at hbuilt
  | send =>
      dsimp only
      rw [hsend qp rfl]
      exact ⟨rfl, iff_of_false hne (not_not.2 h)⟩
  | sendWithImm =>
      dsimp only
      rw [hsendPut]
      exact ⟨rfl, iff_of_false hne (not_not.2 h)⟩
  | sendWithInv =>
      dsimp only
      rw [hsendPut]
      exact ⟨rfl, iff_of_false hne (not_not.2 h)⟩
  | rdmaWriteWithImm =>
      dsimp only [buildWrite]
      rw [hwritePut]
      exact ⟨rfl, iff_of_false hne (not_not.2 (Or.inl h))⟩
  | rdmaWrite =>
      dsimp only [buildWrite]
      rw [hwrite qp rfl]
      exact ⟨rfl, iff_of_false hne (not_not.2 (Or.inl h))⟩
  | rdmaRead =>
      dsimp only [buildRead]
      rw [hwrite qp rfl]
      exact ⟨rfl, iff_of_true rfl id⟩

/-- A request of entries that fails when it is not inline: an RDMA write
that is refused. -/
theorem SendWr.fails_iff_of_built {wr : SendWr} {qp : Qp}
    (hbuilt : wr.isBuilt = true) (hinline : wr.inlineRefused qp = false) :
    wr.Fails qp
      ↔ wr.handsOn = true ∧ opcodeRefused qp.qpType wr.opcode = true
        ∧ wr.segments ≠ [] := by
  unfold SendWr.isBuilt at hbuilt
  unfold SendWr.Fails SendWr.handsOn
  cases hop : wr.opcode with
  | localInv => simp [hop] at hbuilt
  | regMr => simp [hop] at hbuilt
  | other => simp [hop] at hbuilt
  | rdmaWrite => simp [hinline]
  | rdmaWriteWithImm => simp [hinline]
  | send => simp [hinline]
  | sendWithImm => simp [hinline]
  | rdmaRead => simp
  | sendWithInv => simp [hinline]

/-- The status of the `switch` on the opcode. -/
theorem buildWr_status_iff {qp : Qp} (hin : qp.HeadIn) (wr : SendWr) :
    (buildWr qp wr).1 = 0 ↔ ¬ wr.Fails qp := by
  have hne : ¬ (-EINVAL = 0) := by decide
  cases hbuilt : wr.isBuilt with
  | false => exact (buildWr_notBuilt hbuilt).2
  | true =>
      cases hinline : wr.inlineRefused qp with
      | true => exact (buildWr_inline hbuilt hinline).2
      | false =>
          obtain ⟨prepare, qp₀, hroutine⟩ :=
            buildWr_routine hbuilt hinline
          have hin₀ : qp₀.HeadIn := by
            unfold Qp.HeadIn
            rw [hroutine.sq]
            exact hin
          rw [hroutine.status, SendWr.fails_iff_of_built hbuilt hinline]
          cases hhands : wr.handsOn with
          | false => simp
          | true =>
              rw [if_pos rfl]
              by_cases hnone : wr.segments = []
              · obtain ⟨hnil, himm⟩ := segments_eq_nil.1 hnone
                rw [buildSgesWith_none hnil fun h => by
                  rw [SendWr.hasImm_iff.2 h] at himm
                  cases himm]
                simp [hnone]
              cases hr : opcodeRefused qp.qpType wr.opcode with
              | true =>
                  rw [(buildSgesWith_fails hroutine.prepares hnone
                    (by rw [hroutine.qpType]; exact hr)).1]
                  simp [hne, hnone]
              | false =>
                  rw [(buildSgesWith_moves hroutine.prepares hin₀
                    (by rw [hroutine.qpType]; exact hr)).1]
                  simp

/-- When it fails, the head has moved just when a slot is skipped. -/
theorem buildWr_failed_head {qp : Qp} (hfits : qp.sq.Fits) {wr : SendWr}
    (h : wr.Fails qp) :
    (buildWr qp wr).2.sq.head = qp.sq.head ↔ ¬ wr.SkipsSlot qp := by
  unfold SendWr.SkipsSlot
  cases hbuilt : wr.isBuilt with
  | false =>
      refine iff_of_true (by rw [(buildWr_notBuilt hbuilt).1]) fun h => ?_
      unfold SendWr.isBuilt at hbuilt
      rw [h.1] at hbuilt
      cases hbuilt
  | true =>
      cases hinline : wr.inlineRefused qp with
      | true =>
          rw [(buildWr_inline hbuilt hinline).1]
          simp
      | false =>
          obtain ⟨hhands, hr, hsome⟩ :=
            (SendWr.fails_iff_of_built hbuilt hinline).1 h
          obtain ⟨prepare, qp₀, hroutine⟩ :=
            buildWr_routine hbuilt hinline
          rw [hroutine.built, (buildSgesWith_fails hroutine.prepares hsome
            (by rw [hroutine.qpType]; exact hr)).2, hroutine.sq]
          by_cases hnil : wr.sgList = []
          · have himm : wr.hasImm = true := by
              rw [Ne, segments_eq_nil, not_and, Bool.not_eq_false] at hsome
              exact hsome hnil
            have hop : wr.opcode = .rdmaWriteWithImm := by
              unfold SendWr.handsOn at hhands
              unfold SendWr.hasImm at himm
              rcases of_decide_eq_true himm with hsend | hwrite
              · rw [hsend] at hhands
                cases hhands
              · exact hwrite
            rw [if_pos hnil]
            refine iff_of_false (fun heq => ?_)
              (not_not.2 ⟨hop, hnil, rfl, hr⟩)
            have hshort := hfits.sges_lt
            rcases (next_eq_iff hfits.head_lt (by omega)).1 heq with h | h
            · omega
            · omega
          · rw [if_neg hnil]
            exact iff_of_true rfl fun h => hnil h.2.1

/-- The status of the entries, whichever routine builds them. -/
theorem entryStatus_eq (qp : Qp) (wr : SendWr) :
    ∃ prepare, Prepares prepare
      ∧ entryStatus qp wr
        = (buildSgesWith wr.immOpcode prepare qp wr).1 := by
  unfold entryStatus SendWr.immOpcode
  cases wr.isRdma with
  | true => exact ⟨prepareWriteWqe, prepareWriteWqe_prepares, rfl⟩
  | false => exact ⟨prepareSendWqe, prepareSendWqe_prepares, rfl⟩

/-- Entries that are not prepared. -/
theorem entryStatus_refused {qp : Qp} {wr : SendWr}
    (hsome : wr.segments ≠ [])
    (hr : opcodeRefused qp.qpType wr.opcode = true) :
    entryStatus qp wr ≠ 0 := by
  obtain ⟨prepare, hp, hstatus⟩ := entryStatus_eq qp wr
  rw [hstatus, (buildSgesWith_fails hp hsome hr).1]
  decide

/-- Entries that are. -/
theorem entryStatus_postable {qp : Qp} {wr : SendWr} (hin : qp.HeadIn)
    (hr : opcodeRefused qp.qpType wr.opcode = false) :
    entryStatus qp wr = 0 := by
  obtain ⟨prepare, hp, hstatus⟩ := entryStatus_eq qp wr
  rw [hstatus]
  exact (buildSgesWith_moves hp hin hr).1

/-- What building a request leaves that can be posted. -/
theorem SendWr.Postable.entered {qp : Qp} {wr : SendWr}
    (h : wr.Postable qp) (hin : qp.HeadIn)
    (hfit : wr.segments.length ≤ qp.sq.maxCnt) :
    (buildWr qp wr).2.sq = qp.sq.advance wr.segments.length
      ∧ (∀ (i : Nat) (hi : i < wr.segments.length),
        (buildWr qp wr).2.segment ((qp.sq.head + i) % qp.sq.maxCnt)
          = wr.segments[i])
      ∧ ∀ i < wr.segments.length,
        (buildWr qp wr).2.wqeWrIdTbl ((qp.sq.head + i) % qp.sq.maxCnt)
          = wr.wqeWrId qp := by
  obtain ⟨hbuilt, hinline, hr, hsome⟩ := h
  obtain ⟨prepare, qp₀, hroutine⟩ := buildWr_routine hbuilt hinline
  have hr₀ : opcodeRefused qp₀.qpType wr.opcode = false := by
    rw [hroutine.qpType]
    exact hr
  have hin₀ : qp₀.HeadIn := by
    unfold Qp.HeadIn
    rw [hroutine.sq]
    exact hin
  have hid : wr.wqeWrId qp₀ = wr.wqeWrId qp := by
    unfold SendWr.wqeWrId
    rw [hroutine.attr]
  have hfirst : wr.hasImm = true →
      qp₀.segment qp₀.sq.head = ⟨0, 0, 0⟩ := by
    intro himm
    have hbody := hroutine.first himm
    have haddr := congrArg WqeBody.localaddr hbody
    have hlen := congrArg WqeBody.dmalen hbody
    have hkey := congrArg WqeBody.lkey hbody
    dsimp only [Wqe.body] at haddr hlen hkey
    unfold Qp.segment
    rw [hroutine.sq, haddr, hlen, hkey]
  obtain ⟨-, hsq⟩ := buildSgesWith_moves hroutine.prepares hin₀ hr₀
  obtain ⟨hmem, htbl⟩ := buildSgesWith_stored hroutine.prepares
    hroutine.records hr₀ hfirst
  rw [hroutine.sq] at hsq hmem htbl
  rw [hid] at htbl
  rw [hroutine.built, hmem, htbl]
  refine ⟨hsq, fun i hi => storeRound_get hin hfit hi, fun i hi => ?_⟩
  have hi' : i < (List.replicate wr.segments.length
      (wr.wqeWrId qp)).length := by
    rwa [List.length_replicate]
  rw [storeRound_get hin (by rwa [List.length_replicate]) hi',
    List.getElem_replicate]

-- ============================================================ a turn of sends

/-- A request that does not get past the tests changes nothing. -/
theorem postSendTurn_refused {qp : Qp} {wr : SendWr}
    (h : ¬ wr.Admitted qp) (hw : Doorbell) :
    (postSendTurn qp hw wr).1 ≠ 0
      ∧ (postSendTurn qp hw wr).2 = (qp, hw) := by
  rcases postSendTurn_cases qp hw wr with hrefused | ⟨hadmitted, -⟩
    | ⟨hadmitted, -⟩
  · exact hrefused
  · exact absurd hadmitted h
  · exact absurd hadmitted h

/-- One that does is built. -/
theorem postSendTurn_admitted {qp : Qp} {wr : SendWr}
    (h : wr.Admitted qp) (hw : Doorbell) :
    postSendTurn qp hw wr
      = if (buildWr qp wr).1 = 0 then
          (0, updateSqHead (ringSqHw (buildWr qp wr).2 hw wr).1
              (ringSqHw (buildWr qp wr).2 hw wr).2,
            (ringSqHw (buildWr qp wr).2 hw wr).2)
        else ((buildWr qp wr).1, (buildWr qp wr).2, hw) := by
  obtain ⟨hud, hfree, hsges, hroom⟩ := h
  have hfoe : checkFoe wr.numSge (hwqFreeCnt qp.sq) = 0 := by
    unfold checkFoe
    rw [if_neg (by omega)]
  have hfull : ¬ (hwqFreeCnt qp.sq = 0
      ∨ wr.numSge > qp.sq.maxSges) := by omega
  unfold postSendTurn
  rw [if_neg hud]
  simp only [if_neg hfull, hfoe, ne_eq, not_true_eq_false, if_false,
    ite_not]

/-- A request that is taken is posted just when it can be. -/
theorem SendWr.Taken.posted_iff {qp : Qp} {wr : SendWr}
    (hfits : qp.sq.Fits) (h : wr.Taken qp) (hw : Doorbell) :
    wr.Posted qp (postSendTurn qp hw wr).2.1 (postSendTurn qp hw wr).2.2
      ↔ wr.Postable qp := by
  obtain ⟨hadmitted, hok⟩ := h
  have hin := hfits.head_lt
  have hlt := hfits.segments_lt hadmitted
  rw [postSendTurn_admitted hadmitted,
    if_pos ((buildWr_status_iff hin wr).2 hok)]
  by_cases hsome : wr.segments = []
  · exact iff_of_false (fun h => h.entered.some hsome)
      fun h => h.2.2.2 hsome
  have hbuilds := buildWr_builds hin wr
  have hin' := hbuilds.headIn hin
  have hcnt : (buildWr qp wr).2.sq.maxCnt = qp.sq.maxCnt := by
    obtain ⟨k, -, hsq, -⟩ := hbuilds.moved
    rw [hsq]
  -- the doorbell is rung, and the head read back
  have hrung := ringSqHw_wp hw hin' (rung_iff.2 hsome)
  have hring : (ringSqHw (buildWr qp wr).2 hw wr).1
      = { (buildWr qp wr).2 with overhead := false } := by
    unfold ringSqHw
    rw [if_neg (rung_iff.2 hsome)]
  have hhead : (updateSqHead (ringSqHw (buildWr qp wr).2 hw wr).1
      (ringSqHw (buildWr qp wr).2 hw wr).2).sq.head
      = (buildWr qp wr).2.sq.head := by
    rw [← hrung, hring]
    rfl
  have hnotMoved : (buildWr qp wr).2.sq = qp.sq →
      ¬ wr.Posted qp
        (updateSqHead (ringSqHw (buildWr qp wr).2 hw wr).1
          (ringSqHw (buildWr qp wr).2 hw wr).2)
        (ringSqHw (buildWr qp wr).2 hw wr).2 := by
    intro hsq hposted
    have hmoved := hposted.entered.moved
    have hpos := List.length_pos_of_ne_nil hsome
    rw [hhead, hsq] at hmoved
    rcases (next_eq_iff hin (Nat.le_of_lt hlt)).1 hmoved.symm with h | h
    · omega
    · omega
  unfold SendWr.Postable
  cases hbuilt : wr.isBuilt with
  | false =>
      exact iff_of_false (hnotMoved (buildWr_notBuilt hbuilt).1) (by simp)
  | true =>
      cases hinline : wr.inlineRefused qp with
      | true =>
          exact iff_of_false
            (hnotMoved (buildWr_inline hbuilt hinline).1) (by simp)
      | false =>
          cases hr : opcodeRefused qp.qpType wr.opcode with
          | true =>
              refine iff_of_false (fun h => ?_) (by simp)
              exact entryStatus_refused hsome hr h.prepared
          | false =>
              have hpostable : wr.Postable qp :=
                ⟨hbuilt, hinline, hr, hsome⟩
              obtain ⟨hsq, hmem, htbl⟩ :=
                hpostable.entered hin (Nat.le_of_lt hlt)
              have hmoved : (buildWr qp wr).2.sq.head
                  = (qp.sq.head + wr.segments.length) % qp.sq.maxCnt := by
                rw [hsq]
                rfl
              refine iff_of_true ⟨entryStatus_postable hin hr, hsome,
                fun i hi => ?_, fun i hi => ?_, hhead.trans hmoved, ?_⟩
                ⟨rfl, rfl, rfl, hsome⟩
              · rw [← hmem i hi]
                unfold Qp.segment
                rw [hring]
                rfl
              · rw [← htbl i hi, hring]
                rfl
              · rw [hhead, ← hrung, hcnt]
                exact Nat.mod_eq_of_lt
                  (Nat.mod_lt _ (Nat.zero_lt_of_lt hin))

/-- `*bad_wr` is left as it was just behind `bxroce_check_foe`. -/
theorem postSendMarks_iff (qp : Qp) (wr : SendWr) :
    postSendMarks qp wr = true ↔ ¬ wr.FailsFoe qp := by
  unfold postSendMarks SendWr.FailsFoe
  split
  · rename_i hud
    exact iff_of_true rfl fun h => h.1 hud
  dsimp only
  split
  · refine iff_of_true rfl fun h => ?_
    omega
  · rename_i hud hroom
    have hne : ¬ (-ENOMEM = 0) := by decide
    rw [decide_eq_true_iff]
    unfold checkFoe
    split
    · exact iff_of_false hne fun h => h ⟨hud, by omega, by omega, by omega⟩
    · refine iff_of_true rfl fun h => ?_
      omega

-- ============================================================ a turn of receives

/-- A receive that does not get past the tests changes nothing. -/
theorem postRecvTurn_refused {qp : Qp} {wr : RecvWr}
    (h : ¬ wr.Admitted qp) (hw : Doorbell) :
    (postRecvTurn qp hw wr).1 ≠ 0
      ∧ (postRecvTurn qp hw wr).2 = (qp, hw) := by
  have hnomem : -ENOMEM ≠ 0 := by decide
  unfold postRecvTurn
  by_cases hroom : hwqFreeCnt qp.rq = 0 ∨ wr.numSge > qp.rq.maxSges
  · simp only [if_pos hroom]
    exact ⟨hnomem, trivial⟩
  · have hfoe : checkFoe wr.numSge (hwqFreeCnt qp.rq) ≠ 0 := by
      unfold checkFoe
      rw [if_pos]
      · exact hnomem
      · by_contra hle
        exact h ⟨by omega, by omega, by omega⟩
    simp only [if_neg hroom, if_pos hfoe]
    exact ⟨hfoe, trivial⟩

/-- One that does is taken. -/
theorem postRecvTurn_ok {qp : Qp} {wr : RecvWr} (h : wr.Admitted qp)
    (hw : Doorbell) : (postRecvTurn qp hw wr).1 = 0 := by
  obtain ⟨hfree, hsges, hroom⟩ := h
  have hfoe : checkFoe wr.numSge (hwqFreeCnt qp.rq) = 0 := by
    unfold checkFoe
    rw [if_neg (by omega)]
  have hfull : ¬ (hwqFreeCnt qp.rq = 0
      ∨ wr.numSge > qp.rq.maxSges) := by omega
  unfold postRecvTurn
  simp only [if_neg hfull, hfoe, ne_eq, not_true_eq_false, if_false]

/-- A receive that is taken is posted just when it has elements. -/
theorem RecvWr.Admitted.posted_iff {qp : Qp} {wr : RecvWr}
    (hcnt : qp.rq.maxCnt = maxRqe) (h : wr.Admitted qp) (hw : Doorbell) :
    wr.Posted qp (postRecvTurn qp hw wr).2.1 (postRecvTurn qp hw wr).2.2
      ↔ wr.sgList ≠ [] := by
  rw [postRecvTurn_accepted (postRecvTurn_ok h hw)]
  by_cases hnil : wr.sgList = []
  · refine iff_of_false (fun hposted => hposted.some ?_) (not_not.2 hnil)
    rw [hnil]
    rfl
  have hnum : wr.numSge ≠ 0 := mt List.eq_nil_of_length_eq_zero hnil
  have hbuild : buildRqsges qp wr = buildRqsgesLoop wr qp 0 wr.sgList :=
    if_neg hnil
  have hround : (qp.rq.head + wr.numSge) &&& (qp.rq.maxCnt - 1)
      = (qp.rq.head + wr.numSge) % qp.rq.maxCnt := by
    rw [hcnt]
    exact Nat.and_two_pow_sub_one_eq_mod _ 8
  have hlength : (wr.sgList.map recvRqe).length = wr.numSge :=
    List.length_map _
  rw [hbuild, buildRqsgesLoop_eq, updateRqHead, if_neg hnum]
  refine iff_of_true ⟨?_, fun i hi => ?_, fun i hi => ?_, ?_, ?_⟩ hnil
  · exact fun h => hnil (List.map_eq_nil_iff.1 h)
  · show storeFrom qp.rqVa (qp.rq.head + 0) _ (qp.rq.head + i) = _
    exact storeFrom_get hi
  · rw [hlength] at hi
    have hmark := markRound_get (n := qp.rq.maxCnt) (t := qp.rq.head)
      (a := wr.wrId) (f := qp.rqeWrIdTbl) (i := 0) hi
    rw [Nat.zero_add] at hmark
    exact hmark
  · rw [hlength]
    exact hround
  · have hpos : 0 < qp.rq.maxCnt := by
      rw [hcnt]
      decide
    show (hw.ring qp.rq.maxCnt (qp.rq.head + wr.numSge)).wp
      qp.rq.maxCnt % qp.rq.maxCnt
        = (qp.rq.head + wr.numSge) &&& (qp.rq.maxCnt - 1)
    rw [Doorbell.wp_ring hpos, Nat.mod_mod, hround]

/-- `*bad_wr` is left as it was just behind `bxroce_check_foe`. -/
theorem postRecvMarks_iff (qp : Qp) (wr : RecvWr) :
    postRecvMarks qp wr = true ↔ ¬ wr.FailsFoe qp := by
  have hne : ¬ (-ENOMEM = 0) := by decide
  unfold postRecvMarks RecvWr.FailsFoe
  dsimp only
  split
  · refine iff_of_true rfl fun h => ?_
    omega
  · rw [decide_eq_true_iff]
    unfold checkFoe
    split
    · exact iff_of_false hne fun h => h ⟨by omega, by omega, by omega⟩
    · refine iff_of_true rfl fun h => ?_
      omega

-- ================================================================ the events

/-- A turn of the `bxroce_post_send` that is going on. -/
theorem Sys.step_sendTurn {s : Sys} {wr : SendWr} {wrs : List SendWr}
    (hsending : s.sending = wr :: wrs) :
    let r := postSendTurn s.qp s.sqHw wr
    (s.step .sendTurn).qp = r.2.1 ∧ (s.step .sendTurn).sqHw = r.2.2
      ∧ (s.step .sendTurn).sending = if r.1 = 0 then wrs else [] := by
  unfold Sys.step Sys.sendTurn
  simp only [hsending]
  exact ⟨trivial, trivial, trivial⟩

/-- A turn of the `bxroce_post_recv` that is going on. -/
theorem Sys.step_recvTurn {s : Sys} {wr : RecvWr} {wrs : List RecvWr}
    (hreceiving : s.receiving = wr :: wrs) :
    let r := postRecvTurn s.qp s.rqHw wr
    (s.step .recvTurn).qp = r.2.1 ∧ (s.step .recvTurn).rqHw = r.2.2
      ∧ (s.step .recvTurn).receiving = if r.1 = 0 then wrs else [] := by
  unfold Sys.step Sys.recvTurn
  simp only [hreceiving]
  exact ⟨trivial, trivial, trivial⟩

/-- The send side after any other event. -/
theorem Sys.step_sending {s : Sys} (hbusy : s.sending ≠ []) {e : SysEvent}
    (h : e ≠ .sendTurn) :
    (s.step e).sending = s.sending ∧ (s.step e).sqHead = s.sqHead := by
  cases e with
  | sendTurn => exact absurd rfl h
  | postSend wrs =>
      unfold Sys.step
      dsimp only
      rw [if_neg fun hidle => hbusy hidle.1]
      exact ⟨rfl, rfl⟩
  | postRecv wrs =>
      unfold Sys.step
      dsimp only
      rw [if_neg fun hidle => hbusy hidle.1]
      exact ⟨rfl, rfl⟩
  | recvTurn =>
      show s.recvTurn.sending = s.sending ∧ s.recvTurn.sqHead = s.sqHead
      unfold Sys.recvTurn
      cases s.receiving with
      | nil => exact ⟨rfl, rfl⟩
      | cons wr wrs =>
          have hsq := postRecvTurn_sq s.qp s.rqHw wr
          exact ⟨rfl, congrArg HwqInfo.head hsq⟩
  | sqConsume => exact ⟨rfl, rfl⟩
  | rqConsume => exact ⟨rfl, rfl⟩

/-- Posting a send leaves the receive ring. -/
theorem postSendTurn_rq {qp : Qp} (hin : qp.HeadIn) (hw : Doorbell)
    (wr : SendWr) : (postSendTurn qp hw wr).2.1.rq = qp.rq := by
  have hbuilt := (buildWr_builds hin wr).rq
  rcases postSendTurn_cases qp hw wr with ⟨-, hturn⟩ | ⟨-, -, hturn⟩
    | ⟨-, -, hturn⟩
  · rw [hturn]
  · rw [hturn]
    exact hbuilt
  · rw [hturn]
    exact (ringSqHw_keeps (buildWr qp wr).2 hw wr).1.trans hbuilt

/-- The receive side after any other event. -/
theorem Sys.step_receiving {s : Sys} (hfits : s.qp.sq.Fits)
    (hbusy : s.receiving ≠ []) {e : SysEvent} (h : e ≠ .recvTurn) :
    (s.step e).receiving = s.receiving ∧ (s.step e).rqHead = s.rqHead := by
  cases e with
  | recvTurn => exact absurd rfl h
  | postSend wrs =>
      unfold Sys.step
      dsimp only
      rw [if_neg fun hidle => hbusy hidle.2]
      exact ⟨rfl, rfl⟩
  | postRecv wrs =>
      unfold Sys.step
      dsimp only
      rw [if_neg fun hidle => hbusy hidle.2]
      exact ⟨rfl, rfl⟩
  | sendTurn =>
      show s.sendTurn.receiving = s.receiving
        ∧ s.sendTurn.rqHead = s.rqHead
      unfold Sys.sendTurn
      cases s.sending with
      | nil => exact ⟨rfl, rfl⟩
      | cons wr wrs =>
          have hrq := postSendTurn_rq hfits.head_lt s.sqHw wr
          exact ⟨rfl, congrArg HwqInfo.head hrq⟩
  | sqConsume => exact ⟨rfl, rfl⟩
  | rqConsume => exact ⟨rfl, rfl⟩

/-- No step changes the size of the receive ring. -/
theorem Sys.step_rqCnt (s : Sys) (e : SysEvent) (hfits : s.qp.sq.Fits) :
    (s.step e).qp.rq.maxCnt = s.qp.rq.maxCnt := by
  cases e with
  | postSend wrs =>
      show (if _ then s.postSend wrs else s).qp.rq.maxCnt = _
      split
      · rfl
      · rfl
  | postRecv wrs =>
      show (if _ then s.postRecv wrs else s).qp.rq.maxCnt = _
      split
      · rfl
      · rfl
  | sendTurn =>
      show s.sendTurn.qp.rq.maxCnt = _
      unfold Sys.sendTurn
      cases s.sending with
      | nil => rfl
      | cons wr wrs =>
          have hrq := postSendTurn_rq hfits.head_lt s.sqHw wr
          exact congrArg HwqInfo.maxCnt hrq
  | recvTurn =>
      show s.recvTurn.qp.rq.maxCnt = _
      unfold Sys.recvTurn
      cases s.receiving with
      | nil => rfl
      | cons wr wrs =>
          show (postRecvTurn s.qp s.rqHw wr).2.1.rq.maxCnt = _
          rcases postRecvTurn_cases s.qp s.rqHw wr with hturn | ⟨-, hturn⟩
          · rw [hturn]
          · rw [hturn]
            have hrq := (buildRqsges_builds s.qp wr).rq
            exact (updateRqHead_keeps _ wr).1.trans
              (congrArg HwqInfo.maxCnt hrq)
  | sqConsume => rfl
  | rqConsume => rfl

/-- The sizes of both rings. -/
structure Sys.Sized (s : Sys) : Prop where
  fits : s.qp.sq.Fits
  rqCnt : s.qp.rq.maxCnt = maxRqe

theorem Sys.Sized.step {s : Sys} (h : s.Sized) (e : SysEvent) :
    (s.step e).Sized :=
  ⟨s.step_fits e h.fits, (s.step_rqCnt e h.fits).trans h.rqCnt⟩

theorem Sys.exec_sized (qp : Qp) (qpState : QpState)
    (hsges : qp.sq.maxSges + 1 < maxQpWr * maxSge)
    (events : List SysEvent) :
    (exec Sys.step (Sys.start qp qpState) events).Sized :=
  exec_inv (I := fun s : Sys => s.Sized) (fun _ e h => h.step e)
    (s := Sys.start qp qpState) ⟨⟨Nat.succ_pos 2047, hsges⟩, rfl⟩ events

-- ============================================================ the send call

/-- What the loop of `bxroce_post_send` keeps. -/
structure Sys.Sending (h : Nat) (wrs : List SendWr) (s : Sys) : Prop where
  sending : s.sending = wrs
  fits : s.qp.sq.Fits
  head : wrs ≠ [] → h = s.sqHead

theorem Sys.sendExit_idle {s : Sys} {wr : SendWr} {e : SysEvent}
    (h : e ≠ .sendTurn) : s.sendExit wr e = .again := by
  cases e with
  | sendTurn => exact absurd rfl h
  | postSend wrs => rfl
  | postRecv wrs => rfl
  | recvTurn => rfl
  | sqConsume => rfl
  | rqConsume => rfl

/-- The exit of a turn. -/
theorem Sys.sendExit_turn (s : Sys) (wr : SendWr) :
    s.sendExit wr .sendTurn
      = if (postSendTurn s.qp s.sqHw wr).1 = 0 then .next
        else .stop (postSendTurn s.qp s.sqHw wr).1
          (postSendMarks s.qp wr) := rfl

/-- Each turn does its part just when it meets the condition. -/
theorem Sys.Sending.kept_iff {h : Nat} {wr : SendWr} {wrs : List SendWr}
    {s : Sys} (hs : s.Sending h (wr :: wrs)) (e : SysEvent) :
    TurnKept Sys.step Sys.sendExit Sys.PostedSend Sys.sqHead h s wr e
      ↔ s.SendKept wr e := by
  unfold TurnKept
  by_cases hother : e ≠ .sendTurn
  · rw [Sys.sendExit_idle hother]
    refine iff_of_true trivial ?_
    cases e with
    | sendTurn => exact absurd rfl hother
    | postSend wrs => trivial
    | postRecv wrs => trivial
    | recvTurn => trivial
    | sqConsume => trivial
    | rqConsume => trivial
  obtain rfl := not_not.1 hother
  obtain ⟨hqp, hhw, -⟩ := Sys.step_sendTurn hs.sending
  have hhead := hs.head (List.cons_ne_nil wr wrs)
  have hin := hs.fits.head_lt
  rw [Sys.sendExit_turn, Sys.SendKept]
  have hfoe : wr.FailsFoe s.qp → ¬ wr.Admitted s.qp := fun hfoe hadm =>
    absurd hfoe.2.2.2 (Nat.not_lt_of_le hadm.2.2.2)
  have hskip : wr.SkipsSlot s.qp → wr.Fails s.qp := by
    rintro ⟨hop, hnil, hinline, hr⟩
    have hbuilt : wr.isBuilt = true := by
      unfold SendWr.isBuilt
      rw [hop]
    refine (SendWr.fails_iff_of_built hbuilt hinline).2 ⟨?_, hr, ?_⟩
    · unfold SendWr.handsOn
      simp [hop]
    · rw [Ne, segments_eq_nil]
      simp [SendWr.hasImm, hop]
  by_cases hadmitted : wr.Admitted s.qp
  case neg =>
    obtain ⟨hstatus, hsame⟩ := postSendTurn_refused hadmitted s.sqHw
    rw [if_neg hstatus]
    show postSendMarks s.qp wr = true
      ∧ (s.step .sendTurn).qp.sq.head = h ↔ _
    rw [hqp, hsame, postSendMarks_iff]
    exact ⟨fun hmarks => ⟨fun h => absurd h.1 hadmitted, hmarks.1,
        fun h => hadmitted h.1⟩,
      fun hkept => ⟨hkept.2.1, hhead.symm⟩⟩
  have hfits : ¬ wr.FailsFoe s.qp := fun h => hfoe h hadmitted
  by_cases hfails : wr.Fails s.qp
  · have hbuild : ¬ (buildWr s.qp wr).1 = 0 :=
      fun h => (buildWr_status_iff hin wr).1 h hfails
    have hturn := postSendTurn_admitted hadmitted s.sqHw
    rw [if_neg hbuild] at hturn
    rw [hturn] at hqp ⊢
    rw [if_neg hbuild]
    show postSendMarks s.qp wr = true
      ∧ (s.step .sendTurn).qp.sq.head = h ↔ _
    rw [hqp, postSendMarks_iff, hhead]
    show _ ∧ (buildWr s.qp wr).2.sq.head = s.qp.sq.head ↔ _
    rw [buildWr_failed_head hs.fits hfails]
    exact ⟨fun h => ⟨fun htaken => absurd hfails htaken.2, h.1,
        fun hskips => h.2 hskips.2⟩,
      fun h => ⟨h.2.1, fun hskips => h.2.2 ⟨hadmitted, hskips⟩⟩⟩
  · have htaken : wr.Taken s.qp := ⟨hadmitted, hfails⟩
    have hstatus : (postSendTurn s.qp s.sqHw wr).1 = 0 := by
      rw [postSendTurn_admitted hadmitted,
        if_pos ((buildWr_status_iff hin wr).2 hfails)]
    rw [if_pos hstatus]
    show wr.Posted s.qp _ _ ↔ _
    rw [hqp, hhw, htaken.posted_iff hs.fits]
    exact ⟨fun hpost => ⟨fun _ => hpost, hfits,
        fun hskips => hfails (hskip hskips.2)⟩,
      fun hkept => hkept.1 htaken⟩

/-- The loop carries it along. -/
theorem Sys.Sending.carries {h : Nat} {wr : SendWr} {wrs : List SendWr}
    {s : Sys} (hs : s.Sending h (wr :: wrs)) (e : SysEvent) :
    Chain.Carries Sys.step Sys.sendExit Sys.Sending Sys.sqHead h wr wrs s e := by
  have hne : wr :: wrs ≠ [] := List.cons_ne_nil wr wrs
  have hfits := s.step_fits e hs.fits
  by_cases hother : e ≠ .sendTurn
  · have hbusy : s.sending ≠ [] := by
      rw [hs.sending]
      exact hne
    obtain ⟨hsending, hhead⟩ := Sys.step_sending hbusy hother
    refine .again (Sys.sendExit_idle hother) ⟨?_, hfits, fun _ => ?_⟩
    · rw [hsending, hs.sending]
    · rw [hhead]
      exact hs.head hne
  obtain rfl := not_not.1 hother
  obtain ⟨-, -, hsending⟩ := Sys.step_sendTurn hs.sending
  have hexit := s.sendExit_turn wr
  by_cases hstatus : (postSendTurn s.qp s.sqHw wr).1 = 0
  · rw [if_pos hstatus] at hsending hexit
    exact .next hexit ⟨hsending, hfits, fun _ => rfl⟩
  · rw [if_neg hstatus] at hexit
    exact .stop hexit

/-- `bxroce_post_send` keeps the contract just when it is turned down by
the state of the queue pair, or each turn meets the condition. -/
theorem Sys.postSendCall_kept_iff {s : Sys} (hfits : s.qp.sq.Fits)
    {wrs : List SendWr} {events : List SysEvent}
    {o : Outcome Sys SendWr SysEvent}
    (hcall : s.postSendCall wrs events = some o) :
    s.SendContract wrs o ↔ s.SendCallOk wrs events := by
  have hinval : -EINVAL ≠ 0 := by decide
  unfold Sys.postSendCall at hcall
  split at hcall
  case isFalse => cases hcall
  rename_i hidle
  have hstart : s.step (.postSend wrs) = s.postSend wrs := if_pos hidle
  rw [hstart] at hcall
  have hstop : ∀ (s : Sys) (wr : SendWr) (e : SysEvent) status marks,
      s.sendExit wr e = .stop status marks → status ≠ 0 := by
    intro s wr e status marks hexit
    by_cases hother : e ≠ .sendTurn
    · rw [Sys.sendExit_idle hother] at hexit
      cases hexit
    obtain rfl := not_not.1 hother
    rw [Sys.sendExit_turn] at hexit
    split at hexit
    · cases hexit
    · rename_i hstatus
      obtain ⟨rfl, -⟩ := Exit.stop.inj hexit
      exact hstatus
  have hkept :=
    call_kept_iff Sys.PostedSend Sys.sqHead hstop hinval hcall
  have hhead : (s.postSend wrs).sqHead = s.sqHead := rfl
  rw [hhead] at hkept
  refine hkept.trans (forall_congr' fun hallowed => ?_)
  have hsending : (s.postSend wrs).sending = wrs := if_pos hallowed
  exact turns_congr (fun h w ws s i hI => hI.kept_iff i)
    (fun h w ws s i hI => hI.carries i)
    (Sys.Sending.mk hsending ⟨hfits.head_lt, hfits.sges_lt⟩ fun _ => rfl)

-- ============================================================ the receive call

/-- What the loop of `bxroce_post_recv` keeps. -/
structure Sys.Receiving (h : Nat) (wrs : List RecvWr) (s : Sys) :
    Prop where
  receiving : s.receiving = wrs
  sized : s.Sized
  head : wrs ≠ [] → h = s.rqHead

theorem Sys.recvExit_idle {s : Sys} {wr : RecvWr} {e : SysEvent}
    (h : e ≠ .recvTurn) : s.recvExit wr e = .again := by
  cases e with
  | recvTurn => exact absurd rfl h
  | postSend wrs => rfl
  | postRecv wrs => rfl
  | sendTurn => rfl
  | sqConsume => rfl
  | rqConsume => rfl

/-- The exit of a turn. -/
theorem Sys.recvExit_turn (s : Sys) (wr : RecvWr) :
    s.recvExit wr .recvTurn
      = if (postRecvTurn s.qp s.rqHw wr).1 = 0 then .next
        else .stop (postRecvTurn s.qp s.rqHw wr).1
          (postRecvMarks s.qp wr) := rfl

/-- Each turn does its part just when it meets the condition. -/
theorem Sys.Receiving.kept_iff {h : Nat} {wr : RecvWr} {wrs : List RecvWr}
    {s : Sys} (hs : s.Receiving h (wr :: wrs)) (e : SysEvent) :
    TurnKept Sys.step Sys.recvExit Sys.PostedRecv Sys.rqHead h s wr e
      ↔ s.RecvKept wr e := by
  unfold TurnKept
  by_cases hother : e ≠ .recvTurn
  · rw [Sys.recvExit_idle hother]
    refine iff_of_true trivial ?_
    cases e with
    | recvTurn => exact absurd rfl hother
    | postSend wrs => trivial
    | postRecv wrs => trivial
    | sendTurn => trivial
    | sqConsume => trivial
    | rqConsume => trivial
  obtain rfl := not_not.1 hother
  obtain ⟨hqp, hhw, -⟩ := Sys.step_recvTurn hs.receiving
  rw [Sys.recvExit_turn, Sys.RecvKept]
  by_cases hadmitted : wr.Admitted s.qp
  · have hfits : ¬ wr.FailsFoe s.qp := fun h =>
      absurd h.2.2 (Nat.not_lt_of_le hadmitted.2.2)
    rw [if_pos (postRecvTurn_ok hadmitted s.rqHw)]
    show wr.Posted s.qp _ _ ↔ _
    rw [hqp, hhw, hadmitted.posted_iff hs.sized.rqCnt]
    exact ⟨fun hne => ⟨fun _ => hne, hfits⟩, fun h => h.1 hadmitted⟩
  · obtain ⟨hstatus, hsame⟩ := postRecvTurn_refused hadmitted s.rqHw
    rw [if_neg hstatus]
    show postRecvMarks s.qp wr = true
      ∧ (s.step .recvTurn).qp.rq.head = h ↔ _
    rw [hqp, hsame, postRecvMarks_iff]
    have hhead := hs.head (List.cons_ne_nil wr wrs)
    exact ⟨fun hfoe => ⟨fun h => absurd h hadmitted, hfoe.1⟩,
      fun hfoe => ⟨hfoe.2, hhead.symm⟩⟩

/-- The loop carries it along. -/
theorem Sys.Receiving.carries {h : Nat} {wr : RecvWr} {wrs : List RecvWr}
    {s : Sys} (hs : s.Receiving h (wr :: wrs)) (e : SysEvent) :
    Chain.Carries Sys.step Sys.recvExit Sys.Receiving Sys.rqHead h wr wrs s
      e := by
  have hne : wr :: wrs ≠ [] := List.cons_ne_nil wr wrs
  have hsized := hs.sized.step e
  by_cases hother : e ≠ .recvTurn
  · have hbusy : s.receiving ≠ [] := by
      rw [hs.receiving]
      exact hne
    obtain ⟨hreceiving, hhead⟩ :=
      Sys.step_receiving hs.sized.fits hbusy hother
    refine .again (Sys.recvExit_idle hother) ⟨?_, hsized, fun _ => ?_⟩
    · rw [hreceiving, hs.receiving]
    · rw [hhead]
      exact hs.head hne
  obtain rfl := not_not.1 hother
  obtain ⟨-, -, hreceiving⟩ := Sys.step_recvTurn hs.receiving
  have hexit := s.recvExit_turn wr
  by_cases hstatus : (postRecvTurn s.qp s.rqHw wr).1 = 0
  · rw [if_pos hstatus] at hreceiving hexit
    exact .next hexit ⟨hreceiving, hsized, fun _ => rfl⟩
  · rw [if_neg hstatus] at hexit
    exact .stop hexit

/-- `bxroce_post_recv` keeps the contract just when it is turned down by
the state of the queue pair, or each turn meets the condition. -/
theorem Sys.postRecvCall_kept_iff {s : Sys} (hsized : s.Sized)
    {wrs : List RecvWr} {events : List SysEvent}
    {o : Outcome Sys RecvWr SysEvent}
    (hcall : s.postRecvCall wrs events = some o) :
    s.RecvContract wrs o ↔ s.RecvCallOk wrs events := by
  have hinval : -EINVAL ≠ 0 := by decide
  unfold Sys.postRecvCall at hcall
  split at hcall
  case isFalse => cases hcall
  rename_i hidle
  have hstart : s.step (.postRecv wrs) = s.postRecv wrs := if_pos hidle
  rw [hstart] at hcall
  have hstop : ∀ (s : Sys) (wr : RecvWr) (e : SysEvent) status marks,
      s.recvExit wr e = .stop status marks → status ≠ 0 := by
    intro s wr e status marks hexit
    by_cases hother : e ≠ .recvTurn
    · rw [Sys.recvExit_idle hother] at hexit
      cases hexit
    obtain rfl := not_not.1 hother
    rw [Sys.recvExit_turn] at hexit
    split at hexit
    · cases hexit
    · rename_i hstatus
      obtain ⟨rfl, -⟩ := Exit.stop.inj hexit
      exact hstatus
  have hkept :=
    call_kept_iff Sys.PostedRecv Sys.rqHead hstop hinval hcall
  have hhead : (s.postRecv wrs).rqHead = s.rqHead := rfl
  rw [hhead] at hkept
  refine hkept.trans (forall_congr' fun hallowed => ?_)
  have hreceiving : (s.postRecv wrs).receiving = wrs := if_pos hallowed
  exact turns_congr (fun h w ws s i hI => hI.kept_iff i)
    (fun h w ws s i hI => hI.carries i)
    (Sys.Receiving.mk hreceiving
      ⟨⟨hsized.fits.head_lt, hsized.fits.sges_lt⟩, hsized.rqCnt⟩
      fun _ => rfl)

end BxRnic.Kernel
