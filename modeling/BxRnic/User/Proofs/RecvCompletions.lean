/-
Receive completions, over every run of a queue pair: whether the k-th
completion names the k-th receive that was accepted.

# How the code keeps track

`bxroce_build_rqsges` puts the id of a receive in the table once for each
element, and the head moves on by as many; polling moves the tail on by
one for each message. So a receive of several elements is reported
several times, and one without elements never. With one element each the
invariant is kept (`Sys.RecvInv.step`).

# The batches

How many receives an entry of the `rx` ring reports is read off a counter
of the hardware, against the entry before it (`rxBatch`).
`SysEvent.Reports` says that the library reads an entry right; what that
takes of the counter is in RecvCounted.lean.
-/
import BxRnic.User.Proofs.Steps
import BxRnic.User.Proofs.RecvRing

namespace BxRnic.User

open Run SlotRing

-- ========================================================== the property

/-- The completions delivered are those of the first receives accepted,
in order; and of all that messages have taken, once every entry has been
polled. -/
structure Sys.RecvsComplete (s : Sys) : Prop where
  inOrder : ofQueue .recv s.delivered <+: s.posted
  all : s.cq.rx.filled Rxcqe.valid = [] →
    ofQueue .recv s.delivered = s.posted.take s.arrived

-- ========================================================= the condition

/-- An entry, read behind those that wait to be read, reports the receives
that were taken. -/
def SysEvent.Reports (s : Sys) : SysEvent → Prop
  | .arrive receives cqe =>
      rxBatches (BitVec.ofNat 32 s.qp.rq.overhead) s.cq.phase
          (s.cq.rx.filled Rxcqe.valid ++ [cqe])
        = rxRounds s.cq s.qp ++ [some receives]
  | _ => True

/-- There is room for the receive. -/
def RecvWr.Accepted (wr : RecvWr) (qp : Qp) : Prop :=
  rqhwqFreeCnt qp.rq ≠ 0 ∧ wr.numSge ≤ qp.rq.maxSges
    ∧ wr.numSge ≤ rqhwqFreeCnt qp.rq

instance (wr : RecvWr) (qp : Qp) : Decidable (wr.Accepted qp) :=
  inferInstanceAs (Decidable (_ ∧ _ ∧ _))

/-- A receive that is accepted has one element. -/
def SysEvent.RecvOk (s : Sys) : SysEvent → Prop
  | .recvTurn _ =>
      match s.receiving with
      | [] => True
      | wr :: _ => wr.Accepted s.qp → wr.numSge = 1
  | _ => True

instance (s : Sys) : ∀ e : SysEvent, Decidable (e.RecvOk s)
  | .recvTurn _ => by
      unfold SysEvent.RecvOk
      cases s.receiving with
      | nil => exact inferInstanceAs (Decidable True)
      | cons wr wrs => exact inferInstanceAs (Decidable (_ → _))
  | .postSend _ => isTrue trivial
  | .sendTurn _ _ => isTrue trivial
  | .postRecv _ => isTrue trivial
  | .arrive _ _ => isTrue trivial
  | .xmit _ => isTrue trivial
  | .pollRound _ => isTrue trivial

-- ========================================================= the invariant

/-- The ring holds the accepted receives that are not reported yet, and
the batches that wait to be read report what was taken of them. -/
structure Sys.RecvInv (s : Sys) : Prop where
  flight : ∃ out, s.qp.rq.RqHolds out
    ∧ ofQueue .recv s.delivered
        ++ (slots s.qp.rq.maxCnt s.qp.rq.tail out).map s.qp.rqeWrIdTbl
      = s.posted
  tidy : s.cq.rx.Tidy Rxcqe.valid s.rxWp
  waiting : ∃ ks : List Nat, rxRounds s.cq s.qp = ks.map some
    ∧ (ofQueue .recv s.delivered).length + ks.sum = s.arrived
  arrived_le : s.arrived ≤ s.posted.length

theorem Sys.RecvInv.complete {s : Sys} (h : s.RecvInv) :
    s.RecvsComplete := by
  obtain ⟨out, -, hids⟩ := h.flight
  constructor
  · exact ⟨_, hids⟩
  · intro hpolled
    obtain ⟨ks, hks, hsum⟩ := h.waiting
    unfold rxRounds at hks
    rw [hpolled, rxBatches] at hks
    rw [List.map_eq_nil_iff.1 hks.symm, List.sum_nil, Nat.add_zero]
      at hsum
    rw [← hids, ← hsum, List.take_left]

theorem Sys.start_recvInv (c : CreateQp) (qpState : QpState)
    (attr : QpChangeInfo) : (Sys.start c qpState attr).RecvInv where
  flight := ⟨0, createQp_rqHolds c, rfl⟩
  tidy := FlagRing.tidy_of_clear fun _ => rfl
  waiting := by
    refine ⟨[], ?_, rfl⟩
    unfold rxRounds
    rw [FlagRing.filled_of_not_flag rfl]
    rfl
  arrived_le := Nat.le_refl _

-- =============================================================== one turn

/-- A receive that is not accepted changes nothing. -/
theorem postRecvTurn_refused (mrList : List MrSgInfo) (qp : Qp)
    (regs : Regs) {wr : RecvWr} (h : ¬ wr.Accepted qp) :
    (postRecvTurn mrList qp regs wr).1 ≠ 0
      ∧ (postRecvTurn mrList qp regs wr).2 = (qp, regs) := by
  unfold postRecvTurn
  by_cases hroom : rqhwqFreeCnt qp.rq = 0 ∨ wr.numSge > qp.rq.maxSges
  · simp only [if_pos hroom]
    exact ⟨enomem_ne_zero, trivial⟩
  · have hfoe : checkFoe wr.numSge (rqhwqFreeCnt qp.rq) ≠ 0 := by
      unfold checkFoe
      rw [if_pos]
      · exact enomem_ne_zero
      · by_contra hle
        exact h ⟨by omega, by omega, by omega⟩
    simp only [if_neg hroom, if_pos hfoe]
    exact ⟨hfoe, trivial⟩

/-- A receive there is room for is accepted. -/
theorem postRecvTurn_ok (mrList : List MrSgInfo) {qp : Qp} (regs : Regs)
    {wr : RecvWr} (h : wr.Accepted qp) :
    (postRecvTurn mrList qp regs wr).1 = 0 := by
  obtain ⟨hfree, hsges, hroom⟩ := h
  have hfoe : checkFoe wr.numSge (rqhwqFreeCnt qp.rq) = 0 := by
    unfold checkFoe
    rw [if_neg (by omega)]
  have hfull : ¬ (rqhwqFreeCnt qp.rq = 0
      ∨ wr.numSge > qp.rq.maxSges) := by omega
  unfold postRecvTurn
  simp only [if_neg hfull, hfoe, ne_eq, not_true_eq_false, if_false]

/-- What the loop over the elements leaves. -/
theorem buildRqsgesLoop_eq (mrList : List MrSgInfo) (wr : RecvWr)
    (sgList : List Sge) (qp : Qp) (i : Nat) :
    buildRqsgesLoop mrList wr qp i sgList
      = { qp with
          rqVa := storeFrom qp.rqVa (qp.rq.head + i)
            (sgList.map (recvRqe mrList))
          rqeWrIdTbl := markRound qp.rq.maxCnt qp.rq.head wr.wrId
            qp.rqeWrIdTbl i sgList.length } := by
  induction sgList generalizing qp i with
  | nil => rfl
  | cons sge sgList ih =>
      rw [buildRqsgesLoop, ih]
      rfl

/-- An accepted receive is built, rung and counted. -/
theorem postRecvTurn_accepted {mrList : List MrSgInfo} {qp : Qp}
    {regs : Regs} {wr : RecvWr}
    (h : (postRecvTurn mrList qp regs wr).1 = 0) :
    postRecvTurn mrList qp regs wr
      = (0, updateRqHead (buildRqsges mrList qp wr) wr,
          ringRqHw (buildRqsges mrList qp wr) regs wr) := by
  have hnz : ENOMEM ≠ 0 := by decide
  unfold postRecvTurn at h ⊢
  dsimp only at h ⊢
  split at h
  · exact absurd h hnz
  rename_i hroom
  rw [if_neg hroom]
  split at h
  · rename_i hstatus
    exact absurd h hstatus
  · rename_i hstatus
    rw [if_neg hstatus]

/-- The tail, moved on over entries in use. -/
theorem HwqInfo.RqHolds.popRq (tbl : Nat → U64) (k : Nat) :
    ∀ {q : HwqInfo} {out : Nat}, q.RqHolds (k + out) →
      (q.popRq k).RqHolds out
        ∧ (slots q.maxCnt q.tail (k + out)).map tbl
          = ofQueue .recv (recvIds tbl q k)
            ++ (slots (q.popRq k).maxCnt (q.popRq k).tail out).map tbl := by
  induction k with
  | zero =>
      intro q out h
      rw [Nat.zero_add] at h ⊢
      exact ⟨h, rfl⟩
  | succ k ih =>
      intro q out h
      rw [Nat.succ_add] at h ⊢
      obtain ⟨hrest, hids⟩ := ih h.pop
      refine ⟨hrest, ?_⟩
      rw [slots_pop h.tail_lt, List.map_cons]
      exact congrArg (List.cons (tbl q.tail)) hids

/-- The note of the last batch is no concern of the ring. -/
theorem HwqInfo.RqHolds.overhead {q : HwqInfo} {out : Nat}
    (h : q.RqHolds out) (overhead : Nat) :
    HwqInfo.RqHolds { q with overhead := overhead } out :=
  ⟨h.tail_lt, h.idx, h.le, h.head_eq, h.full⟩

/-- The batch that is read is the first of those that wait, and leaves
the others. -/
theorem waiting_cons {cq : Cq} {qp : Qp} {k : Nat} {phase : U32}
    {ks : List Nat} (hvalid : cq.rx.head.valid = true)
    (hbatch : rxBatch (BitVec.ofNat 32 qp.rq.overhead) cq.phase
      cq.rx.head = some (k, phase))
    (hks : rxRounds cq qp = ks.map some) :
    ∃ ks', ks = k :: ks' ∧ ∀ (cq' : Cq) (qp' : Qp),
      cq'.rx = cq.rx.consume .zero → cq'.phase = phase →
      qp'.rq.overhead = cq.rx.head.bth6487Lo.toNat →
      rxRounds cq' qp' = ks'.map some := by
  have hfilled := FlagRing.filled_of_flag Rxcqe.zero hvalid rfl
  unfold rxRounds at hks ⊢
  rw [hfilled, rxBatches, hbatch] at hks
  cases ks with
  | nil => cases hks
  | cons k' ks =>
      obtain ⟨hk, hrest⟩ := List.cons.inj hks
      obtain rfl := Option.some.inj hk
      refine ⟨ks, rfl, fun cq' qp' hrx hphase hnote => ?_⟩
      rw [hrx, hphase, hnote, BitVec.ofNat_toNat]
      exact hrest

-- ============================================================== every step

/-- A turn of `bxroce_post_recv`. -/
theorem Sys.RecvInv.recvTurn {s : Sys} (h : s.RecvInv)
    (mrList : List MrSgInfo)
    (hok : (SysEvent.recvTurn mrList).RecvOk s) :
    (s.recvTurn mrList).RecvInv := by
  unfold Sys.recvTurn
  unfold SysEvent.RecvOk at hok
  cases hreceiving : s.receiving with
  | nil => exact h
  | cons wr wrs =>
      rw [hreceiving] at hok
      simp only
      by_cases hroom : wr.Accepted s.qp
      · -- one element, which goes to the head's slot
        obtain ⟨wrId, sgList⟩ := wr
        obtain ⟨sge, rfl⟩ : ∃ sge, sgList = [sge] :=
          List.length_eq_one_iff.1 (hok hroom)
        have hturn :=
          postRecvTurn_single mrList s.qp s.regs ⟨wrId, sge⟩
        have hsges : ¬ (rqhwqFreeCnt s.qp.rq = 0
            ∨ s.qp.rq.maxSges = 0) := by
          have hle : 1 ≤ s.qp.rq.maxSges := hroom.2.1
          have hfree := hroom.1
          omega
        rw [if_neg hsges] at hturn
        have hturn' : postRecvTurn mrList s.qp s.regs ⟨wrId, [sge]⟩
            = _ := hturn
        simp only [hturn', if_true]
        obtain ⟨out, hholds, hids⟩ := h.flight
        have hlt : out < s.qp.rq.maxCnt := by
          have hle := hholds.free_le
          have hfree := hroom.1
          omega
        refine ⟨⟨out + 1, hholds.push hroom.1, ?_⟩, h.tidy, h.waiting,
          ?_⟩
        · show _ ++ (slots s.qp.rq.maxCnt s.qp.rq.tail (out + 1)).map
              (Function.update s.qp.rqeWrIdTbl
                (s.qp.rq.head % s.qp.rq.maxCnt) wrId) = _
          rw [Nat.mod_eq_of_lt hholds.head_lt, hholds.head_eq,
            slots_succ, List.map_append, map_slots_update hlt,
            List.map_singleton, Function.update_self,
            ← List.append_assoc, hids]
        · show s.arrived ≤ (s.posted ++ [wrId]).length
          have hle := h.arrived_le
          rw [List.length_append]
          omega
      · obtain ⟨hne, hsame⟩ :=
          postRecvTurn_refused mrList s.qp s.regs hroom
        simp only [if_neg hne, hsame]
        exact ⟨h.flight, h.tidy, h.waiting, h.arrived_le⟩

/-- A turn of `bxroce_post_send`. -/
theorem Sys.RecvInv.sendTurn {s : Sys} (h : s.RecvInv)
    (mrList : List MrSgInfo) (reply : Option SgPhyInfo) :
    (s.sendTurn mrList reply).RecvInv := by
  unfold Sys.sendTurn
  cases s.sending with
  | nil => exact h
  | cons wr wrs =>
      obtain ⟨hrq, htbl⟩ := postSendTurn_recv mrList s.qp s.regs wr reply
      constructor
      · simp only [hrq, htbl]
        exact h.flight
      · exact h.tidy
      · unfold rxRounds
        simp only [hrq]
        exact h.waiting
      · exact h.arrived_le

/-- An entry is sent. -/
theorem Sys.RecvInv.xmit {s : Sys} (h : s.RecvInv) (cqe : Xmitcqe) :
    (s.xmit cqe).RecvInv := by
  unfold Sys.xmit
  split
  · exact h
  · exact ⟨h.flight, h.tidy, h.waiting, h.arrived_le⟩

/-- Messages arrive. -/
theorem Sys.RecvInv.arrive {s : Sys} (h : s.RecvInv) (receives : Nat)
    (cqe : Rxcqe) (hreports : (SysEvent.arrive receives cqe).Reports s) :
    (s.arrive receives cqe).RecvInv := by
  unfold Sys.arrive
  split
  · exact h
  · rename_i hgo
    rw [not_or, not_or, Bool.not_eq_false, Bool.not_eq_true] at hgo
    obtain ⟨hposted, hcqe, hfree⟩ := hgo
    obtain ⟨hfilled, htidy⟩ := h.tidy.produce hfree hcqe
    obtain ⟨ks, hks, hsum⟩ := h.waiting
    refine ⟨h.flight, htidy, ⟨ks ++ [receives], ?_, ?_⟩,
      Nat.le_of_not_lt hposted⟩
    · unfold rxRounds
      rw [hfilled]
      unfold SysEvent.Reports at hreports
      rw [hks] at hreports
      rw [List.map_append]
      exact hreports
    · rw [List.sum_append, List.sum_singleton, ← Nat.add_assoc]
      exact congrArg (· + receives) hsum

/-- A round of `bxroce_poll_cq`. -/
theorem Sys.RecvInv.pollRound {s : Sys} (h : s.RecvInv)
    (ibwc : Nat → Wc) : (s.pollRound ibwc).RecvInv := by
  have hpolled := s.pollRound_polled ibwc
  generalize s.pollRound ibwc = s' at hpolled
  cases hpolled with
  | idle => exact h
  | dies => exact ⟨h.flight, h.tidy, h.waiting, h.arrived_le⟩
  | took hxmit hrx =>
      -- the send part delivers nothing for the receive queue
      have hsend := hxmit.ofQueue_recv
      cases hrx with
      | idle hvalid =>
          refine ⟨?_, h.tidy, ?_, h.arrived_le⟩
          · simp only [List.append_nil, ofQueue_append, hsend]
            exact h.flight
          · simp only [List.append_nil, ofQueue_append, hsend]
            exact h.waiting
      | @taken k _ hvalid hbatch =>
          obtain ⟨out, hholds, hids⟩ := h.flight
          obtain ⟨ks, hks, hsum⟩ := h.waiting
          obtain ⟨ks, rfl, hrest⟩ := waiting_cons hvalid hbatch hks
          rw [List.sum_cons] at hsum
          -- the batch reports no more than the ring holds
          obtain ⟨out, rfl⟩ : ∃ o, out = k + o := by
            have hlen := congrArg List.length hids
            rw [List.length_append, List.length_map, length_slots]
              at hlen
            have hle := h.arrived_le
            exact ⟨out - k, by omega⟩
          obtain ⟨hpop, htaken⟩ := (hholds.overhead
            s.cq.rx.head.bth6487Lo.toNat).popRq s.qp.rqeWrIdTbl k
          rw [recvIds_overhead] at htaken
          have hlen : (ofQueue .recv
              (recvIds s.qp.rqeWrIdTbl s.qp.rq k)).length = k := by
            rw [ofQueue_recv_recvIds, List.length_map, length_recvIds]
          refine ⟨⟨out, hpop, ?_⟩, h.tidy.consume hvalid rfl,
            ⟨ks, hrest _ _ rfl rfl (overhead_popRq k _), ?_⟩,
            h.arrived_le⟩
          · rw [ofQueue_append, ofQueue_append, hsend, List.nil_append,
              List.append_assoc, ← htaken]
            exact hids
          · rw [ofQueue_append, ofQueue_append, hsend, List.nil_append,
              List.length_append, hlen]
            show _ = s.arrived
            omega

/-- The invariant is kept by every step that meets the condition. -/
theorem Sys.RecvInv.step (s : Sys) (e : SysEvent) (h : s.RecvInv)
    (hok : e.Reports s ∧ e.RecvOk s) : (s.step e).RecvInv := by
  unfold Sys.step
  split
  · exact h
  · cases e with
    | postSend wrs =>
        simp only
        split
        · exact ⟨h.flight, h.tidy, h.waiting, h.arrived_le⟩
        · exact h
    | sendTurn mrList reply => exact h.sendTurn mrList reply
    | postRecv wrs =>
        simp only
        split
        · exact ⟨h.flight, h.tidy, h.waiting, h.arrived_le⟩
        · exact h
    | recvTurn mrList => exact h.recvTurn mrList hok.2
    | xmit cqe => exact h.xmit cqe
    | arrive receives cqe => exact h.arrive receives cqe hok.1
    | pollRound ibwc => exact h.pollRound ibwc

end BxRnic.User
