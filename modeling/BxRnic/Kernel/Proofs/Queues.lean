/-
The kernel's rings, over every run: whether a post writes an entry that
the hardware has not consumed yet.

# How the code tells a full ring from an empty one

Where head and tail meet, the flag decides (`bxroce_hwq_free_cnt`). It is
set to EMPTY whenever the tail, read from the hardware, is where the head
is (`HwqInfo.setTail`), and that is so of a full ring as well: the next
call takes a ring that was filled, and of which nothing was consumed, for
an empty one. On the send ring FULL is never set in the first place,
since the head that is read back is the head that was written.

# What holds

As long as no request is looked at while a ring that is not empty looks
so (`SysEvent.Ok`), the indices are right about entries filled and
consumed (`HwqInfo.Right`), the room is there (`Right.room`), and both
properties hold throughout (`posts_spare_owned`).
-/
import BxRnic.Kernel.System
import BxRnic.Kernel.Proofs.Entries
import BxRnic.Lib.Run

namespace BxRnic.Kernel

open Run SlotRing Doorbell

-- ========================================================== the property

/-- On neither ring more entries are posted and not consumed than it
has. -/
structure Sys.InBounds (s : Sys) : Prop where
  sq : s.sqHw.posted - s.sqHw.consumed ≤ s.qp.sq.maxCnt
  rq : s.rqHw.posted - s.rqHw.consumed ≤ s.qp.rq.maxCnt

/-- The step leaves alone the entries that the hardware owns. -/
structure SysEvent.Spares (s : Sys) (e : SysEvent) : Prop where
  sq : ∀ i ∈ s.sqHw.owned s.qp.sq.maxCnt,
    (s.step e).qp.sqVa i = s.qp.sqVa i
  rq : ∀ i ∈ s.rqHw.owned s.qp.rq.maxCnt,
    (s.step e).qp.rqVa i = s.qp.rqVa i

-- ========================================================= the condition

/-- The ring is one that `bxroce_hwq_free_cnt` takes for empty. -/
def HwqInfo.LooksEmpty (q : HwqInfo) : Prop :=
  q.head = q.tail ∧ q.qpFoe = .empty

/-- The hardware has consumed everything, up to the head. -/
def HwqInfo.Drained (q : HwqInfo) (hw : Doorbell) : Prop :=
  hw.posted = hw.consumed ∧ hw.rp q.maxCnt = q.head

/-- The send request gets past the tests. -/
def SendWr.Admitted (wr : SendWr) (qp : Qp) : Prop :=
  ¬ (qp.qpType = .ud ∧ wr.opcode ≠ .send ∧ wr.opcode ≠ .sendWithImm)
    ∧ hwqFreeCnt qp.sq ≠ 0 ∧ wr.numSge ≤ qp.sq.maxSges
    ∧ wr.numSge ≤ hwqFreeCnt qp.sq

/-- The receive request gets past the tests. -/
def RecvWr.Admitted (wr : RecvWr) (qp : Qp) : Prop :=
  hwqFreeCnt qp.rq ≠ 0 ∧ wr.numSge ≤ qp.rq.maxSges
    ∧ wr.numSge ≤ hwqFreeCnt qp.rq

/-- No request that gets past the tests meets a ring that looks empty and
is not. -/
def SysEvent.Ok (s : Sys) : SysEvent → Prop
  | .sendTurn =>
      ∀ wr ∈ s.sending.head?, wr.Admitted s.qp → s.qp.sq.LooksEmpty →
        s.qp.sq.Drained s.sqHw
  | .recvTurn =>
      ∀ wr ∈ s.receiving.head?, wr.Admitted s.qp → s.qp.rq.LooksEmpty →
        s.qp.rq.Drained s.rqHw
  | _ => True

instance (q : HwqInfo) : Decidable q.LooksEmpty :=
  inferInstanceAs (Decidable (_ ∧ _))

instance (q : HwqInfo) (hw : Doorbell) : Decidable (q.Drained hw) :=
  inferInstanceAs (Decidable (_ ∧ _))

instance (wr : SendWr) (qp : Qp) : Decidable (wr.Admitted qp) :=
  inferInstanceAs (Decidable (_ ∧ _))

instance (wr : RecvWr) (qp : Qp) : Decidable (wr.Admitted qp) :=
  inferInstanceAs (Decidable (_ ∧ _))

instance (s : Sys) : ∀ e : SysEvent, Decidable (e.Ok s)
  | .sendTurn =>
      inferInstanceAs (Decidable (∀ wr ∈ s.sending.head?, _ → _ → _))
  | .recvTurn =>
      inferInstanceAs (Decidable (∀ wr ∈ s.receiving.head?, _ → _ → _))
  | .postSend _ => isTrue trivial
  | .postRecv _ => isTrue trivial
  | .sqConsume => isTrue trivial
  | .rqConsume => isTrue trivial

-- ============================================================== one ring

/-- The ring's indices are right. -/
structure HwqInfo.Right (q : HwqInfo) (hw : Doorbell) : Prop where
  pos : 0 < q.maxCnt
  idx : q.maxWqeIdx = q.maxCnt - 1
  tracks : ∃ built seen, Tracks q.maxCnt q.head q.tail hw built seen

namespace HwqInfo.Right

variable {q : HwqInfo} {hw : Doorbell}

theorem head_lt (h : q.Right hw) : q.head < q.maxCnt := by
  obtain ⟨built, seen, htracks⟩ := h.tracks
  rw [htracks.head_eq]
  exact Nat.mod_lt _ h.pos

/-- `bxroce_update_sq_tail` and `bxroce_update_rq_tail`. -/
theorem setTail (h : q.Right hw) :
    (q.setTail (hw.rp q.maxCnt)).Right hw := by
  obtain ⟨built, seen, htracks⟩ := h.tracks
  exact ⟨h.pos, h.idx, built, hw.consumed, htracks.look⟩

theorem consume (h : q.Right hw) : q.Right hw.consume := by
  obtain ⟨built, seen, htracks⟩ := h.tracks
  exact ⟨h.pos, h.idx, built, seen, htracks.consume⟩

theorem inBounds (h : q.Right hw) :
    hw.posted - hw.consumed ≤ q.maxCnt := by
  obtain ⟨built, seen, htracks⟩ := h.tracks
  exact htracks.inBounds

/-- The flag is of no concern where the indices differ. -/
theorem flag (h : q.Right hw) (foe : QpFoe) :
    HwqInfo.Right { q with qpFoe := foe } hw :=
  ⟨h.pos, h.idx, h.tracks⟩

/-- Unless a ring in use looks empty, the free entries are there. -/
theorem room (h : q.Right hw) (hok : q.LooksEmpty → q.Drained hw) :
    ∃ built seen, Tracks q.maxCnt q.head q.tail hw built seen
      ∧ built + hwqFreeCnt q ≤ seen + q.maxCnt := by
  obtain ⟨built, seen, htracks⟩ := h.tracks
  have htail : q.tail < q.maxCnt := by
    rw [htracks.tail_eq]
    exact Nat.mod_lt _ h.pos
  have hbuilt := htracks.built_le
  have hhead := htracks.head_eq_next
  have hidx := h.idx
  have hcases := next_cases (k := built - seen) htail (by omega)
  rw [← hhead] at hcases
  unfold hwqFreeCnt
  by_cases hahead : q.head > q.tail
  · -- the head has not gone round
    rw [if_pos hahead]
    refine ⟨built, seen, htracks, ?_⟩
    have hmod := Nat.mod_le (q.maxWqeIdx - q.head + q.tail) q.maxCnt
    omega
  · rw [if_neg hahead]
    by_cases hmeet : q.head = q.tail
    · rw [if_pos hmeet]
      by_cases hflag : q.qpFoe = .empty
      · rw [if_pos hflag]
        obtain ⟨hidle, hrp⟩ := hok ⟨hmeet, hflag⟩
        exact ⟨hw.posted, hw.posted, htracks.caughtUp hmeet hidle hrp,
          Nat.le_refl _⟩
      · rw [if_neg hflag]
        exact ⟨built, seen, htracks, hbuilt⟩
    · -- it has, and is behind the tail
      rw [if_neg hmeet]
      refine ⟨built, seen, htracks, ?_⟩
      omega

end HwqInfo.Right

-- =========================================================== the send ring

/-- The entries built are filled. -/
theorem Builds.filled {w : Nat} {qp qp' : Qp} (h : Builds w qp qp')
    {hw : Doorbell} {built seen : Nat}
    (htracks : Tracks qp.sq.maxCnt qp.sq.head qp.sq.tail hw built seen)
    (hroom : built + w ≤ seen + qp.sq.maxCnt) :
    ∃ k, Tracks qp'.sq.maxCnt qp'.sq.head qp'.sq.tail hw (built + k) seen
      ∧ (qp'.overhead = true → qp.overhead = true
        ∨ qp'.sq.maxCnt ≤ built % qp'.sq.maxCnt + k) := by
  obtain ⟨k, hk, hsq, hend⟩ := h.moved
  refine ⟨k, ?_, fun hover => ?_⟩
  · rw [hsq]
    exact htracks.fill (by omega)
  · rw [hsq]
    rcases hend hover with hbefore | hwrap
    · exact Or.inl hbefore
    · exact Or.inr (htracks.head_eq ▸ hwrap)

/-- Building keeps the size of the ring. -/
theorem Builds.size {w : Nat} {qp qp' : Qp} (h : Builds w qp qp')
    {hw : Doorbell} (hright : qp.sq.Right hw) :
    0 < qp'.sq.maxCnt ∧ qp'.sq.maxWqeIdx = qp'.sq.maxCnt - 1 := by
  obtain ⟨k, -, hsq, -⟩ := h.moved
  rw [hsq]
  exact ⟨hright.pos, hright.idx⟩

/-- What building writes is room, not entries of the hardware's. -/
theorem Builds.spares {w : Nat} {qp qp' : Qp} (h : Builds w qp qp')
    {hw : Doorbell} {built seen : Nat}
    (htracks : Tracks qp.sq.maxCnt qp.sq.head qp.sq.tail hw built seen)
    (hroom : built + w ≤ seen + qp.sq.maxCnt) :
    ∀ i ∈ hw.owned qp.sq.maxCnt, qp'.sqVa i = qp.sqVa i := by
  intro i hi
  refine h.kept i fun m hm heq => ?_
  refine htracks.notMem_owned (j := m) (by omega) ?_
  rw [heq]
  exact hi

/-- The send head is set to what was posted. -/
theorem updateSqHead_right {qp : Qp} {hw : Doorbell} {built seen : Nat}
    (hsize : 0 < qp.sq.maxCnt ∧ qp.sq.maxWqeIdx = qp.sq.maxCnt - 1)
    (h : Tracks qp.sq.maxCnt qp.sq.head qp.sq.tail hw built seen) :
    (updateSqHead qp hw).sq.Right hw :=
  ⟨hsize.1, hsize.2, hw.posted, seen, h.back⟩

/-- The doorbell of the send ring, and the head that is read back. -/
theorem ringSqHw_right {qp : Qp} {hw : Doorbell} (wr : SendWr)
    {built seen k : Nat} (hle : hw.posted ≤ built)
    (hsize : 0 < qp.sq.maxCnt ∧ qp.sq.maxWqeIdx = qp.sq.maxCnt - 1)
    (h : Tracks qp.sq.maxCnt qp.sq.head qp.sq.tail hw (built + k) seen)
    (hover : qp.overhead = true →
      qp.sq.maxCnt ≤ built % qp.sq.maxCnt + k) :
    (updateSqHead (ringSqHw qp hw wr).1 (ringSqHw qp hw wr).2).sq.Right
      (ringSqHw qp hw wr).2 := by
  have hidx : qp.sq.head = qp.sq.head % qp.sq.maxCnt := by
    rw [h.head_eq, Nat.mod_mod]
  unfold ringSqHw
  split
  · exact updateSqHead_right hsize h
  · by_cases hpassed : qp.overhead = true
    · -- the head has passed the end since the ring was rung
      have hring := h.ringEnd hsize.1 hle (hover hpassed)
      simp only [hpassed, if_true]
      exact updateSqHead_right hsize (hring.ringHead hsize.1 hidx)
    · simp only [hpassed]
      exact updateSqHead_right hsize (h.ringHead hsize.1 hidx)

/-- The doorbell leaves the entries and the other ring alone. -/
theorem ringSqHw_keeps (qp : Qp) (hw : Doorbell) (wr : SendWr) :
    (ringSqHw qp hw wr).1.rq = qp.rq
      ∧ (ringSqHw qp hw wr).1.sqVa = qp.sqVa
      ∧ (ringSqHw qp hw wr).1.rqVa = qp.rqVa := by
  unfold ringSqHw
  split
  · exact ⟨rfl, rfl, rfl⟩
  · exact ⟨rfl, rfl, rfl⟩

/-- After the doorbell the end of the ring is not noted any more. -/
theorem ringSqHw_overhead {qp : Qp} (hw : Doorbell) (wr : SendWr)
    (hover : qp.overhead = false) :
    (ringSqHw (buildWr qp wr).2 hw wr).1.overhead = false := by
  unfold ringSqHw
  split
  · rename_i hnone
    rw [buildWr_overhead hnone, hover]
  · rfl

/-- A turn of `bxroce_post_send`, by what comes of the request: it is
turned down by the tests, or by the routine that builds it, or it is
posted. -/
theorem postSendTurn_cases (qp : Qp) (hw : Doorbell) (wr : SendWr) :
    (postSendTurn qp hw wr).1 ≠ 0
        ∧ (postSendTurn qp hw wr).2 = (qp, hw)
      ∨ wr.Admitted qp ∧ (postSendTurn qp hw wr).1 ≠ 0
        ∧ (postSendTurn qp hw wr).2 = ((buildWr qp wr).2, hw)
      ∨ wr.Admitted qp ∧ (postSendTurn qp hw wr).1 = 0
        ∧ (postSendTurn qp hw wr).2
          = (updateSqHead (ringSqHw (buildWr qp wr).2 hw wr).1
              (ringSqHw (buildWr qp wr).2 hw wr).2,
            (ringSqHw (buildWr qp wr).2 hw wr).2) := by
  have hinval : -EINVAL ≠ 0 := by decide
  have hnomem : -ENOMEM ≠ 0 := by decide
  unfold postSendTurn
  by_cases htype : qp.qpType = .ud ∧ wr.opcode ≠ .send
      ∧ wr.opcode ≠ .sendWithImm
  · rw [if_pos htype]
    exact Or.inl ⟨hinval, rfl⟩
  · rw [if_neg htype]
    by_cases hroom : hwqFreeCnt qp.sq = 0 ∨ wr.numSge > qp.sq.maxSges
    · simp only [if_pos hroom]
      exact Or.inl ⟨hnomem, trivial⟩
    · simp only [if_neg hroom]
      unfold checkFoe
      by_cases hfoe : wr.numSge > hwqFreeCnt qp.sq
      · simp only [if_pos hfoe]
        exact Or.inl ⟨hnomem, by rw [if_pos hnomem]⟩
      · have hadmitted : wr.Admitted qp :=
          ⟨htype, by omega, by omega, by omega⟩
        simp only [if_neg hfoe, ne_eq, not_true_eq_false, if_false]
        by_cases hstatus : (buildWr qp wr).1 = 0
        · simp only [hstatus, not_true_eq_false, if_false]
          exact Or.inr (Or.inr ⟨hadmitted, trivial, trivial⟩)
        · simp only [hstatus, not_false_eq_true, if_true]
          exact Or.inr (Or.inl ⟨hadmitted, trivial, trivial⟩)

-- ======================================================= the receive ring

/-- The receive ring keeps its size; its head goes round in binary. -/
theorem updateRqHead_right {qp : Qp} {hw : Doorbell} (wr : RecvWr)
    {built seen : Nat} (hcnt : qp.rq.maxCnt = maxRqe)
    (hright : qp.rq.Right hw)
    (htracks : Tracks qp.rq.maxCnt qp.rq.head qp.rq.tail hw built seen)
    (hroom : built + wr.numSge ≤ seen + qp.rq.maxCnt) :
    (updateRqHead qp wr).rq.Right (ringRqHw qp hw wr) := by
  have hfilled := htracks.fill hroom
  have hrung := hfilled.ringHead hright.pos
    (Eq.refl ((qp.rq.head + wr.numSge) % qp.rq.maxCnt))
  have hhead : (qp.rq.head + wr.numSge) % qp.rq.maxCnt
      = (qp.rq.head + wr.numSge) &&& (qp.rq.maxCnt - 1) := by
    rw [hcnt]
    exact (Nat.and_two_pow_sub_one_eq_mod _ 8).symm
  unfold updateRqHead ringRqHw
  split
  · rename_i hnone
    rw [hnone, Nat.add_zero, Nat.mod_eq_of_lt hright.head_lt] at hrung
    rw [hnone, Nat.add_zero]
    exact ⟨hright.pos, hright.idx, _, _, hrung⟩
  · rw [hhead] at hrung
    exact ⟨hright.pos, hright.idx, _, _, hrung⟩

/-- Nothing else changes there. -/
theorem updateRqHead_keeps (qp : Qp) (wr : RecvWr) :
    (updateRqHead qp wr).rq.maxCnt = qp.rq.maxCnt
      ∧ (updateRqHead qp wr).sq = qp.sq
      ∧ (updateRqHead qp wr).sqVa = qp.sqVa
      ∧ (updateRqHead qp wr).rqVa = qp.rqVa
      ∧ (updateRqHead qp wr).overhead = qp.overhead := by
  unfold updateRqHead
  split
  · exact ⟨rfl, rfl, rfl, rfl, rfl⟩
  · exact ⟨rfl, rfl, rfl, rfl, rfl⟩

/-- A turn of `bxroce_post_recv`: the request is turned down, or
posted. -/
theorem postRecvTurn_cases (qp : Qp) (hw : Doorbell) (wr : RecvWr) :
    (postRecvTurn qp hw wr).2 = (qp, hw)
      ∨ wr.Admitted qp
        ∧ (postRecvTurn qp hw wr).2
          = (updateRqHead (buildRqsges qp wr) wr,
            ringRqHw (buildRqsges qp wr) hw wr) := by
  have hnomem : -ENOMEM ≠ 0 := by decide
  unfold postRecvTurn
  by_cases hroom : hwqFreeCnt qp.rq = 0 ∨ wr.numSge > qp.rq.maxSges
  · simp only [if_pos hroom]
    exact Or.inl trivial
  · simp only [if_neg hroom]
    unfold checkFoe
    by_cases hfoe : wr.numSge > hwqFreeCnt qp.rq
    · simp only [if_pos hfoe]
      rw [if_pos hnomem]
      exact Or.inl rfl
    · simp only [if_neg hfoe, ne_eq, not_true_eq_false, if_false]
      exact Or.inr ⟨⟨by omega, by omega, by omega⟩, trivial⟩

/-- What the loop over the elements leaves. -/
theorem buildRqsgesLoop_eq (wr : RecvWr) (sgList : List Sge) (qp : Qp)
    (i : Nat) :
    buildRqsgesLoop wr qp i sgList
      = { qp with
          rqVa := storeFrom qp.rqVa (qp.rq.head + i) (sgList.map recvRqe)
          rqeWrIdTbl := markRound qp.rq.maxCnt qp.rq.head wr.wrId
            qp.rqeWrIdTbl i sgList.length } := by
  induction sgList generalizing qp i with
  | nil => rfl
  | cons sge sgList ih =>
      rw [buildRqsgesLoop, ih]
      rfl

/-- An accepted receive is built, rung and counted. -/
theorem postRecvTurn_accepted {qp : Qp} {hw : Doorbell} {wr : RecvWr}
    (h : (postRecvTurn qp hw wr).1 = 0) :
    postRecvTurn qp hw wr
      = (0, updateRqHead (buildRqsges qp wr) wr,
          ringRqHw (buildRqsges qp wr) hw wr) := by
  have hnz : -ENOMEM ≠ 0 := by decide
  unfold postRecvTurn at h ⊢
  dsimp only at h ⊢
  split at h
  · exact absurd h hnz
  rename_i hroom
  rw [if_neg hroom]
  split at h
  · rename_i hstatus
    exact absurd h hstatus
  · rename_i hstatus
    rw [if_neg hstatus]

-- ========================================================= the invariant

/-- Both rings are right; and while a call of `bxroce_post_send` is going
on, the end of the ring is not noted between its turns. -/
structure Sys.QueueInv (s : Sys) : Prop where
  sq : s.qp.sq.Right s.sqHw
  rq : s.qp.rq.Right s.rqHw
  rqCnt : s.qp.rq.maxCnt = maxRqe
  rung : s.sending ≠ [] → s.qp.overhead = false

theorem Sys.start_queueInv (qp : Qp) (qpState : QpState) :
    (Sys.start qp qpState).QueueInv where
  sq := ⟨Nat.succ_pos 2047, rfl, 0, 0, tracks_start⟩
  rq := ⟨Nat.succ_pos 255, rfl, 0, 0, tracks_start⟩
  rqCnt := rfl
  rung h := absurd rfl h

theorem Sys.QueueInv.inBounds {s : Sys} (h : s.QueueInv) : s.InBounds :=
  ⟨h.sq.inBounds, h.rq.inBounds⟩

/-- What a step leaves: the invariant, and the entries the hardware
owns. -/
structure Sys.Good (s s' : Sys) : Prop where
  inv : s'.QueueInv
  sqVa : ∀ i ∈ s.sqHw.owned s.qp.sq.maxCnt, s'.qp.sqVa i = s.qp.sqVa i
  rqVa : ∀ i ∈ s.rqHw.owned s.qp.rq.maxCnt, s'.qp.rqVa i = s.qp.rqVa i

/-- A step that does not touch the entries. -/
theorem Sys.Good.untouched {s s' : Sys} (h : s'.QueueInv)
    (hsq : s'.qp.sqVa = s.qp.sqVa) (hrq : s'.qp.rqVa = s.qp.rqVa) :
    s.Good s' :=
  ⟨h, fun _ _ => by rw [hsq], fun _ _ => by rw [hrq]⟩

theorem SendWr.Admitted.width_le {wr : SendWr} {qp : Qp}
    (h : wr.Admitted qp) : wr.width ≤ hwqFreeCnt qp.sq :=
  Nat.max_le.2 ⟨Nat.pos_of_ne_zero h.2.1, h.2.2.2⟩

/-- A request that gets past the tests finds room for its entries. -/
theorem Sys.QueueInv.sendRoom {s : Sys} (h : s.QueueInv)
    (hok : SysEvent.sendTurn.Ok s) {wr : SendWr} {wrs : List SendWr}
    (hsending : s.sending = wr :: wrs) (hadmitted : wr.Admitted s.qp) :
    ∃ built seen,
      Tracks s.qp.sq.maxCnt s.qp.sq.head s.qp.sq.tail s.sqHw built seen
        ∧ built + wr.width ≤ seen + s.qp.sq.maxCnt := by
  have hempty := hok wr (by simp [hsending]) hadmitted
  obtain ⟨built, seen, htracks, hfree⟩ := h.sq.room hempty
  have hwidth := hadmitted.width_le
  exact ⟨built, seen, htracks, by omega⟩

-- ============================================================ every step

/-- A turn of `bxroce_post_send`. -/
theorem Sys.QueueInv.sendTurn {s : Sys} (h : s.QueueInv)
    (hok : SysEvent.sendTurn.Ok s) : s.Good s.sendTurn := by
  unfold Sys.sendTurn
  cases hsending : s.sending with
  | nil => exact Sys.Good.untouched h rfl rfl
  | cons wr wrs =>
      have hover : s.qp.overhead = false := h.rung (by simp [hsending])
      simp only
      rcases postSendTurn_cases s.qp s.sqHw wr with
        ⟨hstatus, hturn⟩ | ⟨hadmitted, hstatus, hturn⟩
          | ⟨hadmitted, hstatus, hturn⟩
      · -- turned down: the call ends
        simp only [hturn, if_neg hstatus]
        exact Sys.Good.untouched
          ⟨h.sq, h.rq, h.rqCnt, fun hne => absurd rfl hne⟩ rfl rfl
      · -- the entries could not be built, and the ring is not rung
        obtain ⟨built, seen, htracks, hroom⟩ :=
          h.sendRoom hok hsending hadmitted
        have hbuilds := buildWr_builds h.sq.head_lt wr
        have hsize := hbuilds.size h.sq
        obtain ⟨k, hfilled, -⟩ := hbuilds.filled htracks hroom
        simp only [hturn, if_neg hstatus]
        refine ⟨⟨⟨hsize.1, hsize.2, _, _, hfilled⟩, ?_, ?_,
          fun hne => absurd rfl hne⟩, hbuilds.spares htracks hroom, ?_⟩
        · exact hbuilds.rq ▸ h.rq
        · exact hbuilds.rq ▸ h.rqCnt
        · exact fun i _ => congrFun hbuilds.rqVa i
      · -- posted
        obtain ⟨built, seen, htracks, hroom⟩ :=
          h.sendRoom hok hsending hadmitted
        have hbuilds := buildWr_builds h.sq.head_lt wr
        have hsize := hbuilds.size h.sq
        obtain ⟨k, hfilled, hend⟩ := hbuilds.filled htracks hroom
        obtain ⟨hrq, hsqVa, hrqVa⟩ :=
          ringSqHw_keeps (buildWr s.qp wr).2 s.sqHw wr
        have hright := ringSqHw_right wr htracks.posted_le hsize hfilled
          fun hnoted => (hend hnoted).resolve_left (by simp [hover])
        simp only [hturn, hstatus, if_true]
        refine ⟨⟨hright, ?_, ?_, fun _ => ?_⟩, ?_, ?_⟩
        · show HwqInfo.Right (ringSqHw _ _ _).1.rq s.rqHw
          rw [hrq, hbuilds.rq]
          exact h.rq
        · show (ringSqHw _ _ _).1.rq.maxCnt = maxRqe
          rw [hrq, hbuilds.rq]
          exact h.rqCnt
        · exact ringSqHw_overhead s.sqHw wr hover
        · intro i hi
          show (ringSqHw _ _ _).1.sqVa i = s.qp.sqVa i
          rw [hsqVa]
          exact hbuilds.spares htracks hroom i hi
        · intro i _
          show (ringSqHw _ _ _).1.rqVa i = s.qp.rqVa i
          rw [hrqVa, hbuilds.rqVa]

/-- A turn of `bxroce_post_recv`. -/
theorem Sys.QueueInv.recvTurn {s : Sys} (h : s.QueueInv)
    (hok : SysEvent.recvTurn.Ok s) : s.Good s.recvTurn := by
  unfold Sys.recvTurn
  cases hreceiving : s.receiving with
  | nil => exact Sys.Good.untouched h rfl rfl
  | cons wr wrs =>
      simp only
      rcases postRecvTurn_cases s.qp s.rqHw wr with
        hturn | ⟨hadmitted, hturn⟩
      · simp only [hturn]
        exact Sys.Good.untouched ⟨h.sq, h.rq, h.rqCnt, h.rung⟩ rfl rfl
      · have hempty := hok wr (by simp [hreceiving]) hadmitted
        obtain ⟨built, seen, htracks, hfree⟩ := h.rq.room hempty
        have hpos := Nat.pos_of_ne_zero hadmitted.1
        have hnum := hadmitted.2.2
        have hroom : built + max 1 wr.numSge ≤ seen + s.qp.rq.maxCnt := by
          omega
        have hbuilds := buildRqsges_builds s.qp wr
        obtain ⟨hrq, hkept, hsq, hsqVa, hover⟩ := hbuilds
        have hright : (updateRqHead (buildRqsges s.qp wr) wr).rq.Right
            (ringRqHw (buildRqsges s.qp wr) s.rqHw wr) := by
          refine updateRqHead_right wr (hrq ▸ h.rqCnt) (hrq ▸ h.rq)
            (hrq ▸ htracks) ?_
          rw [hrq]
          omega
        obtain ⟨hcnt, hsq', hsqVa', hrqVa', hover'⟩ :=
          updateRqHead_keeps (buildRqsges s.qp wr) wr
        simp only [hturn]
        refine ⟨⟨?_, hright, ?_, fun hne => ?_⟩, ?_, ?_⟩
        · show HwqInfo.Right (updateRqHead _ _).sq s.sqHw
          rw [hsq', hsq]
          exact h.sq
        · show (updateRqHead _ _).rq.maxCnt = maxRqe
          rw [hcnt, hrq]
          exact h.rqCnt
        · show (updateRqHead _ _).overhead = false
          rw [hover', hover]
          exact h.rung hne
        · intro i _
          show (updateRqHead _ _).sqVa i = s.qp.sqVa i
          rw [hsqVa', hsqVa]
        · intro i hi
          show (updateRqHead _ _).rqVa i = s.qp.rqVa i
          rw [hrqVa']
          refine hkept i fun m hm heq => ?_
          -- a slot of the hardware's is one of the ring
          have hlt := lt_of_mem_owned h.rq.pos hi
          refine htracks.notMem_owned (j := m) (by omega) ?_
          rw [heq, Nat.mod_eq_of_lt hlt]
          exact hi

/-- Every step keeps the invariant and leaves alone what the hardware
owns. -/
theorem Sys.QueueInv.step {s : Sys} (h : s.QueueInv) {e : SysEvent}
    (hok : e.Ok s) : s.Good (s.step e) := by
  cases e with
  | postSend wrs =>
      show s.Good (if _ then s.postSend wrs else s)
      split
      · exact Sys.Good.untouched
          ⟨h.sq.setTail, h.rq, h.rqCnt, fun _ => rfl⟩ rfl rfl
      · exact Sys.Good.untouched h rfl rfl
  | sendTurn => exact h.sendTurn hok
  | postRecv wrs =>
      show s.Good (if _ then s.postRecv wrs else s)
      split
      · exact Sys.Good.untouched
          ⟨h.sq, h.rq.setTail, h.rqCnt, h.rung⟩ rfl rfl
      · exact Sys.Good.untouched h rfl rfl
  | recvTurn => exact h.recvTurn hok
  | sqConsume =>
      exact Sys.Good.untouched
        ⟨h.sq.consume, h.rq, h.rqCnt, h.rung⟩ rfl rfl
  | rqConsume =>
      exact Sys.Good.untouched
        ⟨h.sq, h.rq.consume, h.rqCnt, h.rung⟩ rfl rfl

-- ================================================================= runs

/-- Over every run in which no request meets a ring that looks empty and
is not, the rings never hold more than they have entries, and no post
writes an entry that the hardware has not consumed. -/
theorem posts_spare_owned (qp : Qp) (qpState : QpState)
    (events : List SysEvent)
    (hok : Each Sys.step (fun s e => e.Ok s) (Sys.start qp qpState)
      events) :
    Always Sys.step Sys.InBounds (Sys.start qp qpState) events
      ∧ Each Sys.step (fun s e => e.Spares s) (Sys.start qp qpState)
        events := by
  have hinv : ∀ s e, s.QueueInv → SysEvent.Ok s e → (s.step e).QueueInv :=
    fun s e h hok => (h.step hok).inv
  have hstart := Sys.start_queueInv qp qpState
  refine ⟨(hok.always hinv hstart).mono fun s h => h.inBounds, ?_⟩
  refine hok.each_of_inv hinv hstart fun s e h hok => ?_
  exact ⟨(h.step hok).sqVa, (h.step hok).rqVa⟩

/-- Attributes, as the memory is cleared. -/
def clearedInfo : QpChangeInfo where
  qkey := 0
  signaled := 0
  destqp := 0
  pkeyIndex := 0
  sgidIdx := 0
  macAddr := Vector.replicate 6 0
  sgid := Vector.replicate 16 0
  dgid := Vector.replicate 16 0

/-- A queue pair of the examples. -/
def sampleQp : Qp where
  id := 2
  qpType := .rc
  qpState := .rst
  sq := ⟨2, 0, 0, 0, 0, .empty⟩
  rq := ⟨2, 0, 0, 0, 0, .empty⟩
  sqVa := fun _ => .zero
  rqVa := fun _ => .zero
  wqeWrIdTbl := fun _ => ⟨0, false⟩
  rqeWrIdTbl := fun _ => 0
  overhead := false
  attr := clearedInfo
  initSqpsn := 0
  initRqpsn := 0
  page := clearedInfo

/-- A receive of one element. -/
def sampleRecv : RecvWr := ⟨7, [⟨0x4000, 64, 1⟩]⟩

/-- A call that fills the ring up, after one that posted an entry which
is consumed: the head is then in the middle of the ring. -/
def fillUp : List SysEvent :=
  [.postRecv [sampleRecv], .recvTurn, .rqConsume,
    .postRecv (List.replicate 256 sampleRecv)]
    ++ List.replicate 256 .recvTurn

/-- The full ring goes on to be served when an entry has been consumed. -/
theorem posts_spare_owned_lap :
    let events := fillUp ++ [.rqConsume, .postRecv [sampleRecv], .recvTurn]
    (exec Sys.step (Sys.start sampleQp .rtr) events).rqHw = ⟨258, 2⟩
      ∧ Always Sys.step Sys.InBounds (Sys.start sampleQp .rtr) events
      ∧ Each Sys.step (fun s e => e.Spares s) (Sys.start sampleQp .rtr)
          events := by
  intro events
  exact ⟨by decide +kernel,
    posts_spare_owned sampleQp .rtr events (by decide +kernel)⟩

/-- The full ring, of which nothing has been consumed, takes one more. -/
theorem full_ring_overrun :
    let events := fillUp ++ [.postRecv [sampleRecv], .recvTurn]
    ¬ (exec Sys.step (Sys.start sampleQp .rtr) events).InBounds := by
  intro events h
  have hposted : (exec Sys.step (Sys.start sampleQp .rtr) events).rqHw
      = ⟨258, 1⟩ := by decide +kernel
  have hcnt : (exec Sys.step (Sys.start sampleQp .rtr) events).qp.rq.maxCnt
      = 256 := by decide +kernel
  have hle := h.rq
  rw [hposted, hcnt] at hle
  exact absurd hle (by decide)

end BxRnic.Kernel
