/-
What one round of the polling loop does: the completions it writes, and
what it leaves of the rings and of the queue pair. The results about
whole calls (PollCq.lean) and about runs (SendCompletions.lean,
RecvCompletions.lean) read the rounds off these lemmas.
-/
import BxRnic.User.PollCq

namespace BxRnic.User

-- ============================================================ the frame

/-- The loop's variables once the completions `wcs` are written. -/
def Poll.after (s : Poll) (cq : Cq) (qp : Qp) (wcs : List (Queue × Wc)) :
    Poll where
  cq := cq
  qp := qp
  numEntries := s.numEntries - wcs.length
  i := s.i + wcs.length
  ibwc := s.ibwc
  written := s.written ++ wcs

theorem Poll.after_nil (s : Poll) : s.after s.cq s.qp [] = s := by
  simp [Poll.after]

theorem Poll.after_after (s : Poll) (cq cq' : Cq) (qp qp' : Qp)
    (wcs wcs' : List (Queue × Wc)) :
    (s.after cq qp wcs).after cq' qp' wcs'
      = s.after cq' qp' (wcs ++ wcs') := by
  simp only [Poll.after, List.length_append, List.append_assoc,
    Nat.cast_add, Poll.mk.injEq, true_and, and_true]
  omega

@[simp] theorem ids_nil : ids [] = [] := rfl

@[simp] theorem ids_append (wcs wcs' : List (Queue × Wc)) :
    ids (wcs ++ wcs') = ids wcs ++ ids wcs' :=
  List.map_append

@[simp] theorem length_ids (wcs : List (Queue × Wc)) :
    (ids wcs).length = wcs.length :=
  List.length_map ..

-- ============================================================ send entries

/-- The completion of the send entry at the tail, if one was asked
for. -/
def sendIds (tbl : Nat → WqeWrId) (tail : Nat) : List (Queue × U64) :=
  if (tbl tail).signaled then [(.send, (tbl tail).wrid)] else []

/-- A round that finds a send entry: its completion, and the tail moves
on. -/
theorem xmitRound_of_valid {s : Poll}
    (h : s.cq.xmit.head.valid = true) :
    ∃ wcs, ids wcs = sendIds s.qp.wqeWrIdTbl s.qp.sq.tail
      ∧ s.xmitRound = (hwqIncSqtail s.qp.sq).map fun sq =>
          s.after { s.cq with xmit := s.cq.xmit.consume .zero }
            { s.qp with sq := sq } wcs := by
  unfold Poll.xmitRound pollScqe sendIds
  simp only [h, Bool.true_eq_false, if_false, Option.map_map]
  cases hsig : (s.qp.wqeWrIdTbl s.qp.sq.tail).signaled with
  | false =>
      refine ⟨[], rfl, ?_⟩
      cases hwqIncSqtail s.qp.sq with
      | none => rfl
      | some sq => simp [Poll.after]
  | true =>
      let wc : Wc :=
        { s.slot with
          status := 0, wcFlags := 0, qpNum := s.qp.id
          wrId := (s.qp.wqeWrIdTbl s.qp.sq.tail).wrid }
      refine ⟨[(.send, wc)], rfl, ?_⟩
      cases hwqIncSqtail s.qp.sq with
      | none => rfl
      | some sq => rfl

theorem xmitRound_of_not_valid {s : Poll}
    (h : s.cq.xmit.head.valid = false) : s.xmitRound = some s := by
  unfold Poll.xmitRound
  rw [if_pos h]

-- ========================================================= receive entries

/-- The receive tail, moved on `k` times. -/
def HwqInfo.popRq (q : HwqInfo) : Nat → HwqInfo
  | 0 => q
  | k + 1 => (hwqIncRqtail q).popRq k

@[simp] theorem overhead_popRq (k : Nat) :
    ∀ q : HwqInfo, (q.popRq k).overhead = q.overhead := by
  induction k with
  | zero => exact fun _ => rfl
  | succ k ih => exact fun q => ih (hwqIncRqtail q)

/-- The ids the table has from the tail on. -/
def recvIds (tbl : Nat → U64) (q : HwqInfo) : Nat → List (Queue × U64)
  | 0 => []
  | k + 1 => (.recv, tbl q.tail) :: recvIds tbl (hwqIncRqtail q) k

theorem length_recvIds (tbl : Nat → U64) (k : Nat) :
    ∀ q : HwqInfo, (recvIds tbl q k).length = k := by
  induction k with
  | zero => exact fun _ => rfl
  | succ k ih =>
      intro q
      rw [recvIds, List.length_cons, ih]

/-- They do not depend on the note of the last batch. -/
theorem recvIds_overhead (tbl : Nat → U64) (overhead k : Nat) :
    ∀ q : HwqInfo, recvIds tbl { q with overhead := overhead } k
      = recvIds tbl q k := by
  induction k with
  | zero => exact fun _ => rfl
  | succ k ih => exact fun q => congrArg _ (ih (hwqIncRqtail q))

/-- The completions of one batch. -/
theorem rcqes_after (cqe : Rxcqe) (k : Nat) : ∀ s : Poll,
    ∃ wcs, ids wcs = recvIds s.qp.rqeWrIdTbl s.qp.rq k
      ∧ Poll.rcqes cqe s k
          = s.after s.cq { s.qp with rq := s.qp.rq.popRq k } wcs := by
  induction k with
  | zero => exact fun s => ⟨[], rfl, (Poll.after_nil s).symm⟩
  | succ k ih =>
      intro s
      obtain ⟨wc, hwc, hone⟩ : ∃ wc : Wc,
          wc.wrId = s.qp.rqeWrIdTbl s.qp.rq.tail
            ∧ pollRcqe s.qp cqe s.slot
              = (wc, { s.qp with rq := hwqIncRqtail s.qp.rq }) :=
        ⟨_, rfl, rfl⟩
      obtain ⟨wcs, hids, hrest⟩ :=
        ih (s.after s.cq { s.qp with rq := hwqIncRqtail s.qp.rq }
          [(.recv, wc)])
      refine ⟨(.recv, wc) :: wcs, ?_, ?_⟩
      · show (Queue.recv, wc.wrId) :: ids wcs = _
        rw [hids, hwc]
        rfl
      · rw [Poll.after_after] at hrest
        rw [Poll.rcqes, hone]
        exact hrest

/-- A round that finds a receive batch: a completion for each entry the
batch reports. -/
theorem rxRound_of_valid {s : Poll} (h : s.cq.rx.head.valid = true)
    {k : Nat} {phase : U32}
    (hbatch : rxBatch (BitVec.ofNat 32 s.qp.rq.overhead) s.cq.phase
      s.cq.rx.head = some (k, phase)) :
    ∃ wcs, ids wcs = recvIds s.qp.rqeWrIdTbl s.qp.rq k
      ∧ s.rxRound = some
          (s.after
            { s.cq with phase := phase, rx := s.cq.rx.consume .zero }
            { s.qp with
              rq := HwqInfo.popRq
                { s.qp.rq with
                  overhead := s.cq.rx.head.bth6487Lo.toNat } k }
            wcs) := by
  obtain ⟨wcs, hids, hrest⟩ := rcqes_after s.cq.rx.head k
    { s with
      qp := { s.qp with
        rq := { s.qp.rq with
          overhead := s.cq.rx.head.bth6487Lo.toNat } }
      cq := { s.cq with phase := phase } }
  refine ⟨wcs, hids.trans (recvIds_overhead _ _ _ _), ?_⟩
  unfold Poll.rxRound
  simp only [h, Bool.true_eq_false, if_false, hbatch, Option.map_some,
    hrest]
  rfl

theorem rxRound_of_trap {s : Poll} (h : s.cq.rx.head.valid = true)
    (hbatch : rxBatch (BitVec.ofNat 32 s.qp.rq.overhead) s.cq.phase
      s.cq.rx.head = none) : s.rxRound = none := by
  unfold Poll.rxRound
  simp only [h, Bool.true_eq_false, if_false, hbatch, Option.map_none]

theorem rxRound_of_not_valid {s : Poll}
    (h : s.cq.rx.head.valid = false) : s.rxRound = some s := by
  unfold Poll.rxRound
  simp only [h, if_true]

-- ============================================================== tx entries

/-- The `tx` part is no one's concern. -/
theorem txRound_eq (s : Poll) :
    ∃ tx, s.txRound = { s with cq := { s.cq with tx := tx } } := by
  unfold Poll.txRound
  split
  · exact ⟨s.cq.tx, rfl⟩
  · exact ⟨_, rfl⟩

-- ============================================================== a round

/-- What the `xmit` part of a round comes to: the ring, the send queue,
and the completions. -/
inductive XmitTaken (cq : Cq) (qp : Qp) :
    FlagRing cqEntries Xmitcqe → HwqInfo → List (Queue × U64) → Prop
  | idle : cq.xmit.head.valid = false →
      XmitTaken cq qp cq.xmit qp.sq []
  | taken {sq : HwqInfo} : cq.xmit.head.valid = true →
      hwqIncSqtail qp.sq = some sq →
      XmitTaken cq qp (cq.xmit.consume .zero) sq
        (sendIds qp.wqeWrIdTbl qp.sq.tail)

/-- What the `rx` part comes to: the ring, the phase, the receive queue,
and the completions. -/
inductive RxTaken (cq : Cq) (qp : Qp) :
    FlagRing cqEntries Rxcqe → U32 → HwqInfo → List (Queue × U64) → Prop
  | idle : cq.rx.head.valid = false →
      RxTaken cq qp cq.rx cq.phase qp.rq []
  | taken {k : Nat} {phase : U32} : cq.rx.head.valid = true →
      rxBatch (BitVec.ofNat 32 qp.rq.overhead) cq.phase cq.rx.head
        = some (k, phase) →
      RxTaken cq qp (cq.rx.consume .zero) phase
        (HwqInfo.popRq
          { qp.rq with overhead := cq.rx.head.bth6487Lo.toNat } k)
        (recvIds qp.rqeWrIdTbl qp.rq k)

theorem xmitRound_taken {s s' : Poll} (h : s.xmitRound = some s') :
    ∃ xmit sq wcs, XmitTaken s.cq s.qp xmit sq (ids wcs)
      ∧ s' = s.after { s.cq with xmit := xmit } { s.qp with sq := sq }
          wcs := by
  cases hvalid : s.cq.xmit.head.valid with
  | false =>
      rw [xmitRound_of_not_valid hvalid] at h
      obtain rfl := Option.some.inj h
      exact ⟨_, _, [], .idle hvalid, (Poll.after_nil s).symm⟩
  | true =>
      obtain ⟨wcs, hids, hround⟩ := xmitRound_of_valid hvalid
      rw [hround] at h
      obtain ⟨sq, hsq, rfl⟩ := Option.map_eq_some_iff.1 h
      refine ⟨_, sq, wcs, ?_, rfl⟩
      rw [hids]
      exact .taken hvalid hsq

theorem rxRound_taken {s s' : Poll} (h : s.rxRound = some s') :
    ∃ rx phase rq wcs, RxTaken s.cq s.qp rx phase rq (ids wcs)
      ∧ s' = s.after { s.cq with phase := phase, rx := rx }
          { s.qp with rq := rq } wcs := by
  cases hvalid : s.cq.rx.head.valid with
  | false =>
      rw [rxRound_of_not_valid hvalid] at h
      obtain rfl := Option.some.inj h
      exact ⟨_, _, _, [], .idle hvalid, (Poll.after_nil s).symm⟩
  | true =>
      cases hb : rxBatch (BitVec.ofNat 32 s.qp.rq.overhead) s.cq.phase
          s.cq.rx.head with
      | none =>
          rw [rxRound_of_trap hvalid hb] at h
          cases h
      | some found =>
          obtain ⟨k, phase⟩ := found
          obtain ⟨wcs, hids, hround⟩ := rxRound_of_valid hvalid hb
          rw [hround] at h
          obtain rfl := Option.some.inj h
          refine ⟨_, phase, _, wcs, ?_, rfl⟩
          rw [hids]
          exact .taken hvalid hb

/-- The `rx` part goes by its own ring and queue. -/
theorem RxTaken.of_eq {cq cq' : Cq} {qp qp' : Qp} (hcq : cq'.rx = cq.rx)
    (hphase : cq'.phase = cq.phase) (hrq : qp'.rq = qp.rq)
    (htbl : qp'.rqeWrIdTbl = qp.rqeWrIdTbl)
    {rx : FlagRing cqEntries Rxcqe} {phase : U32} {rq : HwqInfo}
    {cs : List (Queue × U64)} (h : RxTaken cq' qp' rx phase rq cs) :
    RxTaken cq qp rx phase rq cs := by
  cases h with
  | idle hvalid =>
      rw [hcq, hphase, hrq]
      exact .idle (hcq ▸ hvalid)
  | taken hvalid hb =>
      rw [hcq, hphase, hrq] at hb
      rw [hcq, hrq, htbl]
      exact .taken (hcq ▸ hvalid) hb

/-- A round takes what its two parts take, of the queue pair and the
rings it starts from. -/
theorem round_taken {s s' : Poll} (h : s.round = some s') :
    ∃ tx xmit rx phase sq rq cs cs',
      XmitTaken s.cq s.qp xmit sq cs
        ∧ RxTaken s.cq s.qp rx phase rq cs'
        ∧ s'.cq = ⟨tx, rx, xmit, phase⟩
        ∧ s'.qp = { s.qp with sq := sq, rq := rq }
        ∧ ids s'.written = ids s.written ++ (cs ++ cs') := by
  obtain ⟨s₂, hparts, rfl⟩ := Option.map_eq_some_iff.1 h
  obtain ⟨s₁, hxmit, hrx⟩ := Option.bind_eq_some_iff.1 hparts
  obtain ⟨xmit, sq, wcs, hxt, rfl⟩ := xmitRound_taken hxmit
  obtain ⟨rx, phase, rq, wcs', hrt, rfl⟩ := rxRound_taken hrx
  have hrt' : RxTaken s.cq s.qp rx phase rq (ids wcs') := by
    refine RxTaken.of_eq ?_ ?_ ?_ ?_ hrt <;> rfl
  rw [Poll.after_after]
  obtain ⟨tx, htx⟩ := txRound_eq (s.after
    { s.cq with xmit := xmit, phase := phase, rx := rx }
    { s.qp with sq := sq, rq := rq } (wcs ++ wcs'))
  refine ⟨tx, xmit, rx, phase, sq, rq, ids wcs, ids wcs', hxt,
    hrt', congrArg Poll.cq htx, congrArg Poll.qp htx, ?_⟩
  refine (congrArg (fun t : Poll => ids t.written) htx).trans ?_
  rw [← ids_append, ← ids_append]
  rfl

end BxRnic.User
