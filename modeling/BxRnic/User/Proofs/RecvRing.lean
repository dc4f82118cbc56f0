/-
The accounting of the receive ring, for receives of one element each:
how much room `bxroce_rqhwq_free_cnt` sees, which slots are written, and
when a receive is accepted.

# The flag

The indices of an empty ring coincide, and so do those of a full one.
`bxroce_update_rq_head` sets `qp_foe` to FULL when it fills the ring;
nothing in the library ever sets it back to EMPTY. From then on a ring
that runs empty counts as full, and takes no receive again. That is the
one thing wrong: the ring never counts room it does not have, and never
writes a slot in use (`accounted_iff`).

# Turns and calls

The run is of turns of the loop, so that polling may come between any
two of them; `postRecv_turns` cuts a call into its turns.
-/
import BxRnic.User.PostRecv
import BxRnic.User.PollCq
import BxRnic.Lib.Run

namespace BxRnic.User

open Run SlotRing

-- ============================================================ the machine

/-- A receive of one element. -/
structure SingleRecv where
  wrId : U64
  sge : Sge

/-- The work request. -/
def SingleRecv.wr (r : SingleRecv) : RecvWr := ⟨r.wrId, [r.sge]⟩

/-- A queue pair, with the slots of the receives that are posted and not
completed, oldest first. -/
structure RecvRing where
  qp : Qp
  regs : Regs
  outstanding : List Nat

/-- What happens to it: a turn of `bxroce_post_recv`, or a receive that
is outstanding is completed by `bxroce_poll_rcqe`. -/
inductive RecvEvent
  | post (mrList : List MrSgInfo) (r : SingleRecv)
  | complete (cqe : Rxcqe) (ibwc : Wc)

def RecvRing.step (s : RecvRing) : RecvEvent → RecvRing
  | .post mrList r =>
      let (status, qp, regs) := postRecvTurn mrList s.qp s.regs r.wr
      { qp := qp
        regs := regs
        outstanding :=
          if status = 0 then s.outstanding ++ [s.qp.rq.head]
          else s.outstanding }
  | .complete cqe ibwc =>
      match s.outstanding with
      | [] => s
      | _ :: outstanding =>
          { s with
            qp := (pollRcqe s.qp cqe ibwc).2
            outstanding := outstanding }

/-- A new queue pair after RESET→INIT. -/
def RecvRing.start (c : CreateQp) : RecvRing where
  qp := (qpStateMachine (createQp c) .init).2
  regs := ⟨0, 0, 0⟩
  outstanding := []

-- ========================================================== the property

/-- The ring counts no room it does not have, no receive overwrites one
that is outstanding, and one more is accepted while there are fewer than
`max_cnt - 1`. -/
structure RecvRing.Accounted (s : RecvRing) : Prop where
  free_le :
    rqhwqFreeCnt s.qp.rq ≤ s.qp.rq.maxCnt - s.outstanding.length
  keeps : ∀ (mrList : List MrSgInfo) (r : SingleRecv),
    ∀ i ∈ s.outstanding,
      (postRecvTurn mrList s.qp s.regs r.wr).2.1.rqVa i = s.qp.rqVa i
        ∧ (postRecvTurn mrList s.qp s.regs r.wr).2.1.rqeWrIdTbl i
          = s.qp.rqeWrIdTbl i
  accepts : s.outstanding.length < s.qp.rq.maxCnt - 1 →
    ∀ (mrList : List MrSgInfo) (r : SingleRecv),
      (postRecv mrList s.qp s.regs [r.wr]).1 = 0

-- ======================================================== the condition

/-- The condition on an event: a completion does not empty a ring whose
flag says that it was full. -/
def RecvEvent.Ok (s : RecvRing) : RecvEvent → Prop
  | .post _ _ => True
  | .complete _ _ =>
      1 < s.qp.rq.maxCnt → s.outstanding.length = 1 →
        s.qp.rq.qpFoe = .empty

-- =============================================================== one turn

/-- The queue pair once a receive of one element is accepted. -/
def Qp.withRecv (qp : Qp) (mrList : List MrSgInfo) (r : SingleRecv) :
    Qp :=
  let head := (qp.rq.head + 1) % qp.rq.maxCnt
  { qp with
    rqVa := Function.update qp.rqVa qp.rq.head (recvRqe mrList r.sge)
    rqeWrIdTbl := Function.update qp.rqeWrIdTbl
      (qp.rq.head % qp.rq.maxCnt) r.wrId
    rq :=
      { qp.rq with
        head := head
        qpFoe := if head = qp.rq.tail then .full else qp.rq.qpFoe } }

/-- A turn for a receive of one element. -/
theorem postRecvTurn_single (mrList : List MrSgInfo) (qp : Qp)
    (regs : Regs) (r : SingleRecv) :
    postRecvTurn mrList qp regs r.wr
      = if rqhwqFreeCnt qp.rq = 0 ∨ qp.rq.maxSges = 0 then
          (ENOMEM, qp, regs)
        else
          (0, qp.withRecv mrList r, { regs with rqWp := qp.rq.head + 1 })
      := by
  have hsges : r.wr.numSge > qp.rq.maxSges ↔ qp.rq.maxSges = 0 := by
    show 1 > qp.rq.maxSges ↔ _
    omega
  unfold postRecvTurn
  simp only [hsges]
  split
  · rfl
  · rename_i hroom
    have hfoe : checkFoe r.wr.numSge (rqhwqFreeCnt qp.rq) = 0 := by
      unfold checkFoe
      rw [if_neg]
      show ¬ 1 > rqhwqFreeCnt qp.rq
      omega
    rw [hfoe]
    rfl

/-- A call for receives of one element each is a run of turns: those up
to the first that is refused. -/
theorem postRecv_turns (mrList : List MrSgInfo) (rs : List SingleRecv) :
    ∀ s : RecvRing, postRecvAllowed s.qp.qpState = true →
      ∃ k, (postRecv mrList s.qp s.regs (rs.map SingleRecv.wr)).2
        = ((exec RecvRing.step s
            ((rs.take k).map (RecvEvent.post mrList))).qp,
          (exec RecvRing.step s
            ((rs.take k).map (RecvEvent.post mrList))).regs) := by
  intro s hopen
  unfold postRecv
  rw [if_neg (by simp [hopen])]
  clear hopen
  induction rs generalizing s with
  | nil => exact ⟨0, rfl⟩
  | cons r rs ih =>
      by_cases hstatus : (postRecvTurn mrList s.qp s.regs r.wr).1 = 0
      · obtain ⟨k, hk⟩ := ih (s.step (.post mrList r))
        refine ⟨k + 1, ?_⟩
        rw [List.map_cons, postRecvLoop, List.take_succ_cons,
          List.map_cons, exec_cons, ← hk]
        simp only [hstatus, ne_eq, not_true_eq_false, if_false]
        rfl
      · refine ⟨0, ?_⟩
        rw [List.map_cons, postRecvLoop]
        simp only [hstatus, ne_eq, not_false_eq_true, if_true]
        rw [postRecvTurn_single] at hstatus ⊢
        split
        · rfl
        · rename_i hroom
          rw [if_neg hroom] at hstatus
          exact absurd rfl hstatus

-- ========================================================== the invariant

/-- The indices and the flag of a receive queue with `out` entries in
use. -/
structure HwqInfo.RqHolds (q : HwqInfo) (out : Nat) : Prop where
  tail_lt : q.tail < q.maxCnt
  idx : q.maxWqeIdx = q.maxCnt - 1
  le : out ≤ q.maxCnt
  head_eq : q.head = (q.tail + out) % q.maxCnt
  full : out = q.maxCnt → q.qpFoe = .full

/-- The indices say how many receives are outstanding, and the
outstanding slots are those between them. -/
structure RecvRing.Inv (s : RecvRing) : Prop where
  holds : s.qp.rq.RqHolds s.outstanding.length
  slots_eq : s.outstanding
    = slots s.qp.rq.maxCnt s.qp.rq.tail s.outstanding.length
  sges : 0 < s.outstanding.length → s.qp.rq.maxSges ≠ 0
  open_ : postRecvAllowed s.qp.qpState = true

theorem createQp_rqHolds (c : CreateQp) :
    (qpStateMachine (createQp c) .init).2.rq.RqHolds 0 where
  tail_lt := c.numRqe_pos
  idx := rfl
  le := Nat.zero_le _
  head_eq := (Nat.mod_eq_of_lt c.numRqe_pos).symm
  full := fun h => absurd h (Nat.ne_of_lt c.numRqe_pos)

theorem RecvRing.start_inv (c : CreateQp) : (RecvRing.start c).Inv where
  holds := createQp_rqHolds c
  slots_eq := rfl
  sges := fun h => absurd h (Nat.not_lt_zero _)
  open_ := rfl

-- ============================================================ the room

namespace HwqInfo.RqHolds

variable {q : HwqInfo} {out : Nat}

/-- What `bxroce_rqhwq_free_cnt` sees. With the head past the tail it
counts one entry too few; with the two together it goes by the flag. -/
theorem free_cases (h : q.RqHolds out) :
    (out = 0 ∨ out = q.maxCnt)
        ∧ rqhwqFreeCnt q = (if q.qpFoe = .empty then q.maxCnt else 0)
      ∨ 0 < out ∧ out < q.maxCnt
        ∧ (rqhwqFreeCnt q = q.maxCnt - 1 - out
            ∨ rqhwqFreeCnt q = q.maxCnt - out) := by
  have htail := h.tail_lt
  have hle := h.le
  have hmeet := next_eq_iff htail hle
  rw [← h.head_eq] at hmeet
  unfold rqhwqFreeCnt
  by_cases heq : q.head = q.tail
  · refine Or.inl ⟨hmeet.1 heq, ?_⟩
    rw [if_neg (by omega), if_pos heq]
  · have hpart := mt hmeet.2 heq
    refine Or.inr ⟨by omega, by omega, ?_⟩
    rw [if_neg heq, h.idx]
    rcases next_cases htail hle with ⟨hlt, hnext⟩ | ⟨hge, hnext⟩
    · -- the head is ahead of the tail
      rw [← h.head_eq] at hnext
      refine Or.inl ?_
      rw [if_pos (by omega), Nat.mod_eq_of_lt (by omega)]
      omega
    · rw [← h.head_eq] at hnext
      refine Or.inr ?_
      rw [if_neg (by omega)]
      omega

/-- The queue never counts room it does not have. -/
theorem free_le (h : q.RqHolds out) : rqhwqFreeCnt q ≤ q.maxCnt - out := by
  rcases h.free_cases with ⟨hout, hfree⟩ | ⟨-, -, hfree⟩
  · rw [hfree]
    by_cases hempty : q.qpFoe = .empty
    · rw [if_pos hempty]
      have hnot : out ≠ q.maxCnt := fun hall => by
        rw [h.full hall] at hempty
        cases hempty
      omega
    · rw [if_neg hempty]
      exact Nat.zero_le _
  · omega

theorem maxCnt_pos (h : q.RqHolds out) : 0 < q.maxCnt :=
  Nat.lt_of_le_of_lt (Nat.zero_le _) h.tail_lt

theorem head_lt (h : q.RqHolds out) : q.head < q.maxCnt := by
  rw [h.head_eq]
  exact Nat.mod_lt _ h.maxCnt_pos

/-- One more entry: the flag is set when it is the last. -/
theorem push (h : q.RqHolds out) (hroom : rqhwqFreeCnt q ≠ 0) :
    HwqInfo.RqHolds
      { q with
        head := (q.head + 1) % q.maxCnt
        qpFoe :=
          if (q.head + 1) % q.maxCnt = q.tail then .full
          else q.qpFoe } (out + 1) := by
  have hle := h.free_le
  have hhead : (q.head + 1) % q.maxCnt
      = (q.tail + (out + 1)) % q.maxCnt := by
    rw [h.head_eq, next_succ]
  constructor
  · exact h.tail_lt
  · exact h.idx
  · show out + 1 ≤ q.maxCnt
    omega
  · exact hhead
  · intro hfull
    have hfull' : out + 1 = q.maxCnt := hfull
    -- the head has caught up with the tail
    simp only
    rw [hhead, hfull', Nat.add_mod_right, Nat.mod_eq_of_lt h.tail_lt,
      if_pos rfl]

/-- One entry less. -/
theorem pop (h : q.RqHolds (out + 1)) :
    (hwqIncRqtail q).RqHolds out := by
  have hle := h.le
  constructor
  · exact Nat.mod_lt _ h.maxCnt_pos
  · exact h.idx
  · show out ≤ q.maxCnt
    omega
  · show q.head = ((q.tail + 1) % q.maxCnt + out) % q.maxCnt
    rw [next_pop, h.head_eq]
  · intro hfull
    have hfull' : out = q.maxCnt := hfull
    omega

end HwqInfo.RqHolds

/-- Where there is room, the head is not an outstanding slot. -/
theorem RecvRing.Inv.head_notMem {s : RecvRing} (h : s.Inv)
    (hroom : rqhwqFreeCnt s.qp.rq ≠ 0) :
    s.qp.rq.head ∉ s.outstanding := by
  have hle := h.holds.free_le
  rw [h.holds.head_eq, h.slots_eq, length_slots]
  exact next_notMem_slots (by omega)

/-- No receive overwrites one that is outstanding. -/
theorem RecvRing.Inv.keeps {s : RecvRing} (h : s.Inv)
    (mrList : List MrSgInfo) (r : SingleRecv) {i : Nat}
    (hi : i ∈ s.outstanding) :
    (postRecvTurn mrList s.qp s.regs r.wr).2.1.rqVa i = s.qp.rqVa i
      ∧ (postRecvTurn mrList s.qp s.regs r.wr).2.1.rqeWrIdTbl i
        = s.qp.rqeWrIdTbl i := by
  rw [postRecvTurn_single]
  split
  · exact ⟨rfl, rfl⟩
  · rename_i hroom
    have hne : i ≠ s.qp.rq.head := fun heq =>
      h.head_notMem (fun hzero => hroom (Or.inl hzero)) (heq ▸ hi)
    simp only [Qp.withRecv, Nat.mod_eq_of_lt h.holds.head_lt]
    exact ⟨Function.update_of_ne hne _ _, Function.update_of_ne hne _ _⟩

/-- What it takes for the next receive to be accepted. -/
theorem RecvRing.Inv.accepts_iff {s : RecvRing} (h : s.Inv)
    (mrList : List MrSgInfo) (r : SingleRecv) :
    (postRecv mrList s.qp s.regs [r.wr]).1 = 0
      ↔ rqhwqFreeCnt s.qp.rq ≠ 0 ∧ s.qp.rq.maxSges ≠ 0 := by
  unfold postRecv
  rw [if_neg (by simp [h.open_]), postRecvLoop, postRecvTurn_single]
  by_cases hroom : rqhwqFreeCnt s.qp.rq = 0 ∨ s.qp.rq.maxSges = 0
  · have hne : ENOMEM ≠ 0 := by decide
    simp only [if_pos hroom, if_pos hne]
    refine iff_of_false hne ?_
    rw [← not_or, not_not]
    exact hroom
  · simp only [if_neg hroom]
    exact iff_of_true rfl (not_or.1 hroom)

/-- The property comes down to the flag of an empty ring. -/
theorem RecvRing.Inv.accounted_iff {s : RecvRing} (h : s.Inv) :
    s.Accounted
      ↔ (1 < s.qp.rq.maxCnt → s.qp.rq.maxSges ≠ 0
          ∧ (s.outstanding.length = 0 → s.qp.rq.qpFoe = .empty)) := by
  constructor
  · intro hacc hcnt
    by_cases hout : s.outstanding.length = 0
    · obtain ⟨hroom, hsges⟩ := (h.accepts_iff [] ⟨0, ⟨0, 0, 0⟩⟩).1
        (hacc.accepts (by omega) [] _)
      refine ⟨hsges, fun _ => ?_⟩
      by_contra hflag
      rcases h.holds.free_cases with ⟨-, hfree⟩ | ⟨hpos, -⟩
      · rw [if_neg hflag] at hfree
        exact hroom hfree
      · omega
    · exact ⟨h.sges (by omega), fun hzero => absurd hzero hout⟩
  · intro hflag
    refine ⟨h.holds.free_le, fun mrList r i hi => h.keeps mrList r hi,
      fun hout mrList r => ?_⟩
    obtain ⟨hsges, hempty⟩ := hflag (by omega)
    refine (h.accepts_iff mrList r).2 ⟨?_, hsges⟩
    rcases h.holds.free_cases with ⟨hends, hfree⟩ | ⟨-, -, hfree⟩
    · rw [hfree, if_pos (hempty (by omega))]
      omega
    · omega

-- ============================================================ every step

/-- A receive that is accepted takes the head's slot. -/
theorem RecvRing.Inv.post {s : RecvRing} (h : s.Inv)
    (hroom : rqhwqFreeCnt s.qp.rq ≠ 0) (hsges : s.qp.rq.maxSges ≠ 0)
    (mrList : List MrSgInfo) (r : SingleRecv) (regs : Regs) :
    RecvRing.Inv
      { qp := s.qp.withRecv mrList r, regs := regs
        outstanding := s.outstanding ++ [s.qp.rq.head] } := by
  constructor
  · rw [List.length_append, List.length_singleton]
    exact h.holds.push hroom
  · show s.outstanding ++ [s.qp.rq.head]
      = slots s.qp.rq.maxCnt s.qp.rq.tail
        (s.outstanding ++ [s.qp.rq.head]).length
    rw [List.length_append, List.length_singleton, slots_succ,
      ← h.holds.head_eq, ← h.slots_eq]
  · exact fun _ => hsges
  · exact h.open_

/-- A completion gives the tail's slot back. -/
theorem RecvRing.Inv.complete {s : RecvRing} (h : s.Inv) {slot : Nat}
    {rest : List Nat} (hout : s.outstanding = slot :: rest) (cqe : Rxcqe)
    (ibwc : Wc) :
    RecvRing.Inv
      { s with qp := (pollRcqe s.qp cqe ibwc).2, outstanding := rest } := by
  have hlen : s.outstanding.length = rest.length + 1 := by
    rw [hout, List.length_cons]
  have hslots := h.slots_eq
  rw [hlen, slots_pop h.holds.tail_lt, hout] at hslots
  constructor
  · exact HwqInfo.RqHolds.pop (hlen ▸ h.holds)
  · exact (List.cons.inj hslots).2
  · exact fun _ => h.sges (by omega)
  · exact h.open_

/-- The invariant is kept by every step. -/
theorem RecvRing.inv_step (s : RecvRing) (e : RecvEvent) (h : s.Inv) :
    (s.step e).Inv := by
  cases e with
  | post mrList r =>
      unfold RecvRing.step
      simp only [postRecvTurn_single]
      by_cases hroom : rqhwqFreeCnt s.qp.rq = 0 ∨ s.qp.rq.maxSges = 0
      · simp only [if_pos hroom]
        rw [if_neg (by decide)]
        exact h
      · obtain ⟨hfree, hsges⟩ := not_or.1 hroom
        simp only [if_neg hroom, if_true]
        exact h.post hfree hsges mrList r _
  | complete cqe ibwc =>
      unfold RecvRing.step
      cases hout : s.outstanding with
      | nil => exact h
      | cons slot rest => exact h.complete hout cqe ibwc

/-- The step lemma: an event keeps the account exactly when it meets
`RecvEvent.Ok`. -/
theorem accounted_step_iff {s : RecvRing} (h : s.Inv) (hacc : s.Accounted)
    (e : RecvEvent) : (s.step e).Accounted ↔ e.Ok s := by
  have hflag := h.accounted_iff.1 hacc
  have h' := RecvRing.inv_step s e h
  cases e with
  | post mrList r =>
      refine iff_of_true ?_ trivial
      unfold RecvRing.step at h' ⊢
      simp only [postRecvTurn_single] at h' ⊢
      by_cases hroom : rqhwqFreeCnt s.qp.rq = 0 ∨ s.qp.rq.maxSges = 0
      · simp only [if_pos hroom]
        rw [if_neg (by decide)]
        exact hacc
      · simp only [if_neg hroom, if_true] at h' ⊢
        refine h'.accounted_iff.2 fun hcnt => ⟨(hflag hcnt).1, ?_⟩
        intro hzero
        simp at hzero
  | complete cqe ibwc =>
      unfold RecvRing.step at h' ⊢
      simp only [RecvEvent.Ok]
      cases hout : s.outstanding with
      | nil => exact iff_of_true hacc fun _ hone => by simp at hone
      | cons slot rest =>
          rw [hout] at h'
          have h'' : RecvRing.Inv
              { s with
                qp := (pollRcqe s.qp cqe ibwc).2
                outstanding := rest } := h'
          rw [h''.accounted_iff]
          show (1 < s.qp.rq.maxCnt → s.qp.rq.maxSges ≠ 0
            ∧ (rest.length = 0 → s.qp.rq.qpFoe = .empty)) ↔ _
          rw [List.length_cons]
          constructor
          · exact fun hnext hcnt hone => (hnext hcnt).2 (by omega)
          · exact fun hok hcnt =>
              ⟨(hflag hcnt).1, fun hzero => hok hcnt (by omega)⟩

-- ================================================================= runs

/-- Over every run of receives and completions from RESET→INIT, the
account is right throughout iff a ring of more than one entry takes
elements at all, and no completion empties a ring that was full. -/
theorem recv_accounted_iff (c : CreateQp) (events : List RecvEvent) :
    Always RecvRing.step RecvRing.Accounted (RecvRing.start c) events
      ↔ (1 < c.numRqeAllocated → c.maxRecvSge ≠ 0)
        ∧ Each RecvRing.step (fun s e => e.Ok s) (RecvRing.start c)
          events := by
  have hinv := RecvRing.start_inv c
  have hstart : (RecvRing.start c).Accounted
      ↔ (1 < c.numRqeAllocated → c.maxRecvSge ≠ 0) := by
    rw [hinv.accounted_iff]
    show (1 < c.numRqeAllocated → c.maxRecvSge ≠ 0
      ∧ (0 = 0 → QpFoe.empty = .empty)) ↔ _
    simp
  by_cases hacc : (RecvRing.start c).Accounted
  · rw [always_iff_each_of_inv RecvRing.inv_step
      (fun s e h hacc => accounted_step_iff h hacc e) hinv hacc]
    exact (and_iff_right (hstart.1 hacc)).symm
  · refine iff_of_false (fun h => hacc h.head) fun h => ?_
    exact hacc (hstart.2 h.1)

/-- A ring of 256 entries, its tail off slot 0, that was filled and then
drained takes no receive again. -/
theorem drained_ring_refuses :
    let c : CreateQp :=
      { qpId := 2, qpType := .rc, numWqeAllocated := 2048,
        numRqeAllocated := 256, maxSendSge := 2, maxRecvSge := 2,
        sqSigAll := 0, sqVa := fun _ => .zero, rqVa := fun _ => .zero,
        addrtbl := ⟨0, 0, 0⟩, numWqe_pos := by decide,
        numRqe_pos := by decide }
    let post : RecvEvent := .post [] ⟨7, ⟨0x4000, 64, 1⟩⟩
    let complete : RecvEvent :=
      .complete ⟨0, 3, 0, 0, 0xff⟩ ⟨0, 0, 0, 0, 0, 0, 0, 0⟩
    let events := [post, complete] ++ List.replicate 256 post
      ++ List.replicate 256 complete
    (exec RecvRing.step (RecvRing.start c) events).outstanding = []
      ∧ ¬ Always RecvRing.step RecvRing.Accounted (RecvRing.start c)
        events := by
  intro c post complete events
  have hout : (exec RecvRing.step (RecvRing.start c) events).outstanding
      = [] := by
    decide +kernel
  refine ⟨hout, fun h => ?_⟩
  have haccepts := h.last.accepts (by rw [hout]; decide +kernel) []
    ⟨8, ⟨0x4000, 64, 1⟩⟩
  exact absurd haccepts (by decide +kernel)

end BxRnic.User
