/-
Progress of `bxroce_post_send`: whether the loop over a request comes to
an end, and whether a valid request is accepted once the hardware has
sent everything rung.

# What the loop waits for

A request that does not fit in the rest of the ring is put off, turn by
turn, until the hardware's read pointer has come to the write pointer;
then the head goes back to the start of the ring. So the loop ends just
when the hardware catches up (`Sys.Progresses.ends`).

# Where it goes wrong

The room test stands in front of the reset, and refuses when there is no
free entry at all. An element needs one free entry more than it takes, so
elements never bring the head to the last entry. Immediate data on its
own is not counted as an element: built at the last free entry it moves
the head onto `max_wqe_idx`, and from then on every request is refused,
for ever. `progresses_iff` says that this is the only way.
-/
import BxRnic.User.Proofs.Steps

namespace BxRnic.User

open Run

-- ================================================================ the loop

/-- What a turn finds: the regions registered, the server's reply, and
the hardware's read pointer. -/
structure HwTurn where
  mrList : List MrSgInfo
  reply : Option SgPhyInfo
  sqRp : Nat

/-- The turns of `bxroce_post_send` on one request, and how often it
called `bxroce_init_sq_ptr`. `none` is a loop that is still going
round. -/
def sendLoop (wr : SendWr) :
    List HwTurn → Qp → Regs → Option (Nat × Turn × Qp × Regs)
  | [], _, _ => none
  | t :: ts, qp, regs =>
      match postSendTurn t.mrList qp { regs with sqRp := t.sqRp } wr
          t.reply with
      | (.again, qp, regs) =>
          (sendLoop wr ts qp regs).map fun (resets, r) => (resets + 1, r)
      | r => some (0, r)

/-- The loop comes to an end in some number of turns. -/
def LoopEnds (wr : SendWr) (env : Nat → HwTurn) (qp : Qp) (regs : Regs) :
    Prop :=
  ∃ turns, (sendLoop wr ((List.range turns).map env) qp regs).isSome

-- ============================================================ the property

/-- The request is of a kind the queue pair takes, and has no more
elements than an entry list may have. -/
def SendWr.Valid (wr : SendWr) (qp : Qp) : Prop :=
  ¬ (qp.qpType = .ud ∧ wr.opcode ≠ .send ∧ wr.opcode ≠ .sendWithImm)
    ∧ wr.numSge ≤ qp.sq.maxSges

instance (wr : SendWr) (qp : Qp) : Decidable (wr.Valid qp) :=
  inferInstanceAs (Decidable (_ ∧ _))

/-- The request is accepted in the first turns, with one reset at
most. -/
def AcceptedSoon (wr : SendWr) (env : Nat → HwTurn) (qp : Qp)
    (regs : Regs) : Prop :=
  ∃ turns resets qp' regs', resets ≤ 1
    ∧ sendLoop wr ((List.range turns).map env) qp regs
      = some (resets, .next, qp', regs')

/-- Every request that can be built is refused, although the hardware
has sent everything rung. -/
def Stuck (qp : Qp) (regs : Regs) : Prop :=
  ∀ (wr : SendWr) (t : HwTurn), wr.Valid qp → ¬ wr.Fails qp t.reply →
    t.sqRp = regs.sqWp → ∃ status, (postSendTurn t.mrList qp
      { regs with sqRp := t.sqRp } wr t.reply).1 = .stop status

/-- Posting makes progress. -/
structure Progresses (qp : Qp) (regs : Regs) : Prop where
  /-- The loop over a valid request that fits ends, and over one that
  does not it ends just when the hardware catches up. -/
  ends : ∀ (wr : SendWr) (env : Nat → HwTurn), wr.Valid qp →
    (LoopEnds wr env qp regs
      ↔ ¬ wr.TooLong qp ∨ ∃ t, (env t).sqRp = regs.sqWp)
  /-- A valid request that can be built is accepted when the hardware
  has caught up. -/
  accepts : ∀ (wr : SendWr) (env : Nat → HwTurn), wr.Valid qp →
    (∀ t, ¬ wr.Fails qp (env t).reply) → (env 0).sqRp = regs.sqWp →
    AcceptedSoon wr env qp regs
  /-- There is a request that is not refused. -/
  notStuck : ¬ Stuck qp regs

-- =========================================================== the condition

/-- Immediate data on its own, about to be prepared. -/
def SendWr.BareImm (wr : SendWr) (qp : Qp) (reply : Option SgPhyInfo) :
    Prop :=
  wr.sgList = [] ∧ wr.inlineRefused qp = false
    ∧ (wr.opcode = .sendWithImm
      ∨ wr.opcode = .rdmaWriteWithImm ∧ wr.Translated qp reply)

instance (wr : SendWr) (qp : Qp) (reply : Option SgPhyInfo) :
    Decidable (wr.BareImm qp reply) :=
  inferInstanceAs (Decidable (_ ∧ _ ∧ (_ ∨ _)))

/-- The request is immediate data on its own, and there is one free
entry left. -/
def SendWr.FillsLast (wr : SendWr) (qp : Qp) (reply : Option SgPhyInfo) :
    Prop :=
  sqhwqFreeCnt qp.sq = 1 ∧ wr.Valid qp ∧ wr.BareImm qp reply

instance (wr : SendWr) (qp : Qp) (reply : Option SgPhyInfo) :
    Decidable (wr.FillsLast qp reply) :=
  inferInstanceAs (Decidable (_ ∧ _ ∧ _))

/-- The condition on a step: no immediate data on its own is built at
the last free entry. -/
def SysEvent.SparesLast (s : Sys) : SysEvent → Prop
  | .sendTurn _ reply =>
      match s.sending with
      | [] => True
      | wr :: _ => s.dead = false → ¬ wr.FillsLast s.qp reply
  | _ => True

instance (s : Sys) : ∀ e : SysEvent, Decidable (e.SparesLast s)
  | .sendTurn _ reply => by
      unfold SysEvent.SparesLast
      cases s.sending with
      | nil => exact inferInstanceAs (Decidable True)
      | cons wr wrs => exact inferInstanceAs (Decidable (_ → _))
  | .pollRound _ => isTrue trivial
  | .postSend _ => isTrue trivial
  | .postRecv _ => isTrue trivial
  | .recvTurn _ => isTrue trivial
  | .xmit _ => isTrue trivial
  | .arrive _ _ => isTrue trivial

-- ================================================================ the sizes

/-- What no step changes about a queue. -/
def HwqInfo.sizes (q : HwqInfo) : Nat × Nat × Nat :=
  (q.maxSges, q.maxCnt, q.maxWqeIdx)

@[simp] theorem sizes_hwqIncHead (q : HwqInfo) :
    (hwqIncHead q).sizes = q.sizes := rfl

@[simp] theorem sizes_advance (k : Nat) :
    ∀ q : HwqInfo, (q.advance k).sizes = q.sizes := by
  induction k with
  | zero => exact fun _ => rfl
  | succ k ih => exact fun q => ih (hwqIncHead q)

/-- The ring has its last entry at `max_wqe_idx`, and room for a request
in front of it. -/
def HwqInfo.Roomy (q : HwqInfo) : Prop :=
  q.maxCnt = q.maxWqeIdx + 1 ∧ q.maxSges < q.maxWqeIdx

theorem HwqInfo.Roomy.of_sizes {q q' : HwqInfo} (h : q.Roomy)
    (hsizes : q'.sizes = q.sizes) : q'.Roomy := by
  obtain ⟨hsges, hcnt, hidx⟩ : q'.maxSges = q.maxSges
      ∧ q'.maxCnt = q.maxCnt ∧ q'.maxWqeIdx = q.maxWqeIdx := by
    simpa [HwqInfo.sizes] using hsizes
  unfold HwqInfo.Roomy
  rw [hsges, hcnt, hidx]
  exact h

-- ================================================================ the turns

/-- A valid request is put off, refused for want of any entry, or about
to be built. -/
theorem SendWr.Valid.tooLong_iff {wr : SendWr} {qp : Qp}
    (h : wr.Valid qp) :
    wr.TooLong qp
      ↔ sqhwqFreeCnt qp.sq ≠ 0 ∧ sqhwqFreeCnt qp.sq ≤ wr.numSge :=
  ⟨fun hlong => ⟨hlong.1.2.1, hlong.2⟩,
    fun hshort => ⟨⟨h.1, hshort.1, h.2⟩, hshort.2⟩⟩

/-- A turn on a request that does not fit. -/
theorem postSendTurn_tooLong {wr : SendWr} {qp : Qp}
    (h : wr.TooLong qp) (mrList : List MrSgInfo) (regs : Regs)
    (reply : Option SgPhyInfo) :
    postSendTurn mrList qp regs wr reply
      = (.again, (initSqPtr qp regs).1, (initSqPtr qp regs).2) := by
  obtain ⟨⟨hud, hfree, hsges⟩, hroom⟩ := h
  have hfull : ¬ (sqhwqFreeCnt qp.sq = 0
      ∨ wr.numSge > qp.sq.maxSges) := by omega
  unfold postSendTurn
  rw [if_neg hud]
  simp only [if_neg hfull]
  rw [if_pos hroom]

/-- A turn on a request that fits leaves what building it leaves. -/
theorem postSendTurn_ready {wr : SendWr} {qp : Qp} (h : wr.Ready qp)
    (mrList : List MrSgInfo) (regs : Regs) (reply : Option SgPhyInfo) :
    postSendTurn mrList qp regs wr reply
      = if (buildWr mrList qp wr reply).1 = 0 then
          (.next, (buildWr mrList qp wr reply).2,
            ringSqHw (buildWr mrList qp wr reply).2 regs wr)
        else
          (.stop (buildWr mrList qp wr reply).1,
            (buildWr mrList qp wr reply).2, regs) := by
  obtain ⟨⟨hud, hfree, hsges⟩, hroom⟩ := h
  have hfull : ¬ (sqhwqFreeCnt qp.sq = 0
      ∨ wr.numSge > qp.sq.maxSges) := by omega
  have hfoe : checkFoe wr.numSge (sqhwqFreeCnt qp.sq) = 0 := by
    unfold checkFoe
    rw [if_neg (by omega)]
  unfold postSendTurn
  rw [if_neg hud]
  simp only [if_neg hfull]
  rw [if_neg (by omega)]
  simp only [hfoe, ne_eq, not_true_eq_false, if_false]
  by_cases hstatus : (buildWr mrList qp wr reply).1 = 0
  · simp [hstatus]
  · simp [hstatus]

/-- The queue pair after such a turn. -/
theorem postSendTurn_ready_qp {wr : SendWr} {qp : Qp} (h : wr.Ready qp)
    (mrList : List MrSgInfo) (regs : Regs) (reply : Option SgPhyInfo) :
    (postSendTurn mrList qp regs wr reply).2.1
      = (buildWr mrList qp wr reply).2 := by
  rw [postSendTurn_ready h]
  split
  · rfl
  · rfl

/-- A request that can be built is. -/
theorem postSendTurn_accepts {wr : SendWr} {qp : Qp} (h : wr.Ready qp)
    {reply : Option SgPhyInfo} (hok : ¬ wr.Fails qp reply)
    (mrList : List MrSgInfo) (regs : Regs) :
    (postSendTurn mrList qp regs wr reply).1 = .next := by
  have hbuilt := buildWr_cases mrList qp wr reply
  rw [postSendTurn_ready h]
  generalize buildWr mrList qp wr reply = r at hbuilt
  cases hbuilt with
  | done _ _ => rw [if_pos rfl]
  | failed _ hfails _ _ => exact absurd hfails hok

/-- With no free entry left every request is refused. -/
theorem postSendTurn_full {qp : Qp} (h : sqhwqFreeCnt qp.sq = 0)
    (mrList : List MrSgInfo) (regs : Regs) (wr : SendWr)
    (reply : Option SgPhyInfo) :
    ∃ status, (postSendTurn mrList qp regs wr reply).1
      = .stop status := by
  unfold postSendTurn
  split
  · exact ⟨_, rfl⟩
  · rw [if_pos (Or.inl h)]
    exact ⟨_, rfl⟩

/-- Only a request that does not fit is put off. -/
theorem postSendTurn_settled {wr : SendWr} {qp : Qp}
    (h : ¬ wr.TooLong qp) (mrList : List MrSgInfo) (regs : Regs)
    (reply : Option SgPhyInfo) :
    (postSendTurn mrList qp regs wr reply).1 ≠ .again := by
  have hturn := postSendTurn_cases mrList qp regs wr reply
  generalize postSendTurn mrList qp regs wr reply = r at hturn
  cases hturn with
  | next _ _ _ => exact Turn.noConfusion
  | again hlong => exact absurd hlong h
  | stop _ _ => exact Turn.noConfusion

-- ============================================================== the rounds

/-- A loop over a request that is not put off ends in its first turn. -/
theorem sendLoop_settled {wr : SendWr} {qp : Qp} (h : ¬ wr.TooLong qp)
    (t : HwTurn) (ts : List HwTurn) (regs : Regs) :
    sendLoop wr (t :: ts) qp regs
      = some (0, postSendTurn t.mrList qp { regs with sqRp := t.sqRp }
          wr t.reply) := by
  have hne := postSendTurn_settled h t.mrList
    { regs with sqRp := t.sqRp } t.reply
  unfold sendLoop
  generalize postSendTurn t.mrList qp { regs with sqRp := t.sqRp } wr
    t.reply = r at hne
  obtain ⟨turn, qp', regs'⟩ := r
  cases turn with
  | next => rfl
  | again => exact absurd rfl hne
  | stop status => rfl

/-- The queue, back at the start of the ring. -/
def Qp.restarted (qp : Qp) : Qp :=
  { qp with sq := { qp.sq with overhead := qp.sq.head, head := 0 } }

/-- A turn that waits for the hardware. -/
theorem sendLoop_waits {wr : SendWr} {qp : Qp} (h : wr.TooLong qp)
    {t : HwTurn} {regs : Regs} (hbehind : t.sqRp ≠ regs.sqWp)
    (ts : List HwTurn) :
    sendLoop wr (t :: ts) qp regs
      = (sendLoop wr ts qp { regs with sqRp := t.sqRp }).map
          fun (resets, r) => (resets + 1, r) := by
  have hinit : initSqPtr qp { regs with sqRp := t.sqRp }
      = (qp, { regs with sqRp := t.sqRp }) := by
    unfold initSqPtr
    rw [if_neg fun heq => hbehind heq.symm]
  rw [sendLoop, postSendTurn_tooLong h, hinit]

/-- A turn that finds that the hardware has caught up. -/
theorem sendLoop_restarts {wr : SendWr} {qp : Qp} (h : wr.TooLong qp)
    {t : HwTurn} {regs : Regs} (hcaught : t.sqRp = regs.sqWp)
    (ts : List HwTurn) :
    sendLoop wr (t :: ts) qp regs
      = (sendLoop wr ts qp.restarted ⟨0, 0, regs.rqWp⟩).map
          fun (resets, r) => (resets + 1, r) := by
  have hinit : initSqPtr qp { regs with sqRp := t.sqRp }
      = (qp.restarted, ⟨0, 0, regs.rqWp⟩) := by
    unfold initSqPtr
    rw [if_pos hcaught.symm]
    rfl
  rw [sendLoop, postSendTurn_tooLong h, hinit]

/-- Back at its start the ring has room for every valid request. -/
theorem SendWr.Valid.ready_restarted {wr : SendWr} {qp : Qp}
    (h : wr.Valid qp) (hroomy : qp.sq.Roomy) :
    wr.Ready qp.restarted := by
  have hsges := h.2
  have hidx := hroomy.2
  have hfree : sqhwqFreeCnt qp.restarted.sq = qp.sq.maxWqeIdx :=
    Nat.sub_zero _
  refine ⟨⟨h.1, ?_, hsges⟩, ?_⟩
  · rw [hfree]
    omega
  · rw [hfree]
    omega

theorem SendWr.Ready.not_tooLong {wr : SendWr} {qp : Qp}
    (h : wr.Ready qp) : ¬ wr.TooLong qp :=
  fun hlong => absurd hlong.2 (Nat.not_le_of_lt h.2)

/-- The entries of a request that is about to be built end before the
end of the ring. -/
theorem SendWr.Ready.room {wr : SendWr} {qp : Qp} (h : wr.Ready qp)
    (hroomy : qp.sq.Roomy) :
    qp.sq.head + wr.entries qp < qp.sq.maxCnt := by
  have hfree := h.2
  have hcnt := hroomy.1
  have hentries := wr.entries_le qp
  unfold sqhwqFreeCnt at hfree
  omega

/-- The loop waits for as long as the hardware is behind. -/
theorem sendLoop_behind {wr : SendWr} {qp : Qp} (h : wr.TooLong qp)
    {ts : List HwTurn} : ∀ {regs : Regs},
      (∀ t ∈ ts, t.sqRp ≠ regs.sqWp) → sendLoop wr ts qp regs = none := by
  induction ts with
  | nil => exact fun _ => rfl
  | cons t ts ih =>
      intro regs hbehind
      have hrest : sendLoop wr ts qp { regs with sqRp := t.sqRp } = none :=
        ih fun t' ht' => hbehind t' (List.mem_cons_of_mem t ht')
      rw [sendLoop_waits h (hbehind t List.mem_cons_self), hrest]
      rfl

/-- The loop ends two turns after the hardware has caught up, if not
before. -/
theorem sendLoop_caught_up {wr : SendWr} {qp : Qp} (h : wr.Valid qp)
    (hroomy : qp.sq.Roomy) (hlong : wr.TooLong qp) (last : HwTurn)
    {ts : List HwTurn} : ∀ {regs : Regs},
      (∃ t ∈ ts, t.sqRp = regs.sqWp) →
      (sendLoop wr (ts ++ [last]) qp regs).isSome := by
  induction ts with
  | nil =>
      rintro regs ⟨t, ht, -⟩
      cases ht
  | cons t ts ih =>
      rintro regs ⟨t', ht', hcaught⟩
      rw [List.cons_append]
      by_cases hnow : t.sqRp = regs.sqWp
      · have hsettled := (h.ready_restarted hroomy).not_tooLong
        rw [sendLoop_restarts hlong hnow, Option.isSome_map]
        cases ts with
        | nil =>
            rw [List.nil_append, sendLoop_settled hsettled]
            rfl
        | cons t₂ ts =>
            rw [List.cons_append, sendLoop_settled hsettled]
            rfl
      · rw [sendLoop_waits hlong hnow, Option.isSome_map]
        refine ih ⟨t', ?_, hcaught⟩
        rcases List.mem_cons.1 ht' with rfl | hmem
        · exact absurd hcaught hnow
        · exact hmem

/-- The loop ends if the request fits, or else when the hardware has
caught up. -/
theorem SendWr.Valid.loopEnds_iff {wr : SendWr} {qp : Qp}
    (h : wr.Valid qp) (hroomy : qp.sq.Roomy) (env : Nat → HwTurn)
    (regs : Regs) :
    LoopEnds wr env qp regs
      ↔ ¬ wr.TooLong qp ∨ ∃ t, (env t).sqRp = regs.sqWp := by
  by_cases hlong : wr.TooLong qp
  case neg =>
    refine iff_of_true ⟨1, ?_⟩ (Or.inl hlong)
    rw [show (List.range 1).map env = [env 0] from rfl,
      sendLoop_settled hlong]
    rfl
  constructor
  · rintro ⟨turns, hends⟩
    by_contra hnever
    have hnone : sendLoop wr ((List.range turns).map env) qp regs
        = none := by
      refine sendLoop_behind hlong fun t ht heq => hnever (Or.inr ?_)
      obtain ⟨k, -, rfl⟩ := List.mem_map.1 ht
      exact ⟨k, heq⟩
    rw [hnone] at hends
    cases hends
  · rintro (hfits | ⟨t, hcaught⟩)
    · exact absurd hlong hfits
    refine ⟨t + 1 + 1, ?_⟩
    rw [List.range_succ, List.map_append]
    refine sendLoop_caught_up h hroomy hlong (env (t + 1))
      ⟨env t, ?_, hcaught⟩
    exact List.mem_map_of_mem (List.mem_range.2 (Nat.lt_succ_self t))

-- ============================================================ the property

/-- What is ready to be built now is accepted without a reset. -/
theorem sendLoop_ready {wr : SendWr} {qp : Qp} (h : wr.Ready qp)
    {t : HwTurn} (hok : ¬ wr.Fails qp t.reply) (ts : List HwTurn)
    (regs : Regs) :
    ∃ qp' regs', sendLoop wr (t :: ts) qp regs
      = some (0, .next, qp', regs') := by
  have hnext := postSendTurn_accepts h hok t.mrList
    { regs with sqRp := t.sqRp }
  rw [sendLoop_settled h.not_tooLong]
  generalize postSendTurn t.mrList qp { regs with sqRp := t.sqRp } wr
    t.reply = r at hnext
  obtain ⟨turn, qp', regs'⟩ := r
  obtain rfl : turn = .next := hnext
  exact ⟨qp', regs', rfl⟩

/-- A valid request is accepted after one reset, if it needs one. -/
theorem SendWr.Valid.acceptedSoon {wr : SendWr} {qp : Qp}
    (h : wr.Valid qp) (hroomy : qp.sq.Roomy)
    (hfree : sqhwqFreeCnt qp.sq ≠ 0) {env : Nat → HwTurn} {regs : Regs}
    (hok : ∀ t, ¬ wr.Fails qp (env t).reply)
    (hcaught : (env 0).sqRp = regs.sqWp) :
    AcceptedSoon wr env qp regs := by
  by_cases hroom : wr.numSge < sqhwqFreeCnt qp.sq
  · have hready : wr.Ready qp := ⟨⟨h.1, hfree, h.2⟩, hroom⟩
    obtain ⟨qp', regs', hloop⟩ := sendLoop_ready hready (hok 0) [] regs
    exact ⟨1, 0, qp', regs', Nat.zero_le 1, hloop⟩
  · have hlong : wr.TooLong qp :=
      h.tooLong_iff.2 ⟨hfree, Nat.le_of_not_lt hroom⟩
    -- the reset changes nothing that building looks at
    have hok' : ¬ wr.Fails qp.restarted (env 1).reply := hok 1
    obtain ⟨qp', regs', hloop⟩ := sendLoop_ready
      (h.ready_restarted hroomy) hok' [] ⟨0, 0, regs.rqWp⟩
    refine ⟨2, 1, qp', regs', Nat.le_refl 1, ?_⟩
    rw [show (List.range 2).map env = [env 0, env 1] from rfl,
      sendLoop_restarts hlong hcaught, hloop]
    rfl

/-- A request for nothing: no elements, and no immediate data. -/
def SendWr.nothing : SendWr where
  wrId := 0
  sgList := []
  opcode := .send
  sendSignaled := false
  sendInline := false
  immData := 0
  remoteAddr := 0
  rkey := 0
  ah := none
  remoteQpn := 0
  remoteQkey := 0

theorem SendWr.nothing_valid (qp : Qp) : SendWr.nothing.Valid qp :=
  ⟨fun h => h.2.1 rfl, Nat.zero_le _⟩

theorem SendWr.nothing_not_fails (qp : Qp) (reply : Option SgPhyInfo) :
    ¬ SendWr.nothing.Fails qp reply := by
  rintro (hinline | ⟨-, hentries⟩)
  · cases hinline
  · exact hentries rfl

/-- Posting makes progress just when there is a free entry. -/
theorem progresses_iff_free {qp : Qp} (hroomy : qp.sq.Roomy)
    (regs : Regs) :
    Progresses qp regs ↔ sqhwqFreeCnt qp.sq ≠ 0 := by
  constructor
  · rintro h hfull
    exact h.notStuck fun wr t _ _ _ => postSendTurn_full hfull _ _ _ _
  · intro hfree
    refine ⟨fun wr env h => h.loopEnds_iff hroomy env regs,
      fun wr env h => h.acceptedSoon hroomy hfree, fun hstuck => ?_⟩
    -- a request for nothing is accepted
    have hready : SendWr.nothing.Ready qp :=
      ⟨⟨(SendWr.nothing_valid qp).1, hfree, Nat.zero_le _⟩,
        Nat.pos_of_ne_zero hfree⟩
    obtain ⟨status, hstop⟩ := hstuck .nothing ⟨[], none, regs.sqWp⟩
      (SendWr.nothing_valid qp) (SendWr.nothing_not_fails qp none) rfl
    have hnext := postSendTurn_accepts hready
      (SendWr.nothing_not_fails qp none) []
      { regs with sqRp := regs.sqWp }
    rw [hnext] at hstop
    cases hstop

-- ================================================================ the head

/-- Immediate data on its own moves the head, whatever `prepare`
says. -/
theorem buildSgesWith_bareImm {refused : QpType → SendWr → Bool}
    {prepare : Qp → Wqe → SendWr → Int × Qp × Wqe}
    (hp : Prepares refused prepare) {imm : WrOpcode} {wr : SendWr}
    (hnil : wr.sgList = []) (himm : wr.opcode = imm)
    (mrList : List MrSgInfo) (qp : Qp) :
    (buildSgesWith imm prepare mrList qp wr).2.sq
      = hwqIncHead qp.sq := by
  unfold buildSgesWith
  rw [if_pos ⟨hnil, himm⟩]
  show hwqIncHead (prepare qp (qp.sqVa qp.sq.head) wr).2.1.sq = _
  rw [(hp.frame _ _ _).1]

theorem buildWr_bareImm {wr : SendWr} {qp : Qp}
    {reply : Option SgPhyInfo} (h : wr.BareImm qp reply)
    (mrList : List MrSgInfo) :
    (buildWr mrList qp wr reply).2.sq = hwqIncHead qp.sq := by
  obtain ⟨hnil, hinline, hsend | ⟨hwrite, hfound⟩⟩ := h
  · have hput : ∀ wqe : Wqe,
        (buildSend mrList (qp.putWqe wqe) wr).2.sq = hwqIncHead qp.sq := by
      intro wqe
      have hin : wr.inlineRefused (qp.putWqe wqe) = false := hinline
      unfold buildSend buildInlineSges
      rw [if_neg (by rw [hin]; exact Bool.false_ne_true)]
      exact buildSgesWith_bareImm prepareSendWqe_prepares hnil hsend
        mrList (qp.putWqe wqe)
    unfold buildWr
    rw [hsend]
    exact hput _
  · have hbuilt : ∀ {qp' : Qp}, qp.Keeps qp' →
        (buildwriteInlineSges mrList qp' wr).2.sq
          = hwqIncHead qp.sq := by
      intro qp' hkeeps
      have hin : wr.inlineRefused qp' = false := by
        rw [hkeeps.inlineRefused_eq]
        exact hinline
      unfold buildwriteInlineSges
      rw [if_neg (by rw [hin]; exact Bool.false_ne_true)]
      rw [← hkeeps.sq_eq]
      exact buildSgesWith_bareImm prepareWriteWqe_prepares hnil hwrite
        mrList qp'
    have hput : ∀ wqe : Wqe,
        (buildWrite mrList (qp.putWqe wqe) wr reply).2.sq
          = hwqIncHead qp.sq := by
      intro wqe
      have hkeeps := Qp.Sends.putWqe qp wqe
      unfold buildWrite
      by_cases hcovers : (qp.putWqe wqe).addrtbl.covers wr.remoteAddr
      · simp only [if_pos hcovers]
        exact hbuilt (hkeeps.keeps (rdmaAddr_keeps _ _))
      · have hasked :=
          exchangeDmaaddrinfo_keeps (qp.putWqe wqe) wr reply
        have hstatus := hasked.2.2 (hfound.resolve_left hcovers)
        simp only [if_neg hcovers, hstatus, ne_eq, not_true_eq_false,
          if_false]
        exact hbuilt
          ((hkeeps.keeps hasked.1).keeps (rdmaAddr_keeps _ _))
    unfold buildWr
    rw [hwrite]
    exact hput _

/-- A request without elements that is accepted takes an entry only as
immediate data. -/
theorem SendWr.entries_of_nil {wr : SendWr} {qp : Qp}
    {reply : Option SgPhyInfo} (hnil : wr.sgList = [])
    (hok : ¬ wr.Fails qp reply) (hbare : ¬ wr.BareImm qp reply) :
    wr.entries qp = 0 := by
  have hnum : wr.numSge = 0 := by rw [SendWr.numSge, hnil]; rfl
  unfold SendWr.entries entriesOf
  unfold SendWr.Fails SendWr.Unbuildable at hok
  unfold SendWr.BareImm at hbare
  cases hop : wr.opcode with
  | sendWithImm => simp_all
  | rdmaWriteWithImm => simp_all
  | rdmaRead => simp [hnum]
  | rdmaWrite => simp [hnum]
  | send => simp [hnum]
  | sendWithInv => simp [hnum]
  | other => simp [hnum]

/-- One element at least takes as many entries as there are elements. -/
theorem SendWr.entries_of_cons {wr : SendWr} (qp : Qp)
    (hne : wr.sgList ≠ []) : wr.entries qp ≤ wr.numSge := by
  have hentries : ∀ imm, entriesOf imm wr = wr.numSge := by
    intro imm
    unfold entriesOf
    rw [if_neg fun h => hne h.1]
  unfold SendWr.entries
  split
  · split
    · exact Nat.zero_le _
    · exact Nat.le_refl _
  · rw [hentries]
  · rw [hentries]
  · rw [hentries]

/-- A turn changes none of the sizes. -/
theorem postSendTurn_sizes (mrList : List MrSgInfo) (qp : Qp)
    (regs : Regs) (wr : SendWr) (reply : Option SgPhyInfo) :
    (postSendTurn mrList qp regs wr reply).2.1.sq.sizes
      = qp.sq.sizes := by
  by_cases hbare : wr.Ready qp ∧ wr.BareImm qp reply
  · rw [postSendTurn_ready_qp hbare.1, buildWr_bareImm hbare.2,
      sizes_hwqIncHead]
  have hturn := postSendTurn_cases mrList qp regs wr reply
  generalize postSendTurn mrList qp regs wr reply = r at hturn
  cases hturn with
  | next _ _ htakes => rw [htakes.sq_eq, sizes_advance]
  | again _ =>
      unfold initSqPtr
      split
      · rfl
      · rfl
  | stop hsends hkeeps =>
      rw [hsends.sq_eq, hkeeps fun h => hbare ⟨h.1, ?_⟩]
      obtain ⟨hnil, hinline, himm⟩ := h.2
      exact ⟨hnil, hinline, himm.imp And.left fun h => ⟨h.1, h.2.2⟩⟩

/-- The head moved on takes one of the free entries. -/
theorem sqhwqFreeCnt_hwqIncHead {q : HwqInfo} (hroomy : q.Roomy)
    (hfree : sqhwqFreeCnt q ≠ 0) :
    sqhwqFreeCnt (hwqIncHead q) = sqhwqFreeCnt q - 1 := by
  have hcnt := hroomy.1
  unfold sqhwqFreeCnt at hfree ⊢
  have hinc : (hwqIncHead q).head = q.head + 1 :=
    Nat.mod_eq_of_lt (by omega)
  rw [hinc]
  show q.maxWqeIdx - (q.head + 1) = q.maxWqeIdx - q.head - 1
  omega

/-- A turn leaves a free entry just when it does not build immediate data
on its own at the last one. -/
theorem postSendTurn_free_iff {qp : Qp} (hroomy : qp.sq.Roomy)
    (hfree : sqhwqFreeCnt qp.sq ≠ 0) (mrList : List MrSgInfo)
    (regs : Regs) (wr : SendWr) (reply : Option SgPhyInfo) :
    sqhwqFreeCnt (postSendTurn mrList qp regs wr reply).2.1.sq ≠ 0
      ↔ ¬ wr.FillsLast qp reply := by
  have hidx := hroomy.2
  have hcnt := hroomy.1
  -- a request that fits, and comes to be built
  by_cases hbare : wr.Ready qp ∧ wr.BareImm qp reply
  · obtain ⟨hready, hbare⟩ := hbare
    have hvalid : wr.Valid qp := ⟨hready.1.1, hready.1.2.2⟩
    have hsq : (postSendTurn mrList qp regs wr reply).2.1.sq
        = hwqIncHead qp.sq := by
      rw [postSendTurn_ready_qp hready, buildWr_bareImm hbare]
    rw [hsq, sqhwqFreeCnt_hwqIncHead hroomy hfree]
    constructor
    · intro hrest hlast
      have hone := hlast.1
      omega
    · intro hspare hzero
      exact hspare ⟨by omega, hvalid, hbare⟩
  have hspare : ¬ wr.FillsLast qp reply := by
    rintro ⟨hone, hvalid, hnil, himm⟩
    have hnum : wr.numSge = 0 := by rw [SendWr.numSge, hnil]; rfl
    exact hbare ⟨⟨⟨hvalid.1, hfree, hvalid.2⟩, by omega⟩, hnil, himm⟩
  refine iff_of_true ?_ hspare
  have hturn := postSendTurn_cases mrList qp regs wr reply
  generalize postSendTurn mrList qp regs wr reply = r at hturn
  cases hturn with
  | next hready hok htakes =>
      have hroom := hready.2
      have hentries : wr.entries qp ≤ wr.numSge := by
        by_cases hnil : wr.sgList = []
        · rw [wr.entries_of_nil hnil hok fun h => hbare ⟨hready, h⟩]
          exact Nat.zero_le _
        · exact wr.entries_of_cons qp hnil
      rw [htakes.sq_eq]
      unfold sqhwqFreeCnt at hroom ⊢
      rw [HwqInfo.advance_eq (by omega)]
      dsimp only
      omega
  | again _ =>
      unfold initSqPtr
      split
      · unfold sqhwqFreeCnt
        dsimp only
        omega
      · exact hfree
  | stop hsends hkeeps =>
      rw [hsends.sq_eq, hkeeps fun h => hbare ⟨h.1, ?_⟩]
      · exact hfree
      obtain ⟨hnil, hinline, himm⟩ := h.2
      exact ⟨hnil, hinline, himm.imp And.left fun h => ⟨h.1, h.2.2⟩⟩

-- ================================================================ the steps

/-- A round of `bxroce_poll_cq` moves the tail of the send queue, and
nothing else of it. -/
theorem Sys.pollRound_sq (s : Sys) (ibwc : Nat → Wc) :
    (s.pollRound ibwc).qp.sq.sizes = s.qp.sq.sizes
      ∧ (s.pollRound ibwc).qp.sq.head = s.qp.sq.head := by
  have hpolled := s.pollRound_polled ibwc
  generalize s.pollRound ibwc = s' at hpolled
  cases hpolled with
  | idle => exact ⟨rfl, rfl⟩
  | dies => exact ⟨rfl, rfl⟩
  | took hxmit _ =>
      cases hxmit with
      | idle _ => exact ⟨rfl, rfl⟩
      | taken _ hsq =>
          unfold hwqIncSqtail at hsq
          split at hsq
          · cases hsq
          · obtain rfl := Option.some.inj hsq
            exact ⟨rfl, rfl⟩

/-- The send queue after any step but a turn of `bxroce_post_send`. -/
theorem Sys.step_sq (s : Sys) {e : SysEvent}
    (h : ∀ mrList reply, e ≠ .sendTurn mrList reply) :
    (s.step e).qp.sq.sizes = s.qp.sq.sizes
      ∧ (s.step e).qp.sq.head = s.qp.sq.head := by
  unfold Sys.step
  split
  · exact ⟨rfl, rfl⟩
  cases e with
  | sendTurn mrList reply => exact absurd rfl (h mrList reply)
  | postSend wrs =>
      dsimp only
      split
      · exact ⟨rfl, rfl⟩
      · exact ⟨rfl, rfl⟩
  | postRecv wrs =>
      dsimp only
      split
      · exact ⟨rfl, rfl⟩
      · exact ⟨rfl, rfl⟩
  | recvTurn mrList =>
      dsimp only
      unfold Sys.recvTurn
      cases s.receiving with
      | nil => exact ⟨rfl, rfl⟩
      | cons wr wrs =>
          have hsq := (postRecvTurn_send mrList s.qp s.regs wr).1
          exact ⟨congrArg HwqInfo.sizes hsq, congrArg HwqInfo.head hsq⟩
  | xmit cqe =>
      dsimp only
      unfold Sys.xmit
      split
      · exact ⟨rfl, rfl⟩
      · exact ⟨rfl, rfl⟩
  | arrive receives cqe =>
      dsimp only
      unfold Sys.arrive
      split
      · exact ⟨rfl, rfl⟩
      · exact ⟨rfl, rfl⟩
  | pollRound ibwc => exact s.pollRound_sq ibwc

/-- The free entries are those behind the head. -/
theorem sqhwqFreeCnt_congr {q q' : HwqInfo} (hsizes : q'.sizes = q.sizes)
    (hhead : q'.head = q.head) : sqhwqFreeCnt q' = sqhwqFreeCnt q := by
  have hidx : q'.maxWqeIdx = q.maxWqeIdx := by
    simp only [HwqInfo.sizes, Prod.mk.injEq] at hsizes
    exact hsizes.2.2
  unfold sqhwqFreeCnt
  rw [hidx, hhead]

/-- The queue pair after a turn of `bxroce_post_send`. -/
theorem Sys.step_sendTurn_qp {s : Sys} (hlive : s.dead = false)
    {wr : SendWr} {wrs : List SendWr} (hsending : s.sending = wr :: wrs)
    (mrList : List MrSgInfo) (reply : Option SgPhyInfo) :
    (s.step (.sendTurn mrList reply)).qp
      = (postSendTurn mrList s.qp s.regs wr reply).2.1 := by
  unfold Sys.step Sys.sendTurn
  simp only [hlive, hsending, Bool.false_eq_true, if_false]

/-- A turn that has nothing to post. -/
theorem Sys.step_sendTurn_idle {s : Sys}
    (h : s.dead = true ∨ s.sending = []) (mrList : List MrSgInfo)
    (reply : Option SgPhyInfo) :
    s.step (.sendTurn mrList reply) = s := by
  unfold Sys.step Sys.sendTurn
  rcases h with hdead | hnil
  · rw [if_pos hdead]
  · split
    · rfl
    · simp only [hnil]

/-- No step changes the sizes. -/
theorem Sys.step_roomy (s : Sys) (e : SysEvent) (h : s.qp.sq.Roomy) :
    (s.step e).qp.sq.Roomy := by
  cases e with
  | sendTurn mrList reply =>
      cases hlive : s.dead with
      | true =>
          rw [s.step_sendTurn_idle (Or.inl hlive)]
          exact h
      | false =>
          cases hsending : s.sending with
          | nil =>
              rw [s.step_sendTurn_idle (Or.inr hsending)]
              exact h
          | cons wr wrs =>
              rw [Sys.step_sendTurn_qp hlive hsending]
              exact h.of_sizes (postSendTurn_sizes ..)
  | postSend wrs => exact h.of_sizes (s.step_sq (by simp)).1
  | postRecv wrs => exact h.of_sizes (s.step_sq (by simp)).1
  | recvTurn mrList => exact h.of_sizes (s.step_sq (by simp)).1
  | xmit cqe => exact h.of_sizes (s.step_sq (by simp)).1
  | arrive receives cqe => exact h.of_sizes (s.step_sq (by simp)).1
  | pollRound ibwc => exact h.of_sizes (s.step_sq (by simp)).1

/-- A step from a state with a free entry leaves one just when it meets
the condition. -/
theorem Sys.step_free_iff (s : Sys) (e : SysEvent) (h : s.qp.sq.Roomy)
    (hfree : sqhwqFreeCnt s.qp.sq ≠ 0) :
    sqhwqFreeCnt (s.step e).qp.sq ≠ 0 ↔ e.SparesLast s := by
  have hother : ∀ {e : SysEvent}, (∀ mrList reply,
      e ≠ .sendTurn mrList reply) →
      sqhwqFreeCnt (s.step e).qp.sq ≠ 0 := by
    intro e hne
    obtain ⟨hsizes, hhead⟩ := s.step_sq hne
    rw [sqhwqFreeCnt_congr hsizes hhead]
    exact hfree
  cases e with
  | sendTurn mrList reply =>
      unfold SysEvent.SparesLast
      cases hsending : s.sending with
      | nil =>
          rw [s.step_sendTurn_idle (Or.inr hsending)]
          exact iff_of_true hfree trivial
      | cons wr wrs =>
          cases hlive : s.dead with
          | true =>
              rw [s.step_sendTurn_idle (Or.inl hlive)]
              refine iff_of_true hfree fun h => ?_
              cases h
          | false =>
              rw [Sys.step_sendTurn_qp hlive hsending,
                postSendTurn_free_iff h hfree]
              exact ⟨fun hspare _ => hspare, fun hspare => hspare rfl⟩
  | postSend wrs => exact iff_of_true (hother (by simp)) trivial
  | postRecv wrs => exact iff_of_true (hother (by simp)) trivial
  | recvTurn mrList => exact iff_of_true (hother (by simp)) trivial
  | xmit cqe => exact iff_of_true (hother (by simp)) trivial
  | arrive receives cqe => exact iff_of_true (hother (by simp)) trivial
  | pollRound ibwc => exact iff_of_true (hother (by simp)) trivial

-- ================================================================= runs

/-- A new queue pair has room in front of its last entry. -/
theorem Sys.start_roomy (c : CreateQp) (qpState : QpState)
    (attr : QpChangeInfo) (hroom : c.maxSendSge + 1 < c.numWqeAllocated) :
    (Sys.start c qpState attr).qp.sq.Roomy := by
  show c.numWqeAllocated = c.numWqeAllocated - 1 + 1
    ∧ c.maxSendSge < c.numWqeAllocated - 1
  omega

/-- Over every run of a queue pair whose entry lists are shorter than its
send ring, posting makes progress throughout just when no step builds
immediate data on its own at the last free entry. -/
theorem progresses_iff (c : CreateQp) (qpState : QpState)
    (attr : QpChangeInfo) (hroom : c.maxSendSge + 1 < c.numWqeAllocated)
    (events : List SysEvent) :
    Always Sys.step (fun s => Progresses s.qp s.regs)
        (Sys.start c qpState attr) events
      ↔ Each Sys.step (fun s e => e.SparesLast s)
        (Sys.start c qpState attr) events := by
  have hstart := Sys.start_roomy c qpState attr hroom
  refine always_iff_each_of_inv (I := fun s => s.qp.sq.Roomy)
    Sys.step_roomy (fun s e hroomy hprogress => ?_) hstart ?_
  · rw [progresses_iff_free (s.step_roomy e hroomy)]
    exact s.step_free_iff e hroomy
      ((progresses_iff_free hroomy _).1 hprogress)
  · refine (progresses_iff_free hstart _).2 ?_
    have hidx := hstart.2
    show (Sys.start c qpState attr).qp.sq.maxWqeIdx - 0 ≠ 0
    omega

/-- A connected queue pair on the rings the kernel allocates. -/
def CreateQp.connected : CreateQp where
  qpId := 2
  qpType := .rc
  numWqeAllocated := 2048
  numRqeAllocated := 2048
  maxSendSge := 2
  maxRecvSge := 2
  sqSigAll := 0
  sqVa := fun _ => .zero
  rqVa := fun _ => .zero
  addrtbl := ⟨0, 0, 0⟩
  numWqe_pos := by decide
  numRqe_pos := by decide

/-- Two elements, then immediate data on its own. -/
theorem progresses_mixed :
    let wr : SendWr :=
      { SendWr.nothing with
        sgList := [⟨0x4000, 64, 1⟩, ⟨0x5000, 64, 1⟩] }
    let imm : SendWr := { SendWr.nothing with opcode := .sendWithImm }
    let events : List SysEvent :=
      [.postSend [wr, imm], .sendTurn [] none, .sendTurn [] none]
    let start := Sys.start .connected .rts (QpChangeInfo.initial 0)
    (exec Sys.step start events).qp.sq.head = 3
      ∧ Always Sys.step (fun s => Progresses s.qp s.regs) start
        events := by
  intro wr imm events start
  exact ⟨by decide +kernel,
    (progresses_iff .connected .rts _ (by decide) events).2
      (by decide +kernel)⟩

-- ============================================================ the stuck queue

/-- Immediate data and nothing else, completion asked for. -/
def SendWr.immOnly : SendWr :=
  { SendWr.nothing with opcode := .sendWithImm, sendSignaled := true }

/-- A run of such requests on a connected queue pair: each is accepted,
and takes one entry. -/
theorem immOnly_turns (n : Nat) : ∀ {s : Sys}, s.dead = false →
    s.qp.qpType = .rc → s.qp.sq.Roomy →
    s.sending = List.replicate n SendWr.immOnly →
    n ≤ sqhwqFreeCnt s.qp.sq →
    let s' := exec Sys.step s (List.replicate n (.sendTurn [] none))
    sqhwqFreeCnt s'.qp.sq = sqhwqFreeCnt s.qp.sq - n
      ∧ s'.accepted = s.accepted ++ List.replicate n 0 := by
  induction n with
  | zero =>
      intro s _ _ _ _ _
      exact ⟨rfl, (List.append_nil _).symm⟩
  | succ n ih =>
      intro s hlive hrc hroomy hsending hroom
      have hready : SendWr.immOnly.Ready s.qp := by
        refine ⟨⟨?_, by omega, Nat.zero_le _⟩, by
          show 0 < sqhwqFreeCnt s.qp.sq
          omega⟩
        rw [hrc]
        decide
      have hok : ¬ SendWr.immOnly.Fails s.qp none := by
        rintro (hinline | ⟨hrefused, -⟩)
        · cases hinline
        · rw [hrc] at hrefused
          exact absurd hrefused (by decide)
      have hbare : SendWr.immOnly.BareImm s.qp none :=
        ⟨rfl, rfl, Or.inl rfl⟩
      have hsq : (postSendTurn [] s.qp s.regs .immOnly none).2.1.sq
          = hwqIncHead s.qp.sq := by
        rw [postSendTurn_ready_qp hready, buildWr_bareImm hbare]
      have hsizes := postSendTurn_sizes [] s.qp s.regs .immOnly none
      have hturn := postSendTurn_cases [] s.qp s.regs .immOnly none
      have hnext := postSendTurn_accepts hready hok [] s.regs
      rw [List.replicate_succ, exec_cons]
      have hstep : s.step (.sendTurn [] none)
          = { s with
              qp := (postSendTurn [] s.qp s.regs .immOnly none).2.1
              regs := (postSendTurn [] s.qp s.regs .immOnly none).2.2
              sending := List.replicate n .immOnly
              accepted := s.accepted ++ [0] } := by
        unfold Sys.step Sys.sendTurn
        have hsignaled : SendWr.immOnly.isSignaled s.qp = true := rfl
        simp only [hlive, hsending, List.replicate_succ, hnext,
          hsignaled, Bool.false_eq_true, if_false, and_self, if_true]
        rfl
      rw [hstep]
      generalize postSendTurn [] s.qp s.regs .immOnly none = r
        at hsq hsizes hturn hnext
      have hrc' : r.2.1.qpType = .rc := by
        cases hturn with
        | next _ _ htakes => exact htakes.qpType_eq.trans hrc
        | again _ => cases hnext
        | stop _ _ => cases hnext
      have hfree : sqhwqFreeCnt r.2.1.sq = sqhwqFreeCnt s.qp.sq - 1 := by
        rw [hsq]
        exact sqhwqFreeCnt_hwqIncHead hroomy (by omega)
      obtain ⟨hhead, haccepted⟩ := @ih
        { s with
          qp := r.2.1, regs := r.2.2
          sending := List.replicate n .immOnly
          accepted := s.accepted ++ [0] }
        hlive hrc' (hroomy.of_sizes hsizes) rfl (by
          show n ≤ sqhwqFreeCnt r.2.1.sq
          omega)
      refine ⟨hhead.trans ?_, haccepted.trans ?_⟩
      · show sqhwqFreeCnt r.2.1.sq - n = _
        omega
      · rw [List.replicate_succ, List.append_assoc]
        rfl

/-- `n` of them, in one call. -/
def immOnlyCall (n : Nat) : List SysEvent :=
  .postSend (List.replicate n .immOnly)
    :: List.replicate n (.sendTurn [] none)

/-- A whole ring of them: all are accepted, and then nothing is. -/
theorem immOnly_sticks {c : CreateQp} (hrc : c.qpType = .rc)
    (hroom : c.maxSendSge + 1 < c.numWqeAllocated) (attr : QpChangeInfo)
    {n : Nat} (hn : c.numWqeAllocated = n + 1) {s : Sys}
    (hs : s = exec Sys.step (Sys.start c .rts attr) (immOnlyCall n)) :
    s.accepted = List.replicate n 0 ∧ Stuck s.qp s.regs := by
  have hcnt : sqhwqFreeCnt (Sys.start c .rts attr).qp.sq = n := by
    show c.numWqeAllocated - 1 - 0 = n
    omega
  obtain ⟨hfree, haccepted⟩ := @immOnly_turns n
    { Sys.start c .rts attr with sending := List.replicate n .immOnly }
    rfl hrc (Sys.start_roomy c .rts attr hroom) rfl
    (Nat.le_of_eq hcnt.symm)
  have hfull : sqhwqFreeCnt s.qp.sq = 0 := by
    rw [hs]
    refine hfree.trans ?_
    show sqhwqFreeCnt (Sys.start c .rts attr).qp.sq - n = 0
    omega
  refine ⟨?_, fun wr t _ _ _ => postSendTurn_full hfull _ _ _ _⟩
  rw [hs]
  exact haccepted

/-- The ring the kernel allocates, filled with immediate data alone: all
of it is accepted, and then nothing is, for good. -/
theorem imm_alone_sticks :
    let start := Sys.start .connected .rts (QpChangeInfo.initial 0)
    let s := exec Sys.step start (immOnlyCall 2047)
    s.accepted = List.replicate 2047 0
      ∧ Stuck s.qp s.regs
      ∧ ¬ Always Sys.step (fun s => Progresses s.qp s.regs) start
        (immOnlyCall 2047) := by
  intro start s
  have hn : CreateQp.connected.numWqeAllocated = 2047 + 1 := by decide
  have hs : s = exec Sys.step start (immOnlyCall 2047) := rfl
  clear_value s
  obtain ⟨haccepted, hstuck⟩ :=
    immOnly_sticks (by decide) (by decide) (QpChangeInfo.initial 0) hn hs
  refine ⟨haccepted, hstuck, fun h => ?_⟩
  have hlast := h.last.notStuck
  rw [← hs] at hlast
  exact hlast hstuck

end BxRnic.User
