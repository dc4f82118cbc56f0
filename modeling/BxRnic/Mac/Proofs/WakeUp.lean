/-
Whether a stopped transmit queue is woken.

The driver compares, stops the queue and only then sets `queue_stopped`;
it does not look at the ring again. A poll that reclaims the last
descriptor in between finds `queue_stopped` clear and wakes nothing, and
with nothing left to reclaim no later poll gets that far
(`late_test_loses`).

Short of that, a queue that is stopped with every descriptor reclaimed
has a poll on its way to the test (`WakeInv.late`), and with both
functions done there is none.
-/
import BxRnic.Lib.Run
import BxRnic.Mac.TxQueue

namespace BxRnic.Mac

-- =========================================================== the property

/-- With neither function in progress the queue is not stopped over an
empty ring, and `queue_stopped` says whether it is stopped. -/
def TxQueue.Settled (q : TxQueue) : Prop :=
  q.xmit = .idle ∧ q.poll = .idle →
    ¬ (q.netStopped = true ∧ q.cur = q.dirty)
      ∧ (q.queueStopped = true ↔ q.netStopped = true)

/-- The test for a stopped queue does not fall, over an empty ring, into
the time between a comparison that found too few descriptors and
`queue_stopped = 1`; and no packet needs more descriptors than an empty
ring has. -/
def TxQueue.StepOk (q : TxQueue) : TxAct → Prop
  | .test =>
      ¬ ((q.xmit = .stop ∨ q.xmit = .setStopped) ∧ q.cur = q.dirty)
  | .compare =>
      ∀ need, q.xmit = .compare need → q.cur = q.dirty →
        need ≤ txDescCnt
  | _ => True

-- ========================================================== the invariant

/-- The poll has reclaimed something and will test, or has tested and
found the queue stopped. -/
def PollPc.WillWake : PollPc → Prop
  | .loop _ processed => processed ≠ 0
  | .test => True
  | .avail => True
  | .clear => True
  | .idle => False
  | .wake => False

/-- What holds between any two accesses. -/
structure TxQueue.WakeInv (q : TxQueue) : Prop where
  flag : q.queueStopped = true → q.netStopped = true
  /-- `mac_xmit` is only called for a running queue. -/
  running : q.netStopped = true → q.xmit = .idle ∨ q.xmit = .setStopped
  pending : q.xmit = .setStopped →
    q.netStopped = true ∧ q.queueStopped = false
  found : q.poll = .avail ∨ q.poll = .clear → q.queueStopped = true
  waking : q.poll = .wake →
    q.netStopped = true ∧ q.queueStopped = false ∧ q.xmit = .idle
  told : q.xmit = .idle → q.netStopped = true →
    q.queueStopped = true ∨ q.poll = .wake
  late : q.xmit = .stop ∨ q.xmit = .setStopped ∨ q.queueStopped = true →
    q.cur = q.dirty → q.poll.WillWake

/-- What an access can be: where the function stands that makes it, and
what it leaves. -/
inductive TxQueue.StepCase (q : TxQueue) : TxAct → TxQueue → Prop
  | call (need : U32) (hnet : q.netStopped = false) :
      StepCase q (.call need) { q with xmit := .compare need }
  | compared {need : U32} (hx : q.xmit = .compare need) :
      StepCase q .compare
        (if need > q.availDesc then { q with xmit := .stop }
          else { q with xmit := .transmit })
  | transmit (used : U32) (hx : q.xmit = .transmit) :
      StepCase q (.transmit used)
        { q with cur := q.cur + used, xmit := .recheck }
  | drop (hx : q.xmit = .transmit) :
      StepCase q .drop { q with xmit := .idle }
  | rechecked (hx : q.xmit = .recheck) :
      StepCase q .recheck
        (if txMaxDescNr > q.availDesc then { q with xmit := .stop }
          else { q with xmit := .idle })
  | stop (hx : q.xmit = .stop) :
      StepCase q .stop { q with netStopped := true, xmit := .setStopped }
  | setStopped (hx : q.xmit = .setStopped) :
      StepCase q .setStopped { q with queueStopped := true, xmit := .idle }
  | poll (hp : q.poll = .idle) :
      StepCase q .poll { q with poll := .loop q.cur 0 }
  | reclaim {cur : U32} {processed : Nat}
      (hp : q.poll = .loop cur processed) :
      StepCase q .reclaim
        { q with
          dirty := q.dirty + 1
          poll := .loop cur (processed + 1) }
  | leaveNone {cur : U32} (hp : q.poll = .loop cur 0) :
      StepCase q .leave { q with poll := .idle }
  | leaveSome {cur : U32} {processed : Nat}
      (hp : q.poll = .loop cur processed) :
      StepCase q .leave { q with poll := .test }
  | testSet (hp : q.poll = .test) (hf : q.queueStopped = true) :
      StepCase q .test { q with poll := .avail }
  | testClear (hp : q.poll = .test) (hf : ¬ q.queueStopped = true) :
      StepCase q .test { q with poll := .idle }
  | availMany (hp : q.poll = .avail) :
      StepCase q .avail { q with poll := .clear }
  | availFew (hp : q.poll = .avail)
      (hfew : ¬ q.availDesc > txDescMinFree) :
      StepCase q .avail { q with poll := .idle }
  | clear (hp : q.poll = .clear) :
      StepCase q .clear { q with queueStopped := false, poll := .wake }
  | wake (hp : q.poll = .wake) :
      StepCase q .wake { q with netStopped := false, poll := .idle }

section Steps

variable {q q' : TxQueue}

theorem step_cases {act : TxAct} (h : q.step act = some q') :
    q.StepCase act q' := by
  cases act with
  | call need =>
    obtain ⟨⟨-, hnet⟩, h⟩ := Option.ite_none_right_eq_some.1 h
    cases h
    exact .call need hnet
  | compare =>
    simp only [TxQueue.step] at h
    split at h
    · next need hx =>
      rw [← Option.some.inj ((apply_ite some _ _ _).trans h)]
      exact .compared hx
    · cases h
  | transmit used =>
    obtain ⟨hx, h⟩ := Option.ite_none_right_eq_some.1 h
    cases h
    exact .transmit used hx
  | drop =>
    obtain ⟨hx, h⟩ := Option.ite_none_right_eq_some.1 h
    cases h
    exact .drop hx
  | recheck =>
    obtain ⟨hx, h⟩ := Option.ite_none_right_eq_some.1 h
    rw [← Option.some.inj ((apply_ite some _ _ _).trans h)]
    exact .rechecked hx
  | stop =>
    obtain ⟨hx, h⟩ := Option.ite_none_right_eq_some.1 h
    cases h
    exact .stop hx
  | setStopped =>
    obtain ⟨hx, h⟩ := Option.ite_none_right_eq_some.1 h
    cases h
    exact .setStopped hx
  | poll =>
    obtain ⟨hp, h⟩ := Option.ite_none_right_eq_some.1 h
    cases h
    exact .poll hp
  | reclaim =>
    simp only [TxQueue.step] at h
    split at h
    · next cur processed hp =>
      obtain ⟨-, h⟩ := Option.ite_none_right_eq_some.1 h
      cases h
      exact .reclaim hp
    · cases h
  | leave =>
    simp only [TxQueue.step] at h
    split at h
    · next cur processed hp =>
      split at h
      · next hzero =>
        cases h
        rw [hzero] at hp
        exact .leaveNone hp
      · cases h
        exact .leaveSome hp
    · cases h
  | test =>
    obtain ⟨hp, h⟩ := Option.ite_none_right_eq_some.1 h
    split at h
    · next hf =>
      cases h
      exact .testSet hp hf
    · next hf =>
      cases h
      exact .testClear hp hf
  | avail =>
    obtain ⟨hp, h⟩ := Option.ite_none_right_eq_some.1 h
    split at h
    · cases h
      exact .availMany hp
    · next hfew =>
      cases h
      exact .availFew hp hfew
  | clear =>
    obtain ⟨hp, h⟩ := Option.ite_none_right_eq_some.1 h
    cases h
    exact .clear hp
  | wake =>
    obtain ⟨hp, h⟩ := Option.ite_none_right_eq_some.1 h
    cases h
    exact .wake hp

/-- Over an empty ring every descriptor is available. -/
theorem availDesc_empty (h : q.cur = q.dirty) :
    q.availDesc = txDescCnt := by
  rw [TxQueue.availDesc, h, BitVec.sub_self, BitVec.sub_zero]

theorem TxQueue.WakeInv.started : TxQueue.started.WakeInv where
  flag h := Bool.noConfusion h
  running h := Bool.noConfusion h
  pending h := XmitPc.noConfusion h
  found h := by
    rcases h with h | h
    · exact PollPc.noConfusion h
    · exact PollPc.noConfusion h
  waking h := PollPc.noConfusion h
  told _ h := Bool.noConfusion h
  late h _ := by
    rcases h with h | h | h
    · exact XmitPc.noConfusion h
    · exact XmitPc.noConfusion h
    · exact Bool.noConfusion h

/-- While `mac_xmit` is before its stop, neither flag is set. -/
theorem TxQueue.WakeInv.flags_clear (h : q.WakeInv)
    (hidle : q.xmit ≠ .idle) (hset : q.xmit ≠ .setStopped) :
    q.netStopped = false ∧ q.queueStopped = false := by
  have hnet : q.netStopped = false := by
    cases hn : q.netStopped with
    | false => rfl
    | true =>
      rcases h.running hn with hx | hx
      · exact absurd hx hidle
      · exact absurd hx hset
  refine ⟨hnet, ?_⟩
  cases hf : q.queueStopped with
  | false => rfl
  | true =>
    have hstop := h.flag hf
    rw [hnet] at hstop
    exact hstop.symm

/-- An access of `mac_xmit` before the stop: the flags and the poll stay,
and if it is the comparison that fails the ring is not empty. -/
theorem TxQueue.WakeInv.xmit_moves (h : q.WakeInv) (cur : U32)
    (pc : XmitPc) (hnet : q.netStopped = false)
    (hflag : q.queueStopped = false) (hpc : pc ≠ .setStopped)
    (hstop : pc = .stop → cur ≠ q.dirty) :
    ({ q with cur := cur, xmit := pc } : TxQueue).WakeInv where
  flag hf := by
    rw [hflag] at hf
    exact Bool.noConfusion hf
  running hn := by
    rw [hnet] at hn
    exact Bool.noConfusion hn
  pending hx := absurd hx hpc
  found hp := h.found hp
  waking hp := by
    have hn := (h.waking hp).1
    rw [hnet] at hn
    exact Bool.noConfusion hn
  told _ hn := by
    rw [hnet] at hn
    exact Bool.noConfusion hn
  late hx heq := by
    rcases hx with hx | hx | hx
    · exact absurd heq (hstop hx)
    · exact absurd hx hpc
    · rw [hflag] at hx
      exact Bool.noConfusion hx

/-- A move of the poll that changes neither flag and leaves a poll on its
way if there was one. -/
theorem TxQueue.WakeInv.poll_moves (h : q.WakeInv) (dirty : U32)
    (pc : PollPc)
    (hfound : pc = .avail ∨ pc = .clear → q.queueStopped = true)
    (hwake : q.poll ≠ .wake) (hpc : pc ≠ .wake)
    (hlate : q.xmit = .stop ∨ q.xmit = .setStopped
      ∨ q.queueStopped = true → q.cur = dirty → pc.WillWake) :
    ({ q with dirty := dirty, poll := pc } : TxQueue).WakeInv where
  flag := h.flag
  running := h.running
  pending := h.pending
  found := hfound
  waking hp := absurd hp hpc
  told hx hn := by
    rcases h.told hx hn with hf | hp
    · exact Or.inl hf
    · exact absurd hp hwake
  late := hlate

theorem TxQueue.WakeInv.call (h : q.WakeInv) (need : U32)
    (hnet : q.netStopped = false) :
    ({ q with xmit := .compare need } : TxQueue).WakeInv := by
  have hflag : q.queueStopped = false := by
    cases hf : q.queueStopped with
    | false => rfl
    | true =>
      have hstop := h.flag hf
      rw [hnet] at hstop
      exact hstop.symm
  exact h.xmit_moves q.cur _ hnet hflag (by simp) (by simp)

/-- A comparison has two outcomes; over an empty ring it finds enough. -/
theorem TxQueue.WakeInv.compared (h : q.WakeInv) (need : U32)
    (pc : XmitPc) (hidle : q.xmit ≠ .idle) (hset : q.xmit ≠ .setStopped)
    (hpc : pc ≠ .setStopped) (hpc' : pc ≠ .stop)
    (hneed : q.cur = q.dirty → need ≤ txDescCnt) :
    (if need > q.availDesc then { q with xmit := XmitPc.stop }
      else { q with xmit := pc } : TxQueue).WakeInv := by
  obtain ⟨hnet, hflag⟩ := h.flags_clear hidle hset
  by_cases hgt : need > q.availDesc
  · rw [if_pos hgt]
    refine h.xmit_moves q.cur _ hnet hflag (by simp) fun _ heq => ?_
    rw [availDesc_empty heq] at hgt
    exact absurd (hneed heq) (BitVec.not_le.2 hgt)
  · rw [if_neg hgt]
    exact h.xmit_moves q.cur _ hnet hflag hpc fun hx => absurd hx hpc'

theorem TxQueue.WakeInv.stop (h : q.WakeInv) (hx : q.xmit = .stop) :
    ({ q with netStopped := true, xmit := .setStopped } : TxQueue).WakeInv
    where
  flag _ := rfl
  running _ := Or.inr rfl
  pending _ := ⟨rfl, (h.flags_clear (by simp [hx]) (by simp [hx])).2⟩
  found := h.found
  waking hp := by
    have hidle := (h.waking hp).2.2
    rw [hx] at hidle
    exact XmitPc.noConfusion hidle
  told hidle _ := XmitPc.noConfusion hidle
  late _ heq := h.late (Or.inl hx) heq

theorem TxQueue.WakeInv.setStopped (h : q.WakeInv)
    (hx : q.xmit = .setStopped) :
    ({ q with queueStopped := true, xmit := .idle } : TxQueue).WakeInv
    where
  flag _ := (h.pending hx).1
  running _ := Or.inl rfl
  pending hset := XmitPc.noConfusion hset
  found _ := rfl
  waking hp := by
    have hidle := (h.waking hp).2.2
    rw [hx] at hidle
    exact XmitPc.noConfusion hidle
  told _ _ := Or.inl rfl
  late _ heq := h.late (Or.inr (Or.inl hx)) heq

/-- `mac_xmit` is not in progress while `queue_stopped` is set. -/
theorem TxQueue.WakeInv.idle_of_flag (h : q.WakeInv)
    (hf : q.queueStopped = true) : q.xmit = .idle := by
  rcases h.running (h.flag hf) with hx | hx
  · exact hx
  · have hclear := (h.pending hx).2
    rw [hf] at hclear
    exact Bool.noConfusion hclear

theorem TxQueue.WakeInv.clear (h : q.WakeInv) (hp : q.poll = .clear) :
    ({ q with queueStopped := false, poll := .wake } : TxQueue).WakeInv
    := by
  have hf := h.found (Or.inr hp)
  have hidle := h.idle_of_flag hf
  refine ⟨fun hff => Bool.noConfusion hff, h.running, fun hx => ?_,
    fun hpc => ?_, fun _ => ⟨h.flag hf, rfl, hidle⟩,
    fun _ _ => Or.inr rfl, fun hx _ => ?_⟩
  · exact ⟨(h.pending hx).1, rfl⟩
  · rcases hpc with hpc | hpc
    · exact PollPc.noConfusion hpc
    · exact PollPc.noConfusion hpc
  · rcases hx with hx | hx | hx
    · exact XmitPc.noConfusion (hidle.symm.trans hx)
    · exact XmitPc.noConfusion (hidle.symm.trans hx)
    · exact Bool.noConfusion hx

theorem TxQueue.WakeInv.wake (h : q.WakeInv) (hp : q.poll = .wake) :
    ({ q with netStopped := false, poll := .idle } : TxQueue).WakeInv
    := by
  obtain ⟨-, hf, hidle⟩ := h.waking hp
  refine ⟨fun hff => ?_, fun hn => Bool.noConfusion hn, fun hx => ?_,
    fun hpc => ?_, fun hpc => PollPc.noConfusion hpc,
    fun _ hn => Bool.noConfusion hn, fun hx _ => ?_⟩
  · exact absurd (hf.symm.trans hff) (by decide)
  · exact XmitPc.noConfusion (hidle.symm.trans hx)
  · rcases hpc with hpc | hpc
    · exact PollPc.noConfusion hpc
    · exact PollPc.noConfusion hpc
  · rcases hx with hx | hx | hx
    · exact XmitPc.noConfusion (hidle.symm.trans hx)
    · exact XmitPc.noConfusion (hidle.symm.trans hx)
    · exact absurd (hf.symm.trans hx) (by decide)

/-- A poll that has found nothing to wake is not needed. -/
theorem TxQueue.WakeInv.poll_idle (h : q.WakeInv) (hwake : q.poll ≠ .wake)
    (hlate : q.xmit = .stop ∨ q.xmit = .setStopped
      ∨ q.queueStopped = true → q.cur ≠ q.dirty) :
    ({ q with poll := .idle } : TxQueue).WakeInv := by
  refine h.poll_moves q.dirty .idle (fun hp => ?_) hwake (by simp)
    fun hx heq => absurd heq (hlate hx)
  rcases hp with hp | hp
  · exact PollPc.noConfusion hp
  · exact PollPc.noConfusion hp

/-- The first access of a poll: none was on its way, so none was
needed. -/
theorem TxQueue.WakeInv.begin_poll (h : q.WakeInv) (hp : q.poll = .idle) :
    ({ q with poll := .loop q.cur 0 } : TxQueue).WakeInv := by
  refine h.poll_moves q.dirty _ (by simp) (by simp [hp]) (by simp)
    fun hx heq => ?_
  have hwill := h.late hx heq
  rw [hp] at hwill
  exact hwill.elim

/-- The test finds the flag clear. -/
theorem TxQueue.WakeInv.test_clear (h : q.WakeInv) (hp : q.poll = .test)
    (hf : ¬ q.queueStopped = true)
    (hok : ¬ ((q.xmit = .stop ∨ q.xmit = .setStopped)
      ∧ q.cur = q.dirty)) :
    ({ q with poll := .idle } : TxQueue).WakeInv := by
  refine h.poll_idle (by simp [hp]) fun hx heq => ?_
  rcases hx with hx | hx | hx
  · exact hok ⟨Or.inl hx, heq⟩
  · exact hok ⟨Or.inr hx, heq⟩
  · exact hf hx

/-- Every access that meets the condition keeps the invariant. -/
theorem TxQueue.WakeInv.step {act : TxAct} (h : q.WakeInv)
    (hok : q.StepOk act) (hstep : q.step act = some q') : q'.WakeInv := by
  cases step_cases hstep with
  | call need hnet => exact h.call need hnet
  | compared hx =>
    exact h.compared _ .transmit (by simp [hx]) (by simp [hx]) (by simp)
      (by simp) (hok _ hx)
  | transmit used hx =>
    obtain ⟨hnet, hflag⟩ := h.flags_clear (by simp [hx]) (by simp [hx])
    exact h.xmit_moves _ _ hnet hflag (by simp) (by simp)
  | drop hx =>
    obtain ⟨hnet, hflag⟩ := h.flags_clear (by simp [hx]) (by simp [hx])
    exact h.xmit_moves q.cur _ hnet hflag (by simp) (by simp)
  | rechecked hx =>
    exact h.compared txMaxDescNr .idle (by simp [hx]) (by simp [hx])
      (by simp) (by simp) fun _ => by decide
  | stop hx => exact h.stop hx
  | setStopped hx => exact h.setStopped hx
  | poll hp => exact h.begin_poll hp
  | reclaim hp =>
    exact h.poll_moves _ _ (by simp) (by simp [hp]) (by simp)
      fun _ _ => Nat.succ_ne_zero _
  | leaveNone hp =>
    refine h.poll_idle (by simp [hp]) fun hx heq => ?_
    have hwill := h.late hx heq
    rw [hp] at hwill
    exact hwill rfl
  | leaveSome hp =>
    exact h.poll_moves q.dirty _ (by simp) (by simp [hp]) (by simp)
      fun _ _ => trivial
  | testSet hp hf =>
    exact h.poll_moves q.dirty _ (fun _ => hf) (by simp [hp]) (by simp)
      fun _ _ => trivial
  | testClear hp hf => exact h.test_clear hp hf hok
  | availMany hp =>
    exact h.poll_moves q.dirty _ (fun _ => h.found (Or.inl hp))
      (by simp [hp]) (by simp) fun _ _ => trivial
  | availFew hp hfew =>
    refine h.poll_idle (by simp [hp]) fun _ heq => ?_
    rw [availDesc_empty heq] at hfew
    exact hfew (by decide)
  | clear hp => exact h.clear hp
  | wake hp => exact h.wake hp

/-- With both functions done the invariant leaves no queue behind. -/
theorem TxQueue.WakeInv.settled (h : q.WakeInv) : q.Settled := by
  rintro ⟨hx, hp⟩
  have htold : q.netStopped = true → q.queueStopped = true := by
    intro hn
    rcases h.told hx hn with hf | hwake
    · exact hf
    · rw [hp] at hwake
      exact PollPc.noConfusion hwake
  refine ⟨?_, h.flag, htold⟩
  rintro ⟨hn, heq⟩
  have hwill := h.late (Or.inr (Or.inr (htold hn))) heq
  rw [hp] at hwill
  exact hwill

/-- The condition leaves out only what goes wrong: after a test at such a
time `mac_xmit` stops the queue for good. -/
theorem late_test_loses (h : q.WakeInv) (hp : q.poll = .test)
    (hx : q.xmit = .stop) (heq : q.cur = q.dirty) :
    ∃ q', Run.tryExec TxQueue.step q [.test, .stop, .setStopped]
        = some q' ∧ ¬ q'.Settled := by
  have hf := (h.flags_clear (by simp [hx]) (by simp [hx])).2
  refine ⟨{ q with
    queueStopped := true
    netStopped := true
    xmit := .idle
    poll := .idle }, ?_, fun hset => ?_⟩
  · simp [Run.tryExec, TxQueue.step, hp, hx, hf]
  · exact (hset ⟨rfl, rfl⟩).1 ⟨rfl, heq⟩

end Steps

-- ============================================================== wake-ups

/-- In every run whose accesses meet the condition, a stopped queue over
an empty ring is still being woken. -/
theorem no_lost_wake_up {q : TxQueue}
    (h : Run.Reach (fun q => q = TxQueue.started) TxQueue.step
      TxQueue.StepOk q) : q.Settled := by
  have hinv : q.WakeInv := by
    refine h.inv (fun s hs => ?_) fun s act s' hs hok hstep => ?_
    · rw [hs]
      exact TxQueue.WakeInv.started
    · exact hs.step hok hstep
  exact hinv.settled

/-- A packet that takes every descriptor stops the queue, to be woken
when they are back. -/
theorem stopped_while_in_flight :
    (⟨4096, 0, true, true, .idle, .idle⟩ : TxQueue).Settled := by
  have hstart : Run.Reach (fun q => q = TxQueue.started) TxQueue.step
      TxQueue.StepOk TxQueue.started := .start rfl
  have hcall := hstart.next (i := TxAct.call 4096) trivial rfl
  have hcompare := hcall.next (i := TxAct.compare) (fun need hx _ => by
    cases hx
    decide) rfl
  have hsent := hcompare.next (i := TxAct.transmit 4096) trivial rfl
  have hrecheck := hsent.next (i := TxAct.recheck) trivial rfl
  have hstop := hrecheck.next (i := TxAct.stop) trivial rfl
  have hset := hstop.next (i := TxAct.setStopped) trivial rfl
  exact no_lost_wake_up hset

/-- A packet of the greatest size and the look at the ring after it. -/
def sendGreatest : List TxAct :=
  [.call txMaxDescNr, .compare, .transmit txMaxDescNr, .recheck]

/-- A poll that reclaims `n` descriptors and tests. -/
def pollAll (n : Nat) : List TxAct :=
  [.poll] ++ List.replicate n .reclaim ++ [.leave, .test]

/-- After 170 such packets there are too few descriptors left for
another; before the queue is stopped the NIC is done with all of them
and two polls have reclaimed them. -/
def lostRun : List TxAct :=
  (List.replicate 170 sendGreatest).flatten ++ pollAll 2048
    ++ pollAll 2032 ++ [.stop, .setStopped]

/-- The queue is stopped over an empty ring, with nothing left that
would wake it. -/
theorem wake_up_lost :
    ∃ q, Run.Reach (fun q => q = TxQueue.started) TxQueue.step
        (fun _ _ => True) q
      ∧ ¬ q.Settled := by
  have hrun : Run.tryExec TxQueue.step TxQueue.started lostRun
      = some ⟨4080, 4080, true, true, .idle, .idle⟩ := by
    decide +kernel
  refine ⟨_, Run.Reach.of_tryExec (fun _ _ => trivial) (.start rfl) hrun,
    fun hset => ?_⟩
  exact (hset ⟨rfl, rfl⟩).1 ⟨rfl, rfl⟩

end BxRnic.Mac
