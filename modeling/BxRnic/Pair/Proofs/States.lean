/-
Whether the library's idea of a queue pair's state keeps up with the
driver's.

# Where it does not

- The driver moves to any state it is asked for; the library's table has
  no way out of RTS but to ERR, none to RESET but from ERR, and none to
  SQD or SQE at all. The result of the state machine is thrown away, so
  a transition it refuses leaves the library behind.
- A query feeds the state machine a state nobody filled in.
- A modify that fails has moved the driver's state; a later call that
  returns 0 without setting a state finds the two apart.

`CallOk` is the exact condition for one call; as every call is judged by
the states it meets, no invariant is needed to lift it to runs.
-/
import BxRnic.Pair.Model
import BxRnic.Lib.Run

namespace BxRnic

open Run
open User (allowed)

-- ========================================================= the property

/-- After a call that returned 0 the states correspond. -/
def QpPair.Agrees (s : QpPair) (c : QpCall) : Prop :=
  (s.call c).1 = 0 → (s.step c).Corresponds

-- ======================================================== the condition

/-- The condition on a call and the states it meets. A successful modify
that sets a state must set one the library is in already or can go to;
any other successful call must not move the library off the driver's
state, and must find it there or bring it there. -/
def CallOk (s : QpPair) : QpCall → Prop
  | .modify attr mask coreOk =>
      let target := getBxroceQpState attr.qpState
      coreOk = true → Kernel.paramsOk attr mask = true →
        if mask.state then
          target = s.user.qpState ∨ allowed s.user.qpState target = true
        else s.user.qpState = s.kernel.qpState
  | .query coreOk attrState =>
      let found := getBxroceQpState attrState
      coreOk = true →
        if allowed s.user.qpState found then found = s.kernel.qpState
        else s.user.qpState = s.kernel.qpState

-- ============================================================= one call

/-- The gates test the same states on both sides. -/
theorem QpPair.corresponds_iff (s : QpPair) :
    s.Corresponds ↔ s.user.qpState = s.kernel.qpState := by
  constructor
  · exact fun h => h.state
  · intro h
    exact ⟨h, by rw [h]; rfl, by rw [h]; rfl⟩

/-- A modify: the status, and both states. -/
private theorem modify_spec (s : QpPair) (attr : Kernel.QpAttr)
    (mask : Kernel.AttrMask) (hparams : Kernel.paramsOk attr mask = true) :
    (s.call (.modify attr mask true)).1 = 0
      ∧ (s.step (.modify attr mask true)).user.qpState
        = (if mask.state ∧ allowed s.user.qpState
              (getBxroceQpState attr.qpState) then
            getBxroceQpState attr.qpState
          else s.user.qpState)
      ∧ (s.step (.modify attr mask true)).kernel.qpState
        = if mask.state then getBxroceQpState attr.qpState
          else s.kernel.qpState := by
  obtain ⟨hstatus, hstate⟩ := Kernel.modifyQp_spec s.kernel attr mask
  rw [if_pos hparams] at hstatus
  unfold QpPair.step QpPair.call ibvCmdModifyQp User.modifyQp
  simp only [hstatus, if_true, neg_zero, true_and]
  refine ⟨?_, hstate⟩
  cases hmask : mask.state with
  | false => simp
  | true => simp [User.qpStateMachine_state]

/-- A modify that is refused by the core or the driver. -/
private theorem modify_refused (s : QpPair) (attr : Kernel.QpAttr)
    (mask : Kernel.AttrMask) (coreOk : Bool)
    (h : ¬ (coreOk = true ∧ Kernel.paramsOk attr mask = true)) :
    (s.call (.modify attr mask coreOk)).1 ≠ 0 := by
  obtain ⟨hstatus, -⟩ := Kernel.modifyQp_spec s.kernel attr mask
  unfold QpPair.call ibvCmdModifyQp User.modifyQp
  cases coreOk with
  | false => simp [EINVAL]
  | true =>
      have hparams : ¬ Kernel.paramsOk attr mask = true :=
        fun hp => h ⟨rfl, hp⟩
      rw [if_neg hparams] at hstatus
      simp [hstatus, EINVAL]

/-- The step lemma: a call leaves the states in agreement exactly when
it meets `CallOk`. -/
theorem agrees_iff_callOk (s : QpPair) (c : QpCall) :
    s.Agrees c ↔ CallOk s c := by
  unfold QpPair.Agrees
  rw [QpPair.corresponds_iff]
  cases c with
  | modify attr mask coreOk =>
      by_cases hok : coreOk = true ∧ Kernel.paramsOk attr mask = true
      · obtain ⟨rfl, hparams⟩ := hok
        obtain ⟨hstatus, huser, hkernel⟩ := modify_spec s attr mask hparams
        rw [hstatus, huser, hkernel]
        simp only [CallOk, hparams, forall_const]
        cases hmask : mask.state with
        | false => simp
        | true =>
            by_cases hallowed : allowed s.user.qpState
                (getBxroceQpState attr.qpState) = true
            · simp [hallowed]
            · simp [hallowed, eq_comm]
      · refine iff_of_true (fun h => ?_) fun hcore hparams => ?_
        · exact absurd h (modify_refused s attr mask coreOk hok)
        · exact absurd ⟨hcore, hparams⟩ hok
  | query coreOk attrState =>
      unfold QpPair.step QpPair.call ibvCmdQueryQp User.queryQp CallOk
        Kernel.queryQp
      cases coreOk with
      | false => simp [EINVAL]
      | true =>
          simp only [if_true, neg_zero, forall_const,
            User.qpStateMachine_state]
          split <;> rfl

-- ================================================================= runs

/-- In a run of modify and query calls, from any pair of states, every
call that returns 0 leaves the states in agreement iff every call meets
`CallOk` where it is made. -/
theorem states_agree_iff (s : QpPair) (calls : List QpCall) :
    Each QpPair.step QpPair.Agrees s calls
      ↔ Each QpPair.step CallOk s calls :=
  each_congr agrees_iff_callOk

/-- A new queue pair is brought up to RTS and then reset: the driver is
in RESET, the library still in RTS, and still takes sends. -/
theorem reset_leaves_library_in_rts :
    let attr (state : IbQpState) : Kernel.QpAttr :=
      { qpState := state, pkeyIndex := 0, qkey := 0, destQpNum := 3,
        av := ⟨true, 0, Vector.replicate 6 0, none⟩, pathMtu := 3,
        sqPsn := 0, rqPsn := 0 }
    let mask : Kernel.AttrMask :=
      ⟨true, false, false, false, false, false, false, false⟩
    let page := User.QpChangeInfo.initial 0
    let hwq : Kernel.HwqInfo := ⟨4, 0, 0, 256, 255, .empty⟩
    let kernel : Kernel.Qp :=
      { id := 2, qpType := .rc, qpState := .rst, sq := hwq, rq := hwq,
        sqVa := fun _ => .zero, rqVa := fun _ => .zero,
        wqeWrIdTbl := fun _ => ⟨0, false⟩, rqeWrIdTbl := fun _ => 0,
        overhead := false, attr := page, initSqpsn := 0, initRqpsn := 0,
        page := page }
    let user := User.createQp
      { qpId := 2, qpType := .rc, numWqeAllocated := 256,
        numRqeAllocated := 256, maxSendSge := 4, maxRecvSge := 4,
        sqSigAll := 0, sqVa := fun _ => .zero, rqVa := fun _ => .zero,
        addrtbl := ⟨0, 0, 0⟩, numWqe_pos := by decide,
        numRqe_pos := by decide }
    let calls := [IbQpState.init, .rtr, .rts, .reset].map
      fun state => QpCall.modify (attr state) mask true
    let s := exec QpPair.step ⟨user, kernel⟩ calls
    s.kernel.qpState = .rst ∧ s.user.qpState = .rts
      ∧ ¬ Each QpPair.step QpPair.Agrees ⟨user, kernel⟩ calls := by
  intro attr mask page hwq kernel user calls s
  refine ⟨by decide +kernel, by decide +kernel, fun h => ?_⟩
  have hagree := (h.2.2.2.1 (by decide +kernel)).state
  exact absurd hagree (by decide +kernel)

end BxRnic
