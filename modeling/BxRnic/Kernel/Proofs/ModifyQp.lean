/-
`bxroce_modify_qp` as a transaction: whether a call that succeeds was
allowed, and whether a call that fails left the queue pair alone.

`ib_modify_qp_is_ok` belongs to the verbs core and is a parameter,
together with the bits of the mask that the driver does not keep
(`others`). The driver prints what it says and goes on.

What a call leaves does not depend on whether it succeeds
(`soft_modifyQp`): the state, the keys and the numbers are stored before
the address vector and the path MTU are looked at. So a failed call left
the queue pair alone only if it asked for what was there.
-/
import BxRnic.Kernel.Proofs.Queues

namespace BxRnic.Kernel

-- ======================================================= the software state

/-- What a queue pair remembers of its attributes. -/
structure SoftState where
  qpState : QpState
  sgidIdx : Int
  destqp : U32
  dgid : Vector U8 16
  macAddr : Vector U8 6
  qkey : U32
  pkeyIndex : U32

/-- The software state of a queue pair. -/
def Qp.soft (qp : Qp) : SoftState where
  qpState := qp.qpState
  sgidIdx := qp.attr.sgidIdx
  destqp := qp.attr.destqp
  dgid := qp.attr.dgid
  macAddr := qp.attr.macAddr
  qkey := qp.attr.qkey
  pkeyIndex := qp.attr.pkeyIndex

/-- The destination gid an address vector asks for. -/
def AvAttr.dgid (av : AvAttr) (old : Vector U8 16) : Vector U8 16 :=
  match av.ipv4 with
  | none => old
  | some (desip4, _) => setFirstFour old desip4

/-- The software state a call asks for, over the one there is. An address
vector without a GRH is not taken. -/
def SoftState.asked (s : SoftState) (attr : QpAttr) (mask : AttrMask) :
    SoftState :=
  let takesAv := mask.av && attr.av.grh
  { qpState :=
      if mask.state then getBxroceQpState attr.qpState else s.qpState
    sgidIdx := if takesAv then attr.av.sgidIndex else s.sgidIdx
    destqp := if mask.destQpn then attr.destQpNum else s.destqp
    dgid := if takesAv then attr.av.dgid s.dgid else s.dgid
    macAddr := if takesAv then attr.av.dmac else s.macAddr
    qkey := if mask.qkey then attr.qkey else s.qkey
    pkeyIndex := if mask.pkeyIndex then attr.pkeyIndex else s.pkeyIndex }

-- ============================================================= the property

/-- `get_ibqp_state` -/
def getIbqpState : QpState → IbQpState
  | .rst => .reset
  | .init => .init
  | .rtr => .rtr
  | .rts => .rts
  | .sqd => .sqd
  | .sqDraining => .sqd
  | .sqe => .sqe
  | .err => .err

/-- `ib_modify_qp_is_ok`: the two states, the type and the mask, of which
the last argument is what the driver does not read. -/
abbrev ModifyIsOk :=
  IbQpState → IbQpState → QpType → AttrMask → U32 → Bool

/-- What the driver asks the core, and the core's answer. -/
def coreAccepts (isOk : ModifyIsOk) (qp : Qp) (attr : QpAttr)
    (mask : AttrMask) (others : U32) : Bool :=
  let curState := getIbqpState qp.qpState
  let newState := if mask.state then attr.qpState else curState
  isOk curState newState qp.qpType mask others

/-- A call that succeeds was allowed, and did what it was asked to; one
that fails left the software state. -/
structure ModifyRight (isOk : ModifyIsOk) (qp : Qp) (attr : QpAttr)
    (mask : AttrMask) (others : U32) : Prop where
  allowed : (modifyQp qp attr mask).1 = 0 →
    coreAccepts isOk qp attr mask others = true
  applied : (modifyQp qp attr mask).1 = 0 →
    paramsOk attr mask = true
      ∧ (modifyQp qp attr mask).2.soft = qp.soft.asked attr mask
  atomic : (modifyQp qp attr mask).1 ≠ 0 →
    (modifyQp qp attr mask).2.soft = qp.soft

/-- The core accepts what the driver can apply; what it cannot apply asks
for nothing new. -/
def ModifyOk (isOk : ModifyIsOk) (qp : Qp) (attr : QpAttr)
    (mask : AttrMask) (others : U32) : Prop :=
  if paramsOk attr mask then coreAccepts isOk qp attr mask others = true
  else qp.soft.asked attr mask = qp.soft

-- ============================================================ what it leaves

/-- The state comes first, and moves whatever follows. -/
private theorem soft_stateChange (qp : Qp) (newIbState : IbQpState) :
    (qpStateChange qp newIbState).2.soft
      = { qp.soft with qpState := getBxroceQpState newIbState } := by
  unfold qpStateChange
  by_cases hsame : getBxroceQpState newIbState = qp.qpState
  · simp [hsame, Qp.soft]
  · simp only [hsame, if_false]
    split
    · rfl
    · rfl

/-- The attributes come next, up to the one that is refused. -/
private theorem soft_setQpParams (qp : Qp) (attr : QpAttr)
    (mask : AttrMask) :
    (setQpParams qp attr mask).2.soft
      = { qp.soft.asked attr mask with qpState := qp.qpState } := by
  unfold setQpParams setAvParams setPlainParams Qp.setAttr setPsns
  unfold SoftState.asked AvAttr.dgid AvAttr.into
  cases mask.pkeyIndex <;> cases mask.qkey <;> cases mask.destQpn
  all_goals
    cases mask.av with
    | false => rfl
    | true =>
        cases attr.av.grh with
        | false => rfl
        | true =>
            cases attr.av.ipv4 with
            | none => rfl
            | some ips => rfl

/-- What a call leaves, whatever it returns. -/
theorem soft_modifyQp (qp : Qp) (attr : QpAttr) (mask : AttrMask) :
    (modifyQp qp attr mask).2.soft = qp.soft.asked attr mask := by
  unfold modifyQp modifyQpInner
  cases hstate : mask.state with
  | false =>
      simp only [Bool.false_eq_true, if_false, Int.lt_irrefl]
      rw [soft_setQpParams]
      simp [SoftState.asked, hstate, Qp.soft]
  | true =>
      have hnonneg : ¬ (qpStateChange qp attr.qpState).1 < 0 := by
        unfold qpStateChange
        dsimp only
        split
        · show ¬ (1 : Int) < 0
          decide
        · show ¬ (0 : Int) < 0
          decide
      simp only [if_true, if_neg hnonneg]
      rw [soft_setQpParams, soft_stateChange, qpStateChange_state]
      simp [SoftState.asked, hstate]

-- ================================================================ the theorem

/-- For every queue pair, mask and attributes, and whatever the core
accepts: a call is a transaction exactly under the condition. -/
theorem modify_right_iff (isOk : ModifyIsOk) (qp : Qp) (attr : QpAttr)
    (mask : AttrMask) (others : U32) :
    ModifyRight isOk qp attr mask others
      ↔ ModifyOk isOk qp attr mask others := by
  have hstatus := (modifyQp_spec qp attr mask).1
  have hsoft := soft_modifyQp qp attr mask
  have hnz : -EINVAL ≠ 0 := by decide
  unfold ModifyOk
  cases hok : paramsOk attr mask with
  | true =>
      rw [hok, if_pos rfl] at hstatus
      rw [if_pos rfl]
      constructor
      · intro h
        exact h.allowed hstatus
      · intro h
        exact ⟨fun _ => h, fun _ => ⟨hok, hsoft⟩,
          fun hne => absurd hstatus hne⟩
  | false =>
      have hfails : (modifyQp qp attr mask).1 ≠ 0 := by
        rw [hstatus, hok]
        exact hnz
      rw [if_neg Bool.false_ne_true]
      constructor
      · intro h
        rw [← hsoft]
        exact h.atomic hfails
      · intro h
        refine ⟨fun h0 => absurd h0 hfails, fun h0 => absurd h0 hfails,
          fun _ => ?_⟩
        rw [hsoft, h]

-- ============================================================= a failed call

/-- A path MTU of 256 bytes, on the way to INIT. -/
def smallMtu : QpAttr where
  qpState := .init
  pkeyIndex := 3
  qkey := 0
  destQpNum := 0
  av := ⟨false, 0, .replicate 6 0, none⟩
  pathMtu := 1
  sqPsn := 0
  rqPsn := 0

/-- The state, the key index and the path MTU. -/
def smallMtuMask : AttrMask :=
  ⟨true, true, false, false, false, true, false, false⟩

/-- The call is refused for its MTU, and the queue pair is in INIT. -/
theorem failed_modify_moves_state :
    (modifyQp sampleQp smallMtu smallMtuMask).1 = -EINVAL
      ∧ sampleQp.soft.qpState = .rst
      ∧ (modifyQp sampleQp smallMtu smallMtuMask).2.soft.qpState = .init
      ∧ ¬ ModifyRight (fun _ _ _ _ _ => true) sampleQp smallMtu
          smallMtuMask 0 := by
  have hstate : (modifyQp sampleQp smallMtu smallMtuMask).2.soft.qpState
      = .init := by
    decide
  refine ⟨by decide, rfl, hstate, fun h => ?_⟩
  have hsame := congrArg SoftState.qpState (h.atomic (by decide))
  rw [hstate] at hsame
  exact absurd hsame (by decide)

end BxRnic.Kernel
