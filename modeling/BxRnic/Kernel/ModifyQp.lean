/-
`bxroce_modify_qp` and `bxroce_query_qp` of the kernel driver
(bx_roce_driver/bxroce_verbs.c and bxroce_hw.c).

# What is modelled

The software state: the queue pair's state, the pointers that entering
INIT resets, and the attributes with their copies in the page shared
with the library. The register writes that map source to destination
queue pair in RTR, and the printed messages, are left out.

`ib_modify_qp_is_ok` is called for its message only: the driver goes on
whatever it says, so it does not occur here.

Address handles arrive resolved: the network core's lookups of the MAC
address and of the IPv4 addresses behind the gids are in the attributes.
-/
import BxRnic.Kernel.Qp

namespace BxRnic.Kernel

-- =========================================================== attributes

/-- `ah_attr` of a modify call, resolved. -/
structure AvAttr where
  /-- `IB_AH_GRH` -/
  grh : Bool
  sgidIndex : Int
  /-- What `bxroce_resolve_dmac` leaves. -/
  dmac : Vector U8 6
  /-- The destination and source addresses, over IPv4. -/
  ipv4 : Option (Vector U8 4 × Vector U8 4)

/-- `struct ib_qp_attr`, as far as the driver keeps or checks it. -/
structure QpAttr where
  qpState : IbQpState
  pkeyIndex : U32
  qkey : U32
  destQpNum : U32
  av : AvAttr
  pathMtu : Nat
  sqPsn : U32
  rqPsn : U32

/-- The bits of `attr_mask` that go with them. -/
structure AttrMask where
  state : Bool
  pkeyIndex : Bool
  qkey : Bool
  destQpn : Bool
  av : Bool
  pathMtu : Bool
  sqPsn : Bool
  rqPsn : Bool
deriving DecidableEq

/-- `IB_MTU_512` -/
def ibMtu512 : Nat := 2

/-- `IB_MTU_4096` -/
def ibMtu4096 : Nat := 5

/-- The attributes an address vector brings, over those of `attr`. -/
def AvAttr.into (av : AvAttr) (attr : QpChangeInfo) : QpChangeInfo :=
  let attr := { attr with sgidIdx := av.sgidIndex, macAddr := av.dmac }
  match av.ipv4 with
  | none => attr
  | some (desip4, srcip4) =>
      { attr with
        dgid := setFirstFour attr.dgid desip4
        sgid := setFirstFour attr.sgid srcip4 }

/-- `bxroce_set_av_params`. The four bytes copied to the page are those
just stored in the queue pair. -/
def setAvParams (qp : Qp) (av : AvAttr) : Int × Qp :=
  if av.grh then
    (0, { qp with attr := av.into qp.attr, page := av.into qp.page })
  else (-EINVAL, qp)

/-- A field of the attributes, kept and reported when its bit is set. -/
def Qp.setAttr (qp : Qp) (bit : Bool)
    (set : QpChangeInfo → QpChangeInfo) : Qp :=
  if bit then { qp with attr := set qp.attr, page := set qp.page } else qp

/-- The attributes without conditions, up to the address vector. -/
def setPlainParams (qp : Qp) (attrs : QpAttr) (mask : AttrMask) : Qp :=
  ((qp.setAttr mask.pkeyIndex
      fun a => { a with pkeyIndex := attrs.pkeyIndex }).setAttr mask.qkey
      fun a => { a with qkey := attrs.qkey }).setAttr mask.destQpn
      fun a => { a with destqp := attrs.destQpNum }

/-- The sequence numbers, at the end of `bxroce_set_qp_params`. -/
def setPsns (qp : Qp) (attrs : QpAttr) (mask : AttrMask) : Qp :=
  { qp with
    initSqpsn := if mask.sqPsn then attrs.sqPsn else qp.initSqpsn
    initRqpsn := if mask.rqPsn then attrs.rqPsn else qp.initRqpsn }

/-- The path MTU is out of range. -/
def mtuRefused (attrs : QpAttr) (mask : AttrMask) : Bool :=
  mask.pathMtu
    && decide (attrs.pathMtu < ibMtu512 ∨ attrs.pathMtu > ibMtu4096)

/-- `bxroce_set_qp_params`. A refused MTU does not stop the sequence
numbers from being taken. -/
def setQpParams (qp : Qp) (attrs : QpAttr) (mask : AttrMask) : Int × Qp :=
  let qp := setPlainParams qp attrs mask
  let (status, qp) :=
    if mask.av then setAvParams qp attrs.av else (0, qp)
  if status ≠ 0 then (status, qp)
  else
    (if mtuRefused attrs mask then -EINVAL else 0, setPsns qp attrs mask)

-- ================================================================ states

/-- Both queues at their start. -/
def Qp.initPointers (qp : Qp) : Qp :=
  { qp with
    sq := { qp.sq with head := 0, tail := 0, qpFoe := .empty }
    rq := { qp.rq with head := 0, tail := 0, qpFoe := .empty } }

/-- `bxroce_qp_state_change`: any state may follow any other. -/
def qpStateChange (qp : Qp) (newIbState : IbQpState) : Int × Qp :=
  let newState := getBxroceQpState newIbState
  if newState = qp.qpState then (1, qp)
  else
    let qp := if newState = .init then qp.initPointers else qp
    (0, { qp with qpState := newState })

theorem qpStateChange_state (qp : Qp) (newIbState : IbQpState) :
    (qpStateChange qp newIbState).2.qpState
      = getBxroceQpState newIbState := by
  unfold qpStateChange
  by_cases hsame : getBxroceQpState newIbState = qp.qpState
  · simp [hsame]
  · simp [hsame]

-- ======================================================= modify and query

/-- `_bxroce_modify_qp`. The state has changed by the time the attributes
are refused. -/
def modifyQpInner (qp : Qp) (attr : QpAttr) (mask : AttrMask) :
    Int × Qp :=
  let (status, qp) :=
    if mask.state then qpStateChange qp attr.qpState else (0, qp)
  if status < 0 then (status, qp)
  else setQpParams qp attr mask

/-- `bxroce_modify_qp` -/
def modifyQp (qp : Qp) (attr : QpAttr) (mask : AttrMask) : Int × Qp :=
  let (status, qp) := modifyQpInner qp attr mask
  (if status > 0 then 0 else status, qp)

/-- `bxroce_query_qp`: success, without filling in an attribute. -/
def queryQp (_qp : Qp) : Int := 0

-- ========================================================== what they do

/-- The attributes are ones `bxroce_set_qp_params` takes. -/
def paramsOk (attr : QpAttr) (mask : AttrMask) : Bool :=
  (!mask.av || attr.av.grh) && !mtuRefused attr mask

/-- Neither the attributes nor the numbers enter the state. -/
private theorem setPlainParams_qpState (qp : Qp) (attr : QpAttr)
    (mask : AttrMask) :
    (setPlainParams qp attr mask).qpState = qp.qpState := by
  unfold setPlainParams Qp.setAttr
  split <;> split <;> split <;> rfl

theorem setQpParams_spec (qp : Qp) (attr : QpAttr) (mask : AttrMask) :
    (setQpParams qp attr mask).1 = (if paramsOk attr mask then 0 else -EINVAL)
      ∧ (setQpParams qp attr mask).2.qpState = qp.qpState := by
  have hplain := setPlainParams_qpState qp attr mask
  have hnz : -EINVAL ≠ 0 := by decide
  unfold setQpParams paramsOk setAvParams setPsns
  cases hav : mask.av with
  | false =>
      cases hmtu : mtuRefused attr mask with
      | false => exact ⟨rfl, hplain⟩
      | true => exact ⟨rfl, hplain⟩
  | true =>
      cases hgrh : attr.av.grh with
      | false => exact ⟨rfl, hplain⟩
      | true =>
          cases hmtu : mtuRefused attr mask with
          | false => exact ⟨rfl, hplain⟩
          | true => exact ⟨rfl, hplain⟩

/-- The spec of `bxroce_modify_qp`: its status depends on the attributes
alone, and the state moves when the mask says so, on failure too. -/
theorem modifyQp_spec (qp : Qp) (attr : QpAttr) (mask : AttrMask) :
    (modifyQp qp attr mask).1 = (if paramsOk attr mask then 0 else -EINVAL)
      ∧ (modifyQp qp attr mask).2.qpState
        = if mask.state then getBxroceQpState attr.qpState
          else qp.qpState := by
  unfold modifyQp modifyQpInner
  generalize hchange : (if mask.state = true then
    qpStateChange qp attr.qpState else (0, qp)) = change
  have hnonneg : ¬ change.1 < 0 := by
    rw [← hchange]
    unfold qpStateChange
    split
    · simp only
      split <;> simp
    · simp
  have hstate : change.2.qpState
      = if mask.state then getBxroceQpState attr.qpState
        else qp.qpState := by
    rw [← hchange]
    split
    · exact qpStateChange_state qp attr.qpState
    · rfl
  obtain ⟨hstatus, hparams⟩ := setQpParams_spec change.2 attr mask
  simp only [if_neg hnonneg]
  rw [hstatus, hparams, hstate]
  refine ⟨?_, rfl⟩
  split <;> simp [EINVAL]

end BxRnic.Kernel
