/-
Filling in one work queue entry in the driver (bx_roce_driver/
bxroce_verbs.c). The routines are close to the library's; they differ in
the constant of the opcode byte, in the types they know, in the order of
the UD branch, and in that a plain send goes out as one.
-/
import BxRnic.Kernel.Qp
import Mathlib.Logic.Function.Basic

namespace BxRnic.Kernel

-- ================================================================ header

/-- `bxroce_set_rcwqe_destqp` -/
def setRcwqeDestqp (qp : Qp) (wqe : Wqe) : Wqe :=
  packDestqp (qp.attr.destqp.setWidth 16) wqe

/-- `bxroce_set_wqe_destqp` -/
def setWqeDestqp (wr : SendWr) (wqe : Wqe) : Wqe :=
  packDestqp (wr.remoteQpn.setWidth 16) wqe

/-- `bxroce_set_wqe_opcode` -/
def setWqeOpcode (qpType opcode : U8) (wqe : Wqe) : Wqe :=
  packOpcode 0x10 qpType opcode wqe

/-- `bxroce_set_wqe_dmac` -/
def setWqeDmac (qp : Qp) (wqe : Wqe) : Wqe :=
  packDmac qp.attr.macAddr wqe

-- =============================================================== opcodes

/-- The transport a queue pair's type goes out as; a GSI queue pair has
none. -/
def transportCode : QpType → Option U8
  | .ud => some codeUD
  | .uc => some codeUC
  | .reserved2 => some codeRD
  | .rc => some codeRC
  | .gsi => none
  | .other => none

/-- The operation a request goes out as. -/
def operationCode : WrOpcode → Option U8
  | .send => some codeSend
  | .sendWithImm => some codeSendWithImm
  | .sendWithInv => some codeSendWithInv
  | .rdmaWrite => some codeRdmaWrite
  | .rdmaWriteWithImm => some codeWriteWithImm
  | .rdmaRead => some codeRdmaRead
  | _ => none

/-- `bxroce_build_wqe_opcode` -/
def buildWqeOpcode (qp : Qp) (wqe : Wqe) (wr : SendWr) : Int × Wqe :=
  match transportCode qp.qpType, operationCode wr.opcode with
  | some qpType, some opcode =>
      if codesRefused qpType opcode then (-EINVAL, wqe)
      else (0, setWqeOpcode qpType opcode wqe)
  | _, _ => (-EINVAL, wqe)

-- ========================================================== the prepares

/-- The tail of both `prepare` functions. -/
def recordWrId (qp : Qp) (wr : SendWr) : Qp :=
  { qp with
    wqeWrIdTbl := Function.update qp.wqeWrIdTbl qp.sq.head
      ⟨wr.wrId, wr.sendSignaled || decide (qp.attr.signaled ≠ 0)⟩ }

/-- `bxroce_prepare_send_wqe` -/
def prepareSendWqe (qp : Qp) (tmpwqe : Wqe) (wr : SendWr) :
    Int × Qp × Wqe :=
  let wqe :=
    if qp.qpType = .ud ∨ qp.qpType = .gsi then
      { setWqeDestqp wr tmpwqe with
        qkey :=
          if qp.qpType = .gsi then qp.attr.qkey else wr.remoteQkey }
    else { tmpwqe with qkey := qp.attr.qkey }
  let (status, wqe) := buildWqeOpcode qp wqe wr
  if status ≠ 0 then (status, qp, wqe)
  else
    let wqe := if qp.attr.destqp ≠ 0 then setRcwqeDestqp qp wqe else wqe
    let wqe := setWqeDmac qp wqe
    (0, recordWrId qp wr,
      { wqe with
        pkey := qp.attr.pkeyIndex.setWidth 16
        llpinfoLo := llpinfo qp.attr.dgid
        llpinfoHi := 0 })

/-- `bxroce_prepare_write_wqe` -/
def prepareWriteWqe (qp : Qp) (tmpwqe : Wqe) (wr : SendWr) :
    Int × Qp × Wqe :=
  let (status, wqe) := buildWqeOpcode qp tmpwqe wr
  if status ≠ 0 then (-EINVAL, qp, wqe)
  else
    let wqe := if qp.attr.destqp ≠ 0 then setRcwqeDestqp qp wqe else wqe
    let wqe := setWqeDmac qp wqe
    (0, recordWrId qp wr,
      { wqe with
        rkey := wr.rkey
        destaddr := wr.remoteAddr
        qkey := qp.attr.qkey
        pkey := qp.attr.pkeyIndex.setWidth 16
        llpinfoLo := llpinfo qp.attr.dgid
        llpinfoHi := 0 })

-- ======================================================= what they leave

/-- A `prepare` function touches nothing of the queue pair but the id
table. -/
def TouchesIds (prepare : Qp → Wqe → SendWr → Int × Qp × Wqe) : Prop :=
  ∀ (qp : Qp) (wqe : Wqe) (wr : SendWr), ∃ tbl : Nat → WqeWrId,
    (prepare qp wqe wr).2.1 = { qp with wqeWrIdTbl := tbl }

theorem prepareSendWqe_touchesIds : TouchesIds prepareSendWqe := by
  intro qp wqe wr
  unfold prepareSendWqe
  -- the entry that goes in does not matter
  generalize (if qp.qpType = .ud ∨ qp.qpType = .gsi then _ else _ : Wqe)
    = wqe
  by_cases hstatus : (buildWqeOpcode qp wqe wr).1 = 0
  · simp only [hstatus, ne_eq, not_true_eq_false, if_false]
    exact ⟨_, rfl⟩
  · simp only [hstatus, ne_eq, not_false_eq_true, if_true]
    exact ⟨qp.wqeWrIdTbl, rfl⟩

theorem prepareWriteWqe_touchesIds : TouchesIds prepareWriteWqe := by
  intro qp wqe wr
  unfold prepareWriteWqe
  by_cases hstatus : (buildWqeOpcode qp wqe wr).1 = 0
  · simp only [hstatus, ne_eq, not_true_eq_false, if_false]
    exact ⟨_, rfl⟩
  · simp only [hstatus, ne_eq, not_false_eq_true, if_true]
    exact ⟨qp.wqeWrIdTbl, rfl⟩

end BxRnic.Kernel
