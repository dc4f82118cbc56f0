/-
Filling in one work queue entry (libbxroce/bxroce_verbs.c): the two
`prepare` functions the send and the RDMA paths call for each entry they
build, and the table that remembers which request an entry belongs to.

Later proofs do not unfold the two: `Prepares` says what either does to
the queue pair, and `prepareWriteWqe_destaddr` what an RDMA entry
carries.
-/
import BxRnic.Header
import BxRnic.User.Qp
import Mathlib.Logic.Function.Basic

namespace BxRnic.User

-- ================================================================ header

/-- `bxroce_set_rcwqe_destqp` -/
def setRcwqeDestqp (qp : Qp) (wqe : Wqe) : Wqe :=
  packDestqp (qp.attr.destqp.setWidth 16) wqe

/-- `bxroce_set_wqe_destqp` -/
def setWqeDestqp (wr : SendWr) (wqe : Wqe) : Wqe :=
  packDestqp (wr.remoteQpn.setWidth 16) wqe

/-- `bxroce_set_wqe_opcode` -/
def setWqeOpcode (qpType opcode : U8) (wqe : Wqe) : Wqe :=
  packOpcode 0x50 qpType opcode wqe

/-- `bxroce_set_wqe_dmac` -/
def setWqeDmac (qp : Qp) (wqe : Wqe) : Wqe :=
  packDmac qp.attr.macAddr wqe

-- =============================================================== opcodes

/-- The transport a queue pair's type goes out as. -/
def transportCode : QpType → Option U8
  | .ud => some codeUD
  | .uc => some codeUC
  | .driver => some codeRD
  | .rc => some codeRC
  | .other => none

/-- The operation a request goes out as. A plain send goes out as one
with immediate data. -/
def operationCode : WrOpcode → Option U8
  | .send => some codeSendWithImm
  | .sendWithImm => some codeSendWithImm
  | .sendWithInv => some codeSendWithInv
  | .rdmaWrite => some codeRdmaWrite
  | .rdmaWriteWithImm => some codeWriteWithImm
  | .rdmaRead => some codeRdmaRead
  | .other => none

/-- The refusals of `bxroce_build_wqe_opcode`: no code, or one the
transport does not carry. -/
def opcodeRefused (qpType : QpType) (opcode : WrOpcode) : Bool :=
  match transportCode qpType, operationCode opcode with
  | some qpType, some opcode => codesRefused qpType opcode
  | _, _ => true

/-- `bxroce_build_wqe_opcode` -/
def buildWqeOpcode (qp : Qp) (wqe : Wqe) (wr : SendWr) : Int × Wqe :=
  match transportCode qp.qpType, operationCode wr.opcode with
  | some qpType, some opcode =>
      if codesRefused qpType opcode then (EINVAL, wqe)
      else (0, setWqeOpcode qpType opcode wqe)
  | _, _ => (EINVAL, wqe)

theorem buildWqeOpcode_status (qp : Qp) (wqe : Wqe) (wr : SendWr) :
    (buildWqeOpcode qp wqe wr).1
      = if opcodeRefused qp.qpType wr.opcode then EINVAL else 0 := by
  unfold buildWqeOpcode opcodeRefused
  cases transportCode qp.qpType with
  | none => rfl
  | some t =>
      cases operationCode wr.opcode with
      | none => rfl
      | some op =>
          simp only
          split <;> rfl

-- ======================================================= the id table

/-- A completion is owed for the request. -/
def SendWr.isSignaled (wr : SendWr) (qp : Qp) : Bool :=
  wr.sendSignaled || decide (qp.attr.signaled ≠ 0)

/-- The tail of both `prepare` functions: the entry at `sq.head` of the
id table, which polling reads. -/
def recordWrId (qp : Qp) (wr : SendWr) : Qp :=
  { qp with
    wqeWrIdTbl := Function.update qp.wqeWrIdTbl qp.sq.head
      ⟨wr.wrId, wr.isSignaled qp⟩ }

-- ========================================================== the prepares

/-- `bxroce_prepare_send_wqe`. The UD branch keeps the address handle's
MAC address in the queue pair; a missing handle is found only after the
opcode, number and key are in the entry. -/
def prepareSendWqe (qp : Qp) (tmpwqe : Wqe) (wr : SendWr) :
    Int × Qp × Wqe :=
  let finish := fun (qp : Qp) (wqe : Wqe) =>
    let wqe :=
      if qp.attr.pkeyIndex ≠ 0 then
        { wqe with pkey := qp.attr.pkeyIndex.setWidth 16 }
      else wqe
    ((0 : Int), recordWrId qp wr,
      { wqe with llpinfoLo := llpinfo qp.attr.dgid, llpinfoHi := 0 })
  if qp.qpType = .ud then
    let (status, wqe) := buildWqeOpcode qp tmpwqe wr
    if status ≠ 0 then (status, qp, wqe)
    else
      let wqe := { setWqeDestqp wr wqe with qkey := wr.remoteQkey }
      match wr.ah with
      | none => (EINVAL, qp, wqe)
      | some ah =>
          let qp := { qp with attr := { qp.attr with macAddr := ah.dmac } }
          finish qp (setWqeDmac qp wqe)
  else
    let wqe := { tmpwqe with qkey := qp.attr.qkey }
    let (status, wqe) := buildWqeOpcode qp wqe wr
    if status ≠ 0 then (status, qp, wqe)
    else
      let wqe := if qp.attr.destqp ≠ 0 then setRcwqeDestqp qp wqe else wqe
      finish qp (setWqeDmac qp wqe)

/-- `bxroce_prepare_write_wqe` -/
def prepareWriteWqe (qp : Qp) (tmpwqe : Wqe) (wr : SendWr) :
    Int × Qp × Wqe :=
  let (status, wqe) := buildWqeOpcode qp tmpwqe wr
  if status ≠ 0 then (EINVAL, qp, wqe)
  else
    let wqe := if qp.attr.destqp ≠ 0 then setRcwqeDestqp qp wqe else wqe
    let wqe := setWqeDmac qp wqe
    (0, recordWrId qp wr,
      { wqe with
        rkey := wr.rkey
        destaddr := qp.rdmaAddr
        qkey := qp.attr.qkey
        pkey := qp.attr.pkeyIndex.setWidth 16
        llpinfoLo := llpinfo qp.attr.dgid
        llpinfoHi := 0 })

-- ======================================================= what they do

/-- The requests `bxroce_prepare_send_wqe` fails on. -/
def sendRefused (qpType : QpType) (wr : SendWr) : Bool :=
  opcodeRefused qpType wr.opcode
    || decide (qpType = .ud) && wr.ah.isNone

/-- The requests `bxroce_prepare_write_wqe` fails on. -/
def writeRefused (qpType : QpType) (wr : SendWr) : Bool :=
  opcodeRefused qpType wr.opcode

/-- What a `prepare` function does to the queue pair: it fails and
leaves it, or it records the request, perhaps with a new MAC address. -/
structure Prepares (refused : QpType → SendWr → Bool)
    (prepare : Qp → Wqe → SendWr → Int × Qp × Wqe) : Prop where
  fails : ∀ (qp : Qp) (wqe : Wqe) (wr : SendWr),
    refused qp.qpType wr = true →
    (prepare qp wqe wr).1 = EINVAL ∧ (prepare qp wqe wr).2.1 = qp
  records : ∀ (qp : Qp) (wqe : Wqe) (wr : SendWr),
    refused qp.qpType wr = false →
    (prepare qp wqe wr).1 = 0 ∧ ∃ mac : Vector U8 6,
      (prepare qp wqe wr).2.1
        = recordWrId
            { qp with attr := { qp.attr with macAddr := mac } } wr

/-- Neither the rings nor the type of the queue pair. -/
theorem Prepares.frame {refused : QpType → SendWr → Bool}
    {prepare : Qp → Wqe → SendWr → Int × Qp × Wqe}
    (hp : Prepares refused prepare) (qp : Qp) (wqe : Wqe) (wr : SendWr) :
    (prepare qp wqe wr).2.1.sq = qp.sq
      ∧ (prepare qp wqe wr).2.1.sqVa = qp.sqVa
      ∧ (prepare qp wqe wr).2.1.qpType = qp.qpType := by
  cases hr : refused qp.qpType wr with
  | true =>
      rw [(hp.fails qp wqe wr hr).2]
      exact ⟨rfl, rfl, rfl⟩
  | false =>
      obtain ⟨-, mac, hqp⟩ := hp.records qp wqe wr hr
      rw [hqp]
      exact ⟨rfl, rfl, rfl⟩

theorem prepareSendWqe_prepares :
    Prepares sendRefused prepareSendWqe where
  fails := fun qp wqe wr h => by
    unfold sendRefused at h
    unfold prepareSendWqe
    by_cases hud : qp.qpType = .ud
    · have hstatus := buildWqeOpcode_status qp wqe wr
      rw [if_pos hud]
      cases hop : opcodeRefused qp.qpType wr.opcode with
      | true =>
          rw [if_pos hop] at hstatus
          simp [hstatus, EINVAL]
      | false =>
          rw [if_neg (by simp [hop])] at hstatus
          have hah : wr.ah = none := by
            rw [hop] at h
            simpa [hud] using h
          simp [hstatus, hah]
    · have hstatus :=
        buildWqeOpcode_status qp { wqe with qkey := qp.attr.qkey } wr
      have hop : opcodeRefused qp.qpType wr.opcode = true := by
        simpa [hud] using h
      rw [if_pos hop] at hstatus
      rw [if_neg hud]
      simp [hstatus, EINVAL]
  records := fun qp wqe wr h => by
    unfold sendRefused at h
    unfold prepareSendWqe
    have hop : opcodeRefused qp.qpType wr.opcode = false := by
      cases hr : opcodeRefused qp.qpType wr.opcode with
      | true => simp [hr] at h
      | false => rfl
    by_cases hud : qp.qpType = .ud
    · have hstatus := buildWqeOpcode_status qp wqe wr
      rw [if_neg (by simp [hop])] at hstatus
      rw [if_pos hud]
      cases hah : wr.ah with
      | none => simp [hud, hah] at h
      | some ah =>
          simp only [hstatus]
          exact ⟨rfl, ah.dmac, rfl⟩
    · have hstatus :=
        buildWqeOpcode_status qp { wqe with qkey := qp.attr.qkey } wr
      rw [if_neg (by simp [hop])] at hstatus
      rw [if_neg hud]
      simp only [hstatus]
      exact ⟨rfl, qp.attr.macAddr, rfl⟩

theorem prepareWriteWqe_prepares :
    Prepares writeRefused prepareWriteWqe where
  fails := fun qp wqe wr h => by
    have hstatus := buildWqeOpcode_status qp wqe wr
    rw [writeRefused] at h
    rw [if_pos h] at hstatus
    unfold prepareWriteWqe
    simp [hstatus, EINVAL]
  records := fun qp wqe wr h => by
    have hstatus := buildWqeOpcode_status qp wqe wr
    rw [writeRefused] at h
    rw [if_neg (by simp [h])] at hstatus
    unfold prepareWriteWqe
    simp only [hstatus]
    exact ⟨rfl, qp.attr.macAddr, rfl⟩

/-- A `prepare` function leaves the body of the entry as it found it. -/
def KeepsBody (prepare : Qp → Wqe → SendWr → Int × Qp × Wqe) : Prop :=
  ∀ (qp : Qp) (wqe : Wqe) (wr : SendWr),
    (prepare qp wqe wr).2.2.body = wqe.body

theorem buildWqeOpcode_body (qp : Qp) (wqe : Wqe) (wr : SendWr) :
    (buildWqeOpcode qp wqe wr).2.body = wqe.body := by
  unfold buildWqeOpcode
  split
  · split
    · rfl
    · rfl
  · rfl

theorem prepareSendWqe_keepsBody : KeepsBody prepareSendWqe := by
  intro qp wqe wr
  have hpkey : ∀ (qp : Qp) (wqe : Wqe),
      (if qp.attr.pkeyIndex ≠ 0 then
        { wqe with pkey := qp.attr.pkeyIndex.setWidth 16 }
        else wqe).body = wqe.body := by
    intro qp wqe
    split
    · rfl
    · rfl
  have hdestqp : ∀ wqe : Wqe,
      (if qp.attr.destqp ≠ 0 then setRcwqeDestqp qp wqe
        else wqe).body = wqe.body := by
    intro wqe
    split
    · rfl
    · rfl
  unfold prepareSendWqe
  split
  · have hbody := buildWqeOpcode_body qp wqe wr
    dsimp only
    split
    · exact hbody
    · cases wr.ah with
      | none => exact hbody
      | some ah => exact (hpkey _ _).trans hbody
  · have hbody := buildWqeOpcode_body qp { wqe with qkey := qp.attr.qkey } wr
    dsimp only
    split
    · exact hbody
    · refine (hpkey _ _).trans ?_
      exact (hdestqp _).trans hbody

theorem prepareWriteWqe_keepsBody : KeepsBody prepareWriteWqe := by
  intro qp wqe wr
  have hbody := buildWqeOpcode_body qp wqe wr
  have hdestqp : ∀ wqe : Wqe,
      (if qp.attr.destqp ≠ 0 then setRcwqeDestqp qp wqe
        else wqe).body = wqe.body := by
    intro wqe
    split
    · rfl
    · rfl
  unfold prepareWriteWqe
  dsimp only
  split
  · exact hbody
  · exact (hdestqp _).trans hbody

/-- An entry of the RDMA paths carries the translated address. -/
theorem prepareWriteWqe_destaddr {qp : Qp} {wqe : Wqe} {wr : SendWr}
    (h : (prepareWriteWqe qp wqe wr).1 = 0) :
    (prepareWriteWqe qp wqe wr).2.2.destaddr = qp.rdmaAddr := by
  unfold prepareWriteWqe at h ⊢
  by_cases hstatus : (buildWqeOpcode qp wqe wr).1 = 0
  · simp [hstatus]
  · simp [hstatus, EINVAL] at h

end BxRnic.User
