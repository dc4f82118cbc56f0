/-
`bxroce_post_send` of the driver (bx_roce_driver/bxroce_verbs.c), one
turn of its loop at a time, and the part in front of the loop.

Unlike the library's, the ring goes round: `overhead` notes that the
head has passed the end since the ring was last rung, and the doorbell
is then rung for the end first and for the head after that. What the
hardware has consumed is read once a call, before the loop
(`updateSqTail`); where the head is, is read back after each request
(`updateSqHead`).
-/
import BxRnic.Kernel.Wqe
import BxRnic.Lib.Doorbell
import BxRnic.Lib.Word

namespace BxRnic.Kernel

open Word

-- =============================================================== the room

/-- `bxroce_check_foe` -/
def checkFoe (numSge freeCnt : Nat) : Int :=
  if numSge > freeCnt then -ENOMEM else 0

/-- `bxroce_hwq_free_cnt`, which both rings use. -/
def hwqFreeCnt (q : HwqInfo) : Nat :=
  if q.head > q.tail then
    ((q.maxWqeIdx - q.head) + q.tail) % q.maxCnt
  else if q.head = q.tail then
    if q.qpFoe = .empty then q.maxCnt else 0
  else
    q.tail - q.head

/-- The second half of `bxroce_update_sq_tail` and of
`bxroce_update_rq_tail`: what the hardware has consumed, as it says. -/
def HwqInfo.setTail (q : HwqInfo) (tail : Nat) : HwqInfo :=
  { q with
    tail := tail
    qpFoe := if tail = q.head then .empty else q.qpFoe }

/-- `bxroce_update_sq_tail` -/
def updateSqTail (qp : Qp) (hw : Doorbell) : Qp :=
  { qp with sq := qp.sq.setTail (hw.rp qp.sq.maxCnt) }

-- ============================================================ the entries

/-- The entry at `sq.head` is rewritten. -/
def Qp.putWqe (qp : Qp) (wqe : Wqe) : Qp :=
  { qp with sqVa := Function.update qp.sqVa qp.sq.head wqe }

/-- `sq.head` moves on, and the end of the ring is noted. -/
def Qp.incSqHead (qp : Qp) : Qp :=
  { qp with
    overhead := qp.overhead || decide (qp.sq.head + 1 = qp.sq.maxCnt)
    sq := { qp.sq with head := (qp.sq.head + 1) % qp.sq.maxCnt } }

/-- The loop over `sg_list` in `bxroce_build_sges` and
`bxroce_buildwrite_sges`. -/
def buildSgesLoop (prepare : Qp → Wqe → SendWr → Int × Qp × Wqe)
    (wr : SendWr) : Qp → List Sge → Int × Qp
  | qp, [] => (0, qp)
  | qp, sge :: sgList =>
      let (status, qp, wqe) := prepare qp .zero wr
      if status ≠ 0 then (status, qp.putWqe wqe)
      else
        let wqe :=
          { wqe with
            lkey := sge.lkey, localaddr := sge.addr, dmalen := sge.length }
        buildSgesLoop prepare wr (qp.putWqe wqe).incSqHead sgList

/-- The body the two share: a request with immediate data on its own
gets an entry, and `sq.head` then moves on whatever `prepare` said. -/
def buildSgesWith (imm : WrOpcode)
    (prepare : Qp → Wqe → SendWr → Int × Qp × Wqe) (qp : Qp)
    (wr : SendWr) : Int × Qp :=
  if wr.sgList = [] ∧ wr.opcode = imm then
    let (status, qp, wqe) := prepare qp (qp.sqVa qp.sq.head) wr
    (status, (qp.putWqe wqe).incSqHead)
  else
    buildSgesLoop prepare wr qp wr.sgList

/-- `bxroce_build_sges` -/
def buildSges (qp : Qp) (wr : SendWr) : Int × Qp :=
  buildSgesWith .sendWithImm prepareSendWqe qp wr

/-- `bxroce_buildwrite_sges` -/
def buildwriteSges (qp : Qp) (wr : SendWr) : Int × Qp :=
  buildSgesWith .rdmaWriteWithImm prepareWriteWqe qp wr

/-- `bxroce_sglist_len` -/
def sglistLen (sgList : List Sge) : U32 :=
  sgList.foldl (fun total sge => total + sge.length) 0

/-- Inline data, which the code turns down (on UD it does not look). -/
def SendWr.inlineRefused (wr : SendWr) (qp : Qp) : Bool :=
  wr.sendInline && decide (qp.qpType ≠ .ud)

/-- The entry an inline request leaves. -/
def inlineWqe (qp : Qp) (wr : SendWr) : Wqe :=
  { qp.sqVa qp.sq.head with dmalen := sglistLen wr.sgList }

/-- `bxroce_build_inline_sges`: the status of the entries is not looked
at. -/
def buildInlineSges (qp : Qp) (wr : SendWr) : Int × Qp :=
  if wr.inlineRefused qp then (-EINVAL, qp.putWqe (inlineWqe qp wr))
  else (0, (buildSges qp wr).2)

/-- `bxroce_buildwrite_inline_sges` -/
def buildwriteInlineSges (qp : Qp) (wr : SendWr) : Int × Qp :=
  if wr.inlineRefused qp then (-EINVAL, qp.putWqe (inlineWqe qp wr))
  else buildwriteSges qp wr

/-- `bxroce_build_send` -/
def buildSend (qp : Qp) (wr : SendWr) : Int × Qp := buildInlineSges qp wr

/-- `bxroce_build_write` -/
def buildWrite (qp : Qp) (wr : SendWr) : Int × Qp :=
  buildwriteInlineSges qp wr

/-- `bxroce_build_read` -/
def buildRead (qp : Qp) (wr : SendWr) : Qp :=
  (buildwriteInlineSges qp wr).2

-- ======================================================== the hardware

/-- `bxroce_ring_sq_hw`: the end of the ring first, when the head has
passed it. -/
def ringSqHw (qp : Qp) (hw : Doorbell) (wr : SendWr) : Qp × Doorbell :=
  if wr.numSge = 0 ∧ wr.opcode ≠ .rdmaWriteWithImm
      ∧ wr.opcode ≠ .sendWithImm then (qp, hw)
  else
    let hw :=
      if qp.overhead then hw.ring qp.sq.maxCnt qp.sq.maxCnt else hw
    ({ qp with overhead := false }, hw.ring qp.sq.maxCnt qp.sq.head)

/-- `bxroce_update_sq_head` -/
def updateSqHead (qp : Qp) (hw : Doorbell) : Qp :=
  let head := hw.wp qp.sq.maxCnt
  { qp with
    sq :=
      { qp.sq with
        head := head
        qpFoe :=
          if qp.sq.head ≠ head ∧ head = qp.sq.tail then .full
          else qp.sq.qpFoe } }

-- ============================================================ post_send

/-- The `switch` on the opcode. `IB_WR_LOCAL_INV` leaves its key in the
entry at the head and goes on as `IB_WR_REG_MR`, which does nothing
(`bxroce_build_reg`). -/
def buildWr (qp : Qp) (wr : SendWr) : Int × Qp :=
  match wr.opcode with
  | .sendWithImm =>
      buildSend (qp.putWqe { Wqe.zero with immdt := be32toh wr.ex }) wr
  | .send => buildSend qp wr
  | .sendWithInv =>
      buildSend (qp.putWqe { Wqe.zero with lkey := wr.ex }) wr
  | .rdmaWriteWithImm =>
      buildWrite (qp.putWqe { Wqe.zero with immdt := be32toh wr.ex }) wr
  | .rdmaWrite => buildWrite qp wr
  | .rdmaRead => (0, buildRead qp wr)
  | .localInv =>
      (0, qp.putWqe { qp.sqVa qp.sq.head with lkey := wr.ex })
  | .regMr => (0, qp)
  | .other => (-EINVAL, qp)

/-- The part of `bxroce_post_send` in front of its loop: whether the
loop is entered. -/
def postSendStart (qp : Qp) (hw : Doorbell) : Bool × Qp :=
  let qp := updateSqTail { qp with overhead := false } hw
  (postSendAllowed qp.qpState, qp)

/-- One turn of the loop: a status, and with 0 the loop goes on to the
next request. -/
def postSendTurn (qp : Qp) (hw : Doorbell) (wr : SendWr) :
    Int × Qp × Doorbell :=
  if qp.qpType = .ud ∧ wr.opcode ≠ .send ∧ wr.opcode ≠ .sendWithImm then
    (-EINVAL, qp, hw)
  else
    let freeCnt := hwqFreeCnt qp.sq
    if freeCnt = 0 ∨ wr.numSge > qp.sq.maxSges then (-ENOMEM, qp, hw)
    else
      let status := checkFoe wr.numSge freeCnt
      if status ≠ 0 then (status, qp, hw)
      else
        let (status, qp) := buildWr qp wr
        if status ≠ 0 then (status, qp, hw)
        else
          let (qp, hw) := ringSqHw qp hw wr
          (0, updateSqHead qp hw, hw)

end BxRnic.Kernel
