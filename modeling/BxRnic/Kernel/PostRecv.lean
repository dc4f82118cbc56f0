/-
`bxroce_post_recv` of the driver (bx_roce_driver/bxroce_verbs.c), one
turn of its loop at a time, and the part in front of the loop.

The entries of a request are written behind each other from the head on,
also past the ring's last slot (the memory goes on there); the ids, the
doorbell and the head go round.
-/
import BxRnic.Kernel.PostSend

namespace BxRnic.Kernel

/-- `bxroce_update_rq_tail` -/
def updateRqTail (qp : Qp) (hw : Doorbell) : Qp :=
  { qp with rq := qp.rq.setTail (hw.rp qp.rq.maxCnt) }

/-- The entry of one element. -/
def recvRqe (sge : Sge) : Rqe where
  descbaseaddr := sge.addr
  dmalen := sge.length
  opcode := 0x80000000

/-- The loop of `bxroce_build_rqsges`, at its `i`-th element. -/
def buildRqsgesLoop (wr : RecvWr) : Qp → Nat → List Sge → Qp
  | qp, _, [] => qp
  | qp, i, sge :: sgList =>
      let qp :=
        { qp with
          rqVa := Function.update qp.rqVa (qp.rq.head + i) (recvRqe sge)
          rqeWrIdTbl := Function.update qp.rqeWrIdTbl
            ((qp.rq.head + i) % qp.rq.maxCnt) wr.wrId }
      buildRqsgesLoop wr qp (i + 1) sgList

/-- `bxroce_build_rqsges`, which `bxroce_build_rqe` calls. A request
without elements clears the entry at the head. -/
def buildRqsges (qp : Qp) (wr : RecvWr) : Qp :=
  if wr.sgList = [] then
    { qp with rqVa := Function.update qp.rqVa qp.rq.head .zero }
  else
    buildRqsgesLoop wr qp 0 wr.sgList

/-- `bxroce_ring_rq_hw` -/
def ringRqHw (qp : Qp) (hw : Doorbell) (wr : RecvWr) : Doorbell :=
  hw.ring qp.rq.maxCnt (qp.rq.head + wr.numSge)

/-- `bxroce_update_rq_head` -/
def updateRqHead (qp : Qp) (wr : RecvWr) : Qp :=
  if wr.numSge = 0 then qp
  else
    let head := (qp.rq.head + wr.numSge) &&& (qp.rq.maxCnt - 1)
    { qp with
      rq :=
        { qp.rq with
          head := head
          qpFoe := if head = qp.rq.tail then .full else qp.rq.qpFoe } }

-- ============================================================ post_recv

/-- The part of `bxroce_post_recv` in front of its loop. -/
def postRecvStart (qp : Qp) (hw : Doorbell) : Bool × Qp :=
  let qp := updateRqTail qp hw
  (postRecvAllowed qp.qpState, qp)

/-- One turn of the loop. -/
def postRecvTurn (qp : Qp) (hw : Doorbell) (wr : RecvWr) :
    Int × Qp × Doorbell :=
  let freeCnt := hwqFreeCnt qp.rq
  if freeCnt = 0 ∨ wr.numSge > qp.rq.maxSges then (-ENOMEM, qp, hw)
  else
    let status := checkFoe wr.numSge freeCnt
    if status ≠ 0 then (status, qp, hw)
    else
      let qp := buildRqsges qp wr
      let hw := ringRqHw qp hw wr
      (0, updateRqHead qp wr, hw)

end BxRnic.Kernel
