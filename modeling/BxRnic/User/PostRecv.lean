/-
`bxroce_post_recv` (libbxroce/bxroce_verbs.c). As with sends the model
is of one turn of the loop, `postRecvTurn`; `postRecv` is the loop.
-/
import BxRnic.User.Lifecycle

namespace BxRnic.User

-- ========================================================== the entries

/-- The entry of one element. A local address in no known region leaves
`descbaseaddr` zero. -/
def recvRqe (mrList : List MrSgInfo) (sge : Sge) : Rqe where
  descbaseaddr := (localDmaAddr mrList sge.addr).getD 0
  dmalen := sge.length
  opcode := 0x80000000

/-- The loop of `bxroce_build_rqsges`, at its `i`-th element. The
entries are written from `rq.head` on without a look at the end of the
ring; the ids go round it. -/
def buildRqsgesLoop (mrList : List MrSgInfo) (wr : RecvWr) :
    Qp → Nat → List Sge → Qp
  | qp, _, [] => qp
  | qp, i, sge :: sgList =>
      let qp :=
        { qp with
          rqVa := Function.update qp.rqVa (qp.rq.head + i)
            (recvRqe mrList sge)
          rqeWrIdTbl := Function.update qp.rqeWrIdTbl
            ((qp.rq.head + i) % qp.rq.maxCnt) wr.wrId }
      buildRqsgesLoop mrList wr qp (i + 1) sgList

/-- `bxroce_build_rqsges`. A request without elements clears the entry
at the head. -/
def buildRqsges (mrList : List MrSgInfo) (qp : Qp) (wr : RecvWr) : Qp :=
  if wr.sgList = [] then
    { qp with rqVa := Function.update qp.rqVa qp.rq.head .zero }
  else
    buildRqsgesLoop mrList wr qp 0 wr.sgList

/-- `bxroce_ring_rq_hw`: what `RCVQ_DI` takes, in entries. -/
def ringRqHw (qp : Qp) (regs : Regs) (wr : RecvWr) : Regs :=
  { regs with rqWp := qp.rq.head + wr.numSge }

/-- `bxroce_update_rq_head` -/
def updateRqHead (qp : Qp) (wr : RecvWr) : Qp :=
  if wr.numSge = 0 then qp
  else
    let head := (qp.rq.head + wr.numSge) % qp.rq.maxCnt
    { qp with
      rq :=
        { qp.rq with
          head := head
          qpFoe := if head = qp.rq.tail then .full else qp.rq.qpFoe } }

-- ============================================================ post_recv

/-- One turn of the loop of `bxroce_post_recv`: a status, and with 0 the
request is accepted. -/
def postRecvTurn (mrList : List MrSgInfo) (qp : Qp) (regs : Regs)
    (wr : RecvWr) : Int × Qp × Regs :=
  let freeCnt := rqhwqFreeCnt qp.rq
  if freeCnt = 0 ∨ wr.numSge > qp.rq.maxSges then (ENOMEM, qp, regs)
  else
    let status := checkFoe wr.numSge freeCnt
    if status ≠ 0 then (status, qp, regs)
    else
      let qp := buildRqsges mrList qp wr
      let regs := ringRqHw qp regs wr
      (0, updateRqHead qp wr, regs)

/-- The loop of `bxroce_post_recv`. -/
def postRecvLoop (mrList : List MrSgInfo) (qp : Qp) (regs : Regs) :
    List RecvWr → Int × Qp × Regs
  | [] => (0, qp, regs)
  | wr :: wrs =>
      let (status, qp, regs) := postRecvTurn mrList qp regs wr
      if status ≠ 0 then (status, qp, regs)
      else postRecvLoop mrList qp regs wrs

/-- `bxroce_post_recv` -/
def postRecv (mrList : List MrSgInfo) (qp : Qp) (regs : Regs)
    (wrs : List RecvWr) : Int × Qp × Regs :=
  if postRecvAllowed qp.qpState = false then (EINVAL, qp, regs)
  else postRecvLoop mrList qp regs wrs

end BxRnic.User
