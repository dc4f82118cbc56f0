/-
The queue pair as the kernel driver keeps it
(bx_roce_driver/header/bxroce_verbs.h), with the work requests kernel
consumers post on it.

The conventions are those of the library's model: ring indices are
natural numbers below `max_cnt`, ring memory is a function from slots to
entries, register pointers count entries, and `num_sge` is the length of
`sg_list`.
-/
import BxRnic.Header

namespace BxRnic.Kernel

-- =========================================================== the queues

/-- `struct bxroce_qp_hwq_info`, less the addresses. -/
structure HwqInfo where
  maxSges : Nat
  head : Nat
  tail : Nat
  maxCnt : Nat
  maxWqeIdx : Nat
  qpFoe : QpFoe
deriving DecidableEq

/-- An element of `wqe_wr_id_tbl`, less its unused fields. -/
structure WqeWrId where
  wrid : U64
  signaled : Bool
deriving DecidableEq

/-- `enum ib_qp_type`, as far as the driver tells types apart;
`reserved2` is what it takes for RD. -/
inductive QpType
  | rc
  | uc
  | ud
  | gsi
  | reserved2
  | other
deriving DecidableEq

/-- `struct bxroce_qp`. -/
structure Qp where
  id : U32
  qpType : QpType
  qpState : QpState
  sq : HwqInfo
  rq : HwqInfo
  sqVa : Nat → Wqe
  rqVa : Nat → Rqe
  wqeWrIdTbl : Nat → WqeWrId
  rqeWrIdTbl : Nat → U64
  /-- Set when the send head has passed the end of the ring. -/
  overhead : Bool
  /-- The attributes kept in the queue pair itself. -/
  attr : QpChangeInfo
  initSqpsn : U32
  initRqpsn : U32
  /-- `qp_change_info`, the page shared with the library. -/
  page : QpChangeInfo

-- ========================================================= work requests

/-- `enum ib_wr_opcode` -/
inductive WrOpcode
  | rdmaWrite
  | rdmaWriteWithImm
  | send
  | sendWithImm
  | rdmaRead
  | sendWithInv
  | localInv
  | regMr
  | other
deriving DecidableEq

/-- `struct ib_sge` -/
structure Sge where
  addr : U64
  length : U32
  lkey : U32
deriving DecidableEq

/-- `struct ib_send_wr`, with `ud_wr` and `rdma_wr` side by side. `ex` is
the union of immediate data and key to invalidate. -/
structure SendWr where
  wrId : U64
  sgList : List Sge
  opcode : WrOpcode
  sendSignaled : Bool
  sendInline : Bool
  ex : U32
  remoteAddr : U64
  rkey : U32
  remoteQpn : U32
  remoteQkey : U32

/-- `num_sge` -/
abbrev SendWr.numSge (wr : SendWr) : Nat := wr.sgList.length

/-- `struct ib_recv_wr` -/
structure RecvWr where
  wrId : U64
  sgList : List Sge

/-- `num_sge` -/
abbrev RecvWr.numSge (wr : RecvWr) : Nat := wr.sgList.length

-- =============================================================== the gates

/-- The state test of `bxroce_post_send`. -/
def postSendAllowed (state : QpState) : Bool :=
  state = .rts || state = .sqd

/-- The state test of `bxroce_post_recv`. -/
def postRecvAllowed (state : QpState) : Bool :=
  !(state = .rst || state = .err)

end BxRnic.Kernel
