/-
The queue pair as the user-space library keeps it (libbxroce/
bxroce_main.h): the two hardware queues, the tables of work-request ids,
the queue entries in shared memory, and the address data that work
requests are filled in with.

# Conventions

- Ring indices are natural numbers. The code keeps `head` and `tail`
  below `max_cnt`, so its 32-bit sums and differences of them never wrap.
- Ring memory is a function from slot numbers to entries. The code forms
  a slot's address as `va + index * entry_size`, with entry sizes equal
  to the sizes of the entry structs.
- The registers that the library reads and writes through the mapped
  window are the queue pointers of this queue pair, counted in entries.
- `sg_list` is a list and `num_sge` its length.
-/
import BxRnic.Hw

namespace BxRnic.User

-- ============================================================ the queues

/-- `struct bxroce_qp_hwq_info`, less the addresses. -/
structure HwqInfo where
  maxSges : Nat
  head : Nat
  tail : Nat
  maxCnt : Nat
  maxWqeIdx : Nat
  overhead : Nat
  qpFoe : QpFoe
deriving DecidableEq

/-- The slot an element of the ring is at, `head` advanced. -/
def hwqIncHead (q : HwqInfo) : HwqInfo :=
  { q with head := (q.head + 1) % q.maxCnt }

/-- `bxroce_hwq_inc_rqtail` -/
def hwqIncRqtail (q : HwqInfo) : HwqInfo :=
  { q with tail := (q.tail + 1) % q.maxCnt }

/-- `bxroce_hwq_inc_sqtail`. The send tail wraps where the last lap
ended; a lap of no entries is a division by zero. -/
def hwqIncSqtail (q : HwqInfo) : Option HwqInfo :=
  if q.overhead = 0 then none
  else some { q with tail := (q.tail + 1) % q.overhead }

/-- `bxroce_sqhwq_free_cnt` -/
def sqhwqFreeCnt (q : HwqInfo) : Nat := q.maxWqeIdx - q.head

/-- `bxroce_rqhwq_free_cnt` -/
def rqhwqFreeCnt (q : HwqInfo) : Nat :=
  if q.head > q.tail then
    ((q.maxWqeIdx - q.head) + q.tail) % q.maxCnt
  else if q.head = q.tail then
    if q.qpFoe = .empty then q.maxCnt else 0
  else
    q.tail - q.head

/-- `bxroce_check_foe` -/
def checkFoe (numSge freeCnt : Nat) : Int :=
  if numSge > freeCnt then ENOMEM else 0

-- ============================================================ the entries

/-- An element of `wqe_wr_id_tbl`, less its unused fields. -/
structure WqeWrId where
  wrid : U64
  signaled : Bool
deriving DecidableEq

/-- `struct qp_addrtbl`: the remembered translation of a remote region. -/
structure QpAddrtbl where
  dmaaddr : U64
  vaddr : U64
  len : U32
deriving DecidableEq

/-- `struct bxroce_mr_sginfo`, as far as translating a local address
reads it; `phyaddr` is that of its first scatter entry. -/
structure MrSgInfo where
  iova : U64
  length : U32
  offset : U32
  phyaddr : U64
deriving DecidableEq

-- ============================================================= the queue pair

/-- `enum ibv_qp_type` -/
inductive QpType
  | rc
  | uc
  | ud
  | driver
  | other
deriving DecidableEq

/-- `struct bxroce_qp`. -/
structure Qp where
  id : U32
  qpType : QpType
  qpState : QpState
  sq : HwqInfo
  rq : HwqInfo
  sqVa : Nat → Wqe
  rqVa : Nat → Rqe
  wqeWrIdTbl : Nat → WqeWrId
  rqeWrIdTbl : Nat → U64
  rdmaAddr : U64
  addrtbl : QpAddrtbl
  /-- The attributes the kernel reported last. -/
  attr : QpChangeInfo

/-- The queue pointers of this queue pair in the registers. -/
structure Regs where
  /-- `WPFORQPLIST` -/
  sqWp : Nat
  /-- `WPFORQPLIST2` -/
  sqRp : Nat
  /-- `RCVQ_DI`, as last rung -/
  rqWp : Nat
deriving DecidableEq

-- ============================================================ work requests

/-- `enum ibv_wr_opcode` -/
inductive WrOpcode
  | rdmaWrite
  | rdmaWriteWithImm
  | send
  | sendWithImm
  | rdmaRead
  | sendWithInv
  | other
deriving DecidableEq

/-- `struct ibv_sge` -/
structure Sge where
  addr : U64
  length : U32
  lkey : U32
deriving DecidableEq

/-- `struct bxroce_ah`, as far as a send reads it. -/
structure Ah where
  dmac : Vector U8 6
deriving DecidableEq

/-- `struct ibv_send_wr`: `wr.rdma` and `wr.ud` side by side. -/
structure SendWr where
  wrId : U64
  sgList : List Sge
  opcode : WrOpcode
  /-- `IBV_SEND_SIGNALED` -/
  sendSignaled : Bool
  /-- `IBV_SEND_INLINE` -/
  sendInline : Bool
  immData : U32
  remoteAddr : U64
  rkey : U32
  ah : Option Ah
  remoteQpn : U32
  remoteQkey : U32

/-- `num_sge` -/
abbrev SendWr.numSge (wr : SendWr) : Nat := wr.sgList.length

/-- `struct ibv_recv_wr` -/
structure RecvWr where
  wrId : U64
  sgList : List Sge

/-- `num_sge` -/
abbrev RecvWr.numSge (wr : RecvWr) : Nat := wr.sgList.length

-- ====================================================== local addresses

/-- The scan of `dev->mr_list` for the region a local address lies in,
its end included, and the DMA address the region gives it. `none` leaves
the entry's address as it was. -/
def localDmaAddr (mrList : List MrSgInfo) (addr : U64) : Option U64 :=
  (mrList.find? fun mr =>
      decide (mr.iova ≤ addr ∧ addr ≤ mr.iova + mr.length.setWidth 64)).map
    fun mr => mr.phyaddr + (addr - mr.iova) + mr.offset.setWidth 64

end BxRnic.User
