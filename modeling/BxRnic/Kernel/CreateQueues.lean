/-
Where the memory of the queues is, and how the device is told
(bx_roce_driver/bxroce_hw.c, and bxroce_verbs.c for the write pointers).

`bxroce_hw_create_cq` allocates the three rings of a completion queue as
one piece, `bxroce_hw_create_qp` the two queues of a queue pair. The
sequence of register writes of the latter is `Reg.hwCreateQp`; here is
where its addresses come from. The write pointers of the rings are read
back as addresses and turned into indices (`bxroce_txcq_hwwp` and the
like).

Left out are the read pointers of a completion queue and the fields that
later functions fill in.

# The allocator

`dma_alloc_coherent` gives a buffer aligned to the smallest power of two
pages that holds it (`Coherent`). `CoherentDma` is any allocator that
does; its answers are numbered, so that two calls for the same size may
end differently.
-/
import Mathlib.Order.Bounds.Defs
import BxRnic.Lib.Halves
import BxRnic.Kernel.Registers

namespace BxRnic.Kernel.Queues

open Mpb

-- =========================================================== the allocator

/-- What is promised about a buffer of `size` bytes at `pa`. -/
structure Coherent (size pa : U64) : Prop where
  /-- No buffer takes half of all addresses. -/
  size_lt : size.toNat < 2 ^ 63
  fits : pa.toNat + size.toNat ≤ 2 ^ 64
  /-- The smallest power of two pages that holds it divides its
  address. -/
  aligned : ∃ order, IsLeast {k | size.toNat ≤ 4096 * 2 ^ k} order
    ∧ 4096 * 2 ^ order ∣ pa.toNat

/-- `dma_alloc_coherent`: the buffer's address for the driver and that
for the device, if there is memory. -/
structure CoherentDma where
  alloc : Nat → U64 → Option (U64 × U64)
  coherent : ∀ {call : Nat} {size va pa : U64},
    alloc call size = some (va, pa) → Coherent size pa

-- ======================================================= completion queues

-- `BXROCE_MIN_Q_PAGE_SIZE` and `sizeof(struct bxroce_txcqe)`
def minQPageSize : U32 := 4096
def sizeofTxcqe : U32 := 16

/-- `roundup` -/
def roundup (x y : U32) : U32 := (x + (y - 1)) / y * y

/-- The parts of `struct bxroce_cq` that say where its rings are. -/
structure Cq where
  txva : U64
  rxva : U64
  xmitva : U64
  txwp : U32
  rxwp : U32
  xmitwp : U32
  txpa : U64
  rxpa : U64
  xmitpa : U64
  cqeSize : U32
  maxHwCqe : U32
  cqeCnt : U32
  /-- The length of one ring. -/
  len : U32

/-- `totalen`, an `int`, as the size that is asked for. -/
def totalen (len : U32) : U64 := (len * 3).signExtend 64

/-- `bxroce_hw_create_cq`; `maxCqe` is `dev->attr.max_cqe`. -/
def hwCreateCq (dma : CoherentDma) (call : Nat) (maxCqe : U32) :
    Option Cq :=
  let len := roundup (maxCqe * sizeofTxcqe) minQPageSize
  (dma.alloc call (totalen len)).map fun (va, pa) =>
    { txva := va
      xmitva := va + len.setWidth 64
      rxva := va + len.setWidth 64 + len.setWidth 64
      txpa := pa
      xmitpa := pa + len.setWidth 64
      rxpa := pa + len.setWidth 64 + len.setWidth 64
      txwp := 0, rxwp := 0, xmitwp := 0
      cqeSize := sizeofTxcqe
      maxHwCqe := maxCqe
      cqeCnt := len / sizeofTxcqe
      len := len }

-- ========================================================== write pointers

/-- The index of an address that the registers hold in two words. -/
def hwIndex (regs : U32 → U32) (wpt : U32) (pa : U64) (cqeSize : U32) :
    U32 :=
  let cqwp := Halves.join 64 (regs wpt) (regs (wpt + 0x4))
  ((cqwp - pa) / cqeSize.setWidth 64).setWidth 32

/-- `bxroce_txcq_hwwp`, once the registers are read, with the address it
returns. -/
def txcqHwwp (regs : U32 → U32) (cq : Cq) : Cq × U64 :=
  let txwp := hwIndex regs CQWRITEPTR cq.txpa cq.cqeSize
  ({ cq with txwp }, cq.txva + (txwp * cq.cqeSize).setWidth 64)

/-- `bxroce_rxcq_hwwp`, the same way. -/
def rxcqHwwp (regs : U32 → U32) (cq : Cq) : Cq × U64 :=
  let rxwp := hwIndex regs RxCQWPT cq.rxpa cq.cqeSize
  ({ cq with rxwp }, cq.rxva + (rxwp * cq.cqeSize).setWidth 64)

/-- `bxroce_xmitcq_hwwp`, the same way. -/
def xmitcqHwwp (regs : U32 → U32) (cq : Cq) : Cq × U64 :=
  let xmitwp := hwIndex regs XmitCQWPT cq.xmitpa cq.cqeSize
  ({ cq with xmitwp }, cq.xmitva + (xmitwp * cq.cqeSize).setWidth 64)

-- ============================================================= queue pairs

-- `sizeof(struct bxroce_rqe)` and `sizeof(struct bxroce_wqe)`
def sizeofRqe : U32 := 16
def sizeofWqe : U32 := 64

/-- The memory of a queue pair, as `bxroce_hw_create_qp` allocates it and
takes it from the completion queues of its sends and of its receives;
`maxQpWr` and `maxRecvSge` are those of `dev->attr`. -/
def qpMemory (dma : CoherentDma) (call : Nat) (maxQpWr maxRecvSge : U32)
    (send recv : Cq) : Option Reg.QpMemory :=
  let maxAllocated := maxQpWr * maxRecvSge
  let rqLen := roundup (sizeofRqe * maxAllocated) minQPageSize
  let sqLen := roundup (sizeofWqe * maxAllocated) minQPageSize
  (dma.alloc call (rqLen.setWidth 64)).bind fun rq =>
    (dma.alloc (call + 1) (sqLen.setWidth 64)).map fun sq =>
      { rqPa := rq.2
        sqPa := sq.2
        txPa := send.txpa
        xmitPa := send.xmitpa
        rxPa := recv.rxpa
        cqLen := send.len }

end BxRnic.Kernel.Queues
