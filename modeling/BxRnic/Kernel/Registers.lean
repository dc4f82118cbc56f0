/-
The sequences of register accesses that the driver runs under
`dev->hw_lock` (bx_roce_driver/bxroce_verbs.c, bxroce_hw.c, and bx_pbu.c
for the packet buffer unit).

Left out are `bxroce_pgu_info_before_wqe`, which is not called, and what
is done to other parts of the device than the MPB.
-/
import BxRnic.Mpb
import BxRnic.Pcs.Port

namespace BxRnic.Kernel.Reg

open Window Mpb Pcs

-- ================================================================ queues

/-- A round of the loop in `bxroce_ring_sq_hw`. -/
def ringSqRound (qpn phyaddr : U32) (next : Seq) : Seq :=
  openQplist qpn
    (.read READQPLISTDATA fun _ =>
      .writes
        [(WPFORQPLIST, phyaddr), (WRITEQPLISTMASK, 0x3),
          (QPLISTWRITEQPN, 0x1), (WRITEORREADQPLIST, 0x0)] next)

/-- `bxroce_ring_sq_hw`: the end of the ring first, if the head has
passed it. -/
def ringSqHw (qpn head entrySize maxCnt : U32) (overhead : Bool) : Seq :=
  let last := ringSqRound qpn (head * entrySize) .done
  if overhead then ringSqRound qpn (maxCnt * entrySize) last else last

/-- `bxroce_update_sq_tail` -/
def updateSqTail (qpn : U32) : Seq := readQplist qpn READQPLISTDATA2

/-- `bxroce_update_sq_head` -/
def updateSqHead (qpn : U32) : Seq := readQplist qpn READQPLISTDATA

/-- `bxroce_ring_rq_hw` -/
def ringRqHw (qpn phyaddr : U32) : Seq := ringRcvq qpn phyaddr

/-- `bxroce_update_rq_tail` -/
def updateRqTail (qpn : U32) : Seq :=
  .writes [(RCVQ_INF, qpn), (RCVQ_WRRD, 0x20)] (.reads [RCVQ_DI] .done)

/-- Reading the write pointer of a completion queue. -/
def cqHwwp (op wpt qpn : U32) : Seq :=
  .write op ((qpn <<< 2) + 0x1) (.reads [wpt, wpt + 0x4] .done)

/-- `bxroce_txcq_hwwp` -/
def txcqHwwp (qpn : U32) : Seq := cqHwwp CQESIZE CQWRITEPTR qpn

/-- `bxroce_rxcq_hwwp` -/
def rxcqHwwp (qpn : U32) : Seq := cqHwwp RxCQEOp RxCQWPT qpn

/-- `bxroce_xmitcq_hwwp` -/
def xmitcqHwwp (qpn : U32) : Seq := cqHwwp XmitCQEOp XmitCQWPT qpn

/-- The end of `bxroce_poll_cq`. -/
def pollCqInfo : Seq := .reads [GENRSP, WRONGVECTOR, WRONGFIELD] .done

-- ===================================================== packet buffer unit

/-- The types of service that are mapped. -/
inductive ServiceType
  | rc
  | rd
  | ud
deriving DecidableEq

/-- A register of the unit: `BASE_ADDR_PBU`, the type of the partition
(`REG_TYPE_PARTION`), the partition (`REG_PARTION_ADDR`) and the offset
(`REG_OFFSET`). -/
def pbuReg (type part : BitVec 2) (offset : U32) : U32 :=
  0x10000000
    + setBits (setBits (setBits 0 24 24 (type.setWidth 32)) 26 25
        (part.setWidth 32)) 23 0 offset

-- the partitions, of type `QP_PARTION` or `EEC_PARTION`
def qpPsn (qp : U32) : U32 := pbuReg 1 0 qp
def qpQkey (qp : U32) : U32 := pbuReg 1 1 qp
def qpPkey (qp : U32) : U32 := pbuReg 1 2 qp
def eecPsn (eec : U32) : U32 := pbuReg 0 0 eec

/-- What is written for a P_Key. -/
def pkeyData (initPkey : U32) : U32 :=
  setBits (setBits initPkey 16 16 1) 31 17 0

/-- `pbu_init_for_recv_req`, as `_bxroce_modify_qp` calls it. -/
def pbuInitForRecvReq (service : ServiceType) (dstQp initPkey initQkey : U32)
    (next : Seq) : Seq :=
  .write 0x10000000 0
    (match service with
    | .rc =>
        .write (qpPsn dstQp) 0
          (.read (qpPsn dstQp) fun _ =>
            .write (qpPkey dstQp) (pkeyData initPkey)
              (.read (qpPkey dstQp) fun _ => next))
    | .rd =>
        .writes
          [(eecPsn 0, 0), (qpPkey dstQp, pkeyData initPkey),
            (qpQkey dstQp, initQkey)] next
    | .ud =>
        .writes
          [(qpPkey dstQp, pkeyData initPkey), (qpQkey dstQp, initQkey)]
          next)

/-- `pbu_init_for_recv_rsp`, as `_bxroce_modify_qp` calls it. -/
def pbuInitForRecvRsp (service : ServiceType) (srcQp initPkey : U32)
    (next : Seq) : Seq :=
  match service with
  | .rc =>
      .write (qpPkey srcQp) (pkeyData initPkey)
        (.read (qpPkey srcQp) fun _ => next)
  | .rd => .write (qpPkey 0) (pkeyData initPkey) next
  | .ud => next

/-- The part of `_bxroce_modify_qp` for RTR: the queue pairs are mapped
to each other. -/
def mapQps (lqp destqp : U32) (service : Option ServiceType)
    (pkeyIndex qkey : U32) : Seq :=
  .writes [(SRCQP, lqp), (DESTQP, destqp), (RC_QPMAPPING, 0x1)]
    (.await RC_QPMAPPING (fun v => v = 0)
      (match service with
      | none => .done
      | some service =>
          pbuInitForRecvReq service destqp pkeyIndex qkey
            (pbuInitForRecvRsp service lqp pkeyIndex .done)))

-- ============================================================ creation

/-- Where the memory of a new queue pair is. -/
structure QpMemory where
  rqPa : U64
  sqPa : U64
  txPa : U64
  xmitPa : U64
  rxPa : U64
  /-- `cq->len` -/
  cqLen : U32

/-- The low word of an address. -/
def lowWord (pa : U64) : U32 := pa.setWidth 32

/-- The high word of an address. -/
def highWord (pa : U64) : U32 := (pa >>> 32).setWidth 32

/-- A triple of writes to the receive queue's registers, and what they
are (`RCVQ_WRRD`). -/
def writeRcvq (qpn low high kind : U32) : List (U32 × U32) :=
  [(RCVQ_INF, qpn), (RCVQ_DI, low), (RCVQ_DI + 0x4, high),
    (RCVQ_WRRD, kind)]

/-- A completion queue's memory, and that the device takes it. -/
def writeCq (up base ptr op qpn len : U32) (pa : U64) (next : Seq) : Seq :=
  .writes
    [(up, lowWord pa + len), (up + 0x4, highWord pa), (base, lowWord pa),
      (base + 0x4, highWord pa), (ptr, lowWord pa),
      (ptr + 0x4, highWord pa), (op, (qpn <<< 2) + 0x3)]
    (.await op (fun v => v &&& 0x1 = 0) next)

/-- `bxroce_hw_create_qp`, from the point where it takes the lock. -/
def hwCreateQp (qpn : U32) (mem : QpMemory) : Seq :=
  .writes
    ([(STARTINITPSN, 0x0000), (STARTINITPSN + 0x4, 0x0000),
        (STARTINITPSN + 0x8, 0x0000), (STARTINITPSN + 0xc, 0x1000000),
        (INITQP, qpn), (INITQPTABLE, 0x1)]
      ++ writeRcvq qpn (lowWord (mem.rqPa >>> 12))
          (highWord (mem.rqPa >>> 12)) 0x1
      ++ writeRcvq qpn 0x0 0x0 0x2
      ++ writeRcvq qpn 0x0 0x0 0x4
      ++ [(QPLISTREADQPN, qpn), (WPFORQPLIST, 0x0), (WPFORQPLIST2, 0x0),
        (RPFORQPLIST, lowWord (mem.sqPa >>> 12)),
        (RPFORQPLIST2, highWord (mem.sqPa >>> 12) + 0x00100000),
        (WRITEORREADQPLIST, 0x1), (WRITEQPLISTMASK, 0x7),
        (QPLISTWRITEQPN, 0x1), (CFGSIZEOFWRENTRY, 64),
        (CFGSIZEOFWRENTRY + 0x4, 0x0), (WRITEORREADQPLIST, 0x0)])
    (writeCq CQQUEUEUP CQQUEUEDOWN CQREADPTR CQESIZE qpn (mem.cqLen - 1)
        mem.txPa
      (writeCq XmitUpAddrCQE XmitBaseAddrCQE XmitCQEWP XmitCQEOp qpn
          (mem.cqLen - 1) mem.xmitPa
        (writeCq RxUpAddrCQE RxBaseAddrCQE RxCQEWP RxCQEOp qpn
          (mem.cqLen - 1) mem.rxPa .done)))

-- ============================================================ the calls

/-- The sequences of the driver, with what they depend on. -/
inductive Call
  | ringSqHw (qpn head entrySize maxCnt : U32) (overhead : Bool)
  | updateSqTail (qpn : U32)
  | updateSqHead (qpn : U32)
  | ringRqHw (qpn phyaddr : U32)
  | updateRqTail (qpn : U32)
  | txcqHwwp (qpn : U32)
  | rxcqHwwp (qpn : U32)
  | xmitcqHwwp (qpn : U32)
  | pollCqInfo
  | mapQps (lqp destqp : U32) (service : Option ServiceType)
      (pkeyIndex qkey : U32)
  | hwCreateQp (qpn : U32) (mem : QpMemory)

/-- What a call does to the registers. -/
def Call.seq : Call → Seq
  | ringSqHw qpn head entrySize maxCnt overhead =>
      Reg.ringSqHw qpn head entrySize maxCnt overhead
  | updateSqTail qpn => Reg.updateSqTail qpn
  | updateSqHead qpn => Reg.updateSqHead qpn
  | ringRqHw qpn phyaddr => Reg.ringRqHw qpn phyaddr
  | updateRqTail qpn => Reg.updateRqTail qpn
  | txcqHwwp qpn => Reg.txcqHwwp qpn
  | rxcqHwwp qpn => Reg.rxcqHwwp qpn
  | xmitcqHwwp qpn => Reg.xmitcqHwwp qpn
  | pollCqInfo => Reg.pollCqInfo
  | mapQps lqp destqp service pkeyIndex qkey =>
      Reg.mapQps lqp destqp service pkeyIndex qkey
  | hwCreateQp qpn mem => Reg.hwCreateQp qpn mem

end BxRnic.Kernel.Reg
