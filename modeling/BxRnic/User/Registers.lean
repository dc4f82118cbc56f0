/-
The sequences of register accesses that the library runs under the mutex
in shared memory (libbxroce/bxroce_verbs.c). The mutex is robust: when a
process ends while it holds it, the next one that takes it makes it
consistent and goes on.
-/
import BxRnic.Mpb

namespace BxRnic.User.Reg

open Window Mpb

/-- `bxroce_ring_sq_hw` -/
def ringSqHw (qpn phyaddr : U32) : Seq :=
  openQplist qpn
    (.writes
      [(WPFORQPLIST, phyaddr), (WRITEQPLISTMASK, 0x1),
        (QPLISTWRITEQPN, 0x1), (WRITEORREADQPLIST, 0x0)] .done)

/-- `bxroce_update_sq_tail` -/
def updateSqTail (qpn : U32) : Seq := readQplist qpn READQPLISTDATA2

/-- `bxroce_update_sq_head` -/
def updateSqHead (qpn : U32) : Seq := readQplist qpn READQPLISTDATA

/-- `bxroce_init_sq_ptr`: the pointers are reset when they are equal. -/
def initSqPtr (qpn : U32) : Seq :=
  openQplist qpn
    (.read READQPLISTDATA2 fun tail => .read READQPLISTDATA fun head =>
      if head = tail then
        .writes
          [(WPFORQPLIST, 0x0), (WPFORQPLIST2, 0x0), (WRITEQPLISTMASK, 0x3),
            (QPLISTWRITEQPN, 0x1)] closeQplist
      else closeQplist)

/-- `bxroce_ring_rq_hw` -/
def ringRqHw (qpn phyaddr : U32) : Seq := ringRcvq qpn phyaddr

/-- `bxroce_update_rq_tail` -/
def updateRqTail (qpn paL paH : U32) : Seq :=
  .writes
    [(RCVQ_INF, qpn), (RCVQ_DI, paL), (RCVQ_DI + 0x4, paH),
      (RCVQ_WRRD, 0x20)]
    (.reads [RCVQ_INF, RCVQ_DI + 0x8, RCVQ_DI + 0x4, RCVQ_DI] .done)

/-- The sequences of the library, with what they depend on. -/
inductive Call
  | ringSqHw (qpn phyaddr : U32)
  | updateSqTail (qpn : U32)
  | updateSqHead (qpn : U32)
  | initSqPtr (qpn : U32)
  | ringRqHw (qpn phyaddr : U32)
  | updateRqTail (qpn paL paH : U32)

/-- What a call does to the registers. -/
def Call.seq : Call → Seq
  | ringSqHw qpn phyaddr => Reg.ringSqHw qpn phyaddr
  | updateSqTail qpn => Reg.updateSqTail qpn
  | updateSqHead qpn => Reg.updateSqHead qpn
  | initSqPtr qpn => Reg.initSqPtr qpn
  | ringRqHw qpn phyaddr => Reg.ringRqHw qpn phyaddr
  | updateRqTail qpn paL paH => Reg.updateRqTail qpn paL paH

end BxRnic.User.Reg
