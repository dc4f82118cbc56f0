/-
The registers behind the MPB window (bx_roce_driver/header/
bxroce_mpb_reg.h and, the same again, libbxroce/bxroce_reg.h), as far as
sequences under the two locks use them: an access writes the register's
address to `MPB_WRITE_ADDR` and its data goes through `MPB_RW_DATA`.

The QP list is read and written in transactions. `QPLISTREADQPN` selects
the queue pair, and the registers behind it are about that one.
-/
import BxRnic.Lib.Window
import BxRnic.Lib.Word

namespace BxRnic.Mpb

open Window

/-- A sequence of accesses to 32-bit registers. -/
abbrev Seq := Prog U32 U32

-- ============================================================= registers

-- general
def GENRSP : U32 := 0x2000
def CFGSIZEOFWRENTRY : U32 := 0x2008
def WRONGVECTOR : U32 := 0x2024
def WRONGFIELD : U32 := 0x2028
def SRCQP : U32 := 0x2034
def DESTQP : U32 := 0x2038
def RC_QPMAPPING : U32 := 0x203c

-- completion queues
def CQQUEUEUP : U32 := 0x0000
def CQQUEUEDOWN : U32 := 0x0008
def CQREADPTR : U32 := 0x0010
def CQESIZE : U32 := 0x0018
def CQWRITEPTR : U32 := 0x001c
def RxUpAddrCQE : U32 := 0x0028
def RxBaseAddrCQE : U32 := 0x0030
def RxCQEWP : U32 := 0x0038
def RxCQEOp : U32 := 0x0040
def RxCQWPT : U32 := 0x0044
def XmitUpAddrCQE : U32 := 0x0050
def XmitBaseAddrCQE : U32 := 0x0058
def XmitCQEWP : U32 := 0x0060
def XmitCQEOp : U32 := 0x0068
def XmitCQWPT : U32 := 0x006c

-- receive queues
def RCVQ_INF : U32 := 0x2040
def RCVQ_DI : U32 := 0x2044
def RCVQ_WRRD : U32 := 0x2050

-- the QP list
def QPLISTREADQPN : U32 := 0x4000
def WRITEORREADQPLIST : U32 := 0x4004
def WPFORQPLIST : U32 := 0x4008
def WPFORQPLIST2 : U32 := 0x400c
def RPFORQPLIST : U32 := 0x4010
def RPFORQPLIST2 : U32 := 0x4014
def QPLISTWRITEQPN : U32 := 0x4020
def READQPLISTDATA : U32 := 0x4024
def READQPLISTDATA2 : U32 := 0x4028
def WRITEQPLISTMASK : U32 := 0x403c

-- sequence numbers
def STARTINITPSN : U32 := 0x8000
def INITQP : U32 := 0x8010
def INITQPTABLE : U32 := 0x8014

/-- The registers of the QP list that are about the queue pair
selected. -/
def InQplist (reg : U32) : Prop :=
  QPLISTREADQPN.toNat < reg.toNat ∧ reg.toNat ≤ WRITEQPLISTMASK.toNat

instance (reg : U32) : Decidable (InQplist reg) :=
  inferInstanceAs (Decidable (_ ∧ _))

-- ========================================================= transactions

/-- The QP list is opened for a queue pair, to be read: the beginning of
the transactions on both sides. -/
def openQplist (qpn : U32) (next : Seq) : Seq :=
  .writes
    [(QPLISTREADQPN, qpn), (WRITEORREADQPLIST, 0x1),
      (WRITEQPLISTMASK, 0x7), (QPLISTWRITEQPN, 0x0)] next

/-- The QP list is closed. -/
def closeQplist : Seq := .write WRITEORREADQPLIST 0x0 .done

/-- A pointer of a queue pair is read (`bxroce_update_sq_tail` and
`bxroce_update_sq_head`, the same on both sides). -/
def readQplist (qpn reg : U32) : Seq :=
  openQplist qpn (.read reg fun _ => closeQplist)

/-- The write pointer of a receive queue (`bxroce_ring_rq_hw`, the same
on both sides). -/
def ringRcvq (qpn phyaddr : U32) : Seq :=
  .writes
    [(RCVQ_INF, qpn), (RCVQ_DI, phyaddr), (RCVQ_DI + 0x4, 0x0),
      (RCVQ_WRRD, 0x2)] .done

end BxRnic.Mpb
