/-
What the kernel driver and the user-space library share: the entries of
the hardware queues, the states of a queue pair and how the two verbs
interfaces name them, and the page through which the kernel tells the
library a queue pair's attributes.

Both sides declare these types again in their own headers, field for
field the same (bx_roce_driver/header/bxroce_verbs.h and
libbxroce/bxroce_main.h).
-/
import BxRnic.Lib.Word

namespace BxRnic

-- ======================================================= error numbers

/-- `ENOMEM` -/
def ENOMEM : Int := 12

/-- `EINVAL` -/
def EINVAL : Int := 22

-- ======================================================= ring entries

/-- `struct bxroce_wqe` -/
structure Wqe where
  immdt : U32
  pkey : U16
  rkey : U32
  lkey : U32
  qkey : U32
  dmalen : U32
  destaddr : U64
  localaddr : U64
  eecntx : U16
  destqp : U16
  destsocket1 : U32
  destsocket2 : U8
  opcode : U8
  llpinfoLo : U64
  llpinfoHi : U64
deriving DecidableEq

/-- An entry of zero bytes. -/
def Wqe.zero : Wqe := ⟨0, 0, 0, 0, 0, 0, 0, 0, 0, 0, 0, 0, 0, 0, 0⟩

/-- `struct bxroce_rqe` -/
structure Rqe where
  descbaseaddr : U64
  dmalen : U32
  opcode : U32
deriving DecidableEq

/-- An entry of zero bytes. -/
def Rqe.zero : Rqe := ⟨0, 0, 0⟩

-- ============================================================== states

/-- `enum bxroce_qp_foe` -/
inductive QpFoe
  | full
  | empty
  | free
deriving DecidableEq

/-- `enum bxroce_qp_state` -/
inductive QpState
  | rst
  | init
  | rtr
  | rts
  | sqe
  | sqDraining
  | err
  | sqd
deriving DecidableEq

/-- `enum ib_qp_state`, and `enum ibv_qp_state` with its extra value. -/
inductive IbQpState
  | reset
  | init
  | rtr
  | rts
  | sqd
  | sqe
  | err
  | unknown
deriving DecidableEq

/-- `get_bxroce_qp_state`, the same on both sides. -/
def getBxroceQpState : IbQpState → QpState
  | .reset => .rst
  | .init => .init
  | .rtr => .rtr
  | .rts => .rts
  | .sqd => .sqd
  | .sqe => .sqe
  | .err => .err
  | .unknown => .err

-- ========================================================== attributes

/-- `struct qp_change_info`: the page the kernel reports a modified
queue pair's attributes in. -/
structure QpChangeInfo where
  qkey : U32
  signaled : Int
  destqp : U32
  pkeyIndex : U32
  sgidIdx : Int
  macAddr : Vector U8 6
  sgid : Vector U8 16
  dgid : Vector U8 16
deriving DecidableEq

end BxRnic
