/-
One queue pair seen from both sides: the library's object and the
driver's, and the two calls that are meant to keep their states in step.

`ibv_cmd_modify_qp` and `ibv_cmd_query_qp` pass through the verbs core,
which may refuse a call before the driver sees it (`coreOk`). The
driver's query fills in no attribute, so the state the library reads out
of them is whatever the core's buffer held (`attrState`).
-/
import BxRnic.User.Lifecycle
import BxRnic.Kernel.ModifyQp

namespace BxRnic

/-- Both sides' queue pair. -/
structure QpPair where
  user : User.Qp
  kernel : Kernel.Qp

/-- A call of the application. -/
inductive QpCall
  | modify (attr : Kernel.QpAttr) (mask : Kernel.AttrMask) (coreOk : Bool)
  | query (coreOk : Bool) (attrState : IbQpState)

/-- `ibv_cmd_modify_qp`: the core's refusal, or the driver's status as
an error number. -/
def ibvCmdModifyQp (qp : Kernel.Qp) (attr : Kernel.QpAttr)
    (mask : Kernel.AttrMask) (coreOk : Bool) : Int × Kernel.Qp :=
  if coreOk then
    let (status, qp) := Kernel.modifyQp qp attr mask
    (-status, qp)
  else (EINVAL, qp)

/-- `ibv_cmd_query_qp` -/
def ibvCmdQueryQp (qp : Kernel.Qp) (coreOk : Bool) : Int :=
  if coreOk then -Kernel.queryQp qp else EINVAL

/-- The library's `bxroce_modify_qp` and `bxroce_query_qp`, with the
driver underneath: the status returned, and both queue pairs after. -/
def QpPair.call (s : QpPair) : QpCall → Int × QpPair
  | .modify attr mask coreOk =>
      let (status, kernel) := ibvCmdModifyQp s.kernel attr mask coreOk
      let (status, user) :=
        User.modifyQp s.user status mask.state attr.qpState kernel.page
      (status, ⟨user, kernel⟩)
  | .query coreOk attrState =>
      let status := ibvCmdQueryQp s.kernel coreOk
      let (status, user) := User.queryQp s.user status attrState
      (status, ⟨user, s.kernel⟩)

/-- The state after a call. -/
def QpPair.step (s : QpPair) (c : QpCall) : QpPair := (s.call c).2

/-- The states correspond, and so the library takes and refuses work as
the driver would. -/
structure QpPair.Corresponds (s : QpPair) : Prop where
  state : s.user.qpState = s.kernel.qpState
  send : User.postSendAllowed s.user.qpState
    = Kernel.postSendAllowed s.kernel.qpState
  recv : User.postRecvAllowed s.user.qpState
    = Kernel.postRecvAllowed s.kernel.qpState

end BxRnic
