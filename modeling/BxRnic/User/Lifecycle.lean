/-
The life of a user-space queue pair outside the data path: creation from
the kernel's response, and the library's own state machine, which
`bxroce_modify_qp` and `bxroce_query_qp` feed.

# The state machine

`bxroce_qp_state_machine` knows the transitions of its table only; any
other target leaves the state. Its callers throw its result away. What
the two callers hand it comes from the kernel's side and is an argument
here.
-/
import BxRnic.User.Qp

namespace BxRnic.User

-- ============================================================== creation

/-- What `bxroce_create_qp` builds a queue pair from: the kernel's
response, the caller's attributes, and the contents of the memory it
maps or allocates without clearing. The rings have room. -/
structure CreateQp where
  qpId : U32
  qpType : QpType
  numWqeAllocated : Nat
  numRqeAllocated : Nat
  maxSendSge : Nat
  maxRecvSge : Nat
  sqSigAll : Int
  sqVa : Nat → Wqe
  rqVa : Nat → Rqe
  addrtbl : QpAddrtbl
  numWqe_pos : 0 < numWqeAllocated
  numRqe_pos : 0 < numRqeAllocated

/-- The attributes of a queue pair that was never modified. -/
def QpChangeInfo.initial (sqSigAll : Int) : QpChangeInfo where
  qkey := 0
  signaled := sqSigAll
  destqp := 0
  pkeyIndex := 0
  sgidIdx := 0
  macAddr := Vector.replicate 6 0
  sgid := Vector.replicate 16 0
  dgid := Vector.replicate 16 0

/-- `bxroce_create_qp`: a cleared queue pair, filled in. -/
def createQp (c : CreateQp) : Qp where
  id := c.qpId
  qpType := c.qpType
  qpState := .rst
  sq :=
    { maxSges := c.maxSendSge
      head := 0
      tail := 0
      maxCnt := c.numWqeAllocated
      maxWqeIdx := c.numWqeAllocated - 1
      overhead := c.numWqeAllocated - 1 + 1
      qpFoe := .full }
  rq :=
    { maxSges := c.maxRecvSge
      head := 0
      tail := 0
      maxCnt := c.numRqeAllocated
      maxWqeIdx := c.numRqeAllocated - 1
      overhead := 0
      qpFoe := .full }
  sqVa := c.sqVa
  rqVa := c.rqVa
  wqeWrIdTbl := fun _ => ⟨0, false⟩
  rqeWrIdTbl := fun _ => 0
  rdmaAddr := 0
  addrtbl := c.addrtbl
  attr := QpChangeInfo.initial c.sqSigAll

-- ========================================================= state machine

/-- The transitions of `bxroce_qp_state_machine`, other than staying. -/
def allowed : QpState → QpState → Bool
  | .rst, .init => true
  | .init, .rtr => true
  | .init, .err => true
  | .rtr, .rts => true
  | .rtr, .err => true
  | .rts, .err => true
  | .err, .rst => true
  | _, _ => false

/-- Both queues at their start, as RESET→INIT leaves them. -/
def Qp.initPointers (qp : Qp) : Qp :=
  { qp with
    sq := { qp.sq with head := 0, tail := 0, qpFoe := .empty }
    rq := { qp.rq with head := 0, tail := 0, qpFoe := .empty } }

/-- `bxroce_qp_state_machine` -/
def qpStateMachine (qp : Qp) (newIbState : IbQpState) : Int × Qp :=
  let newState := getBxroceQpState newIbState
  if newState = qp.qpState then (1, qp)
  else if allowed qp.qpState newState then
    let qp :=
      if qp.qpState = .rst ∧ newState = .init then qp.initPointers else qp
    (0, { qp with qpState := newState })
  else (EINVAL, qp)

theorem qpStateMachine_state (qp : Qp) (newIbState : IbQpState) :
    (qpStateMachine qp newIbState).2.qpState
      = if allowed qp.qpState (getBxroceQpState newIbState) then
          getBxroceQpState newIbState
        else qp.qpState := by
  unfold qpStateMachine
  by_cases hsame : getBxroceQpState newIbState = qp.qpState
  · simp [hsame]
  · simp only [if_neg hsame]
    split <;> rfl

-- ======================================================== modify and query

/-- `bxroce_modify_qp`, from the kernel's status on: the state machine
runs on success, and the attributes are taken over from the shared page
in any case. -/
def modifyQp (qp : Qp) (status : Int) (setsState : Bool)
    (newIbState : IbQpState) (page : QpChangeInfo) : Int × Qp :=
  let qp :=
    if status = 0 ∧ setsState then (qpStateMachine qp newIbState).2 else qp
  (status, { qp with attr := page })

/-- `bxroce_query_qp`, from the kernel's status on: the state machine is
fed the state of the returned attributes. -/
def queryQp (qp : Qp) (status : Int) (attrState : IbQpState) : Int × Qp :=
  if status = 0 then (status, (qpStateMachine qp attrState).2)
  else (status, qp)

-- =============================================================== the gates

/-- The state test in front of `bxroce_post_send`. -/
def postSendAllowed (state : QpState) : Bool :=
  state = .rts || state = .sqd

/-- The state test in front of `bxroce_post_recv`. -/
def postRecvAllowed (state : QpState) : Bool :=
  !(state = .rst || state = .err)

end BxRnic.User
