/-
The life of the Ethernet device: opened, restarted and closed
(bx_mac_net.c), one step of a call after the other, with the polls that
run in between.

The calls hold the RTNL, so that one ends before the next begins. The
watchdog of the network core and a fatal bus error make the restart
(`mac_restart`), and so does a change of the MTU; nobody looks at what
`mac_start` returns there. What each call does to the rings and channels
is in Mac/Channels, and what a start programs in Mac/StartUp.

# NAPI

`napi_disable` waits until it has the context to itself, and keeps it. A
second one waits for ever: the thread hangs, with the RTNL.

# What is left out

The work item itself: `mac_open` sets it up anew, also when it is still
queued. Interrupts of single channels, which are not in use.
-/
import BxRnic.Mac.StartUp

namespace BxRnic.Mac

-- ================================================================= steps

/-- What `mac_stop` does. -/
inductive StopStep
  | stopAllQueues
  | stopTimers
  | disableTx
  | disableRx
  | freeIrqs
  | napiDisable
  | hwExit
  | resetQueues
deriving DecidableEq

/-- A step of one of the calls. -/
inductive LifeStep
  | allocChannelsAndRings
  | freeChannelsAndRings
  | freeTxData
  | freeRxData
  /-- The network core hands frames over from here on: `dev_activate`. -/
  | up
  /-- It does not any more: `__LINK_STATE_START` is cleared, and
  `dev_deactivate`. -/
  | down
  /-- A step of `mac_start`, and whether the interrupts are granted. -/
  | start (granted : Bool) (step : StartStep)
  | stop (step : StopStep)
deriving DecidableEq

/-- The steps of `mac_stop`, in its order. -/
def macStop : List LifeStep :=
  [.stop .stopAllQueues, .stop .stopTimers, .stop .disableTx,
    .stop .disableRx, .stop .freeIrqs, .stop .napiDisable, .stop .hwExit,
    .stop .resetQueues]

/-- The steps of `mac_start`. -/
def StartEnv.startSteps (env : StartEnv) : List LifeStep :=
  env.macStart.2.map (.start (decide (env.requestIrqs = 0)))

/-- `mac_restart_dev`, of a device that is running. -/
def StartEnv.restartSteps (env : StartEnv) : List LifeStep :=
  macStop ++ [.freeTxData, .freeRxData] ++ env.startSteps

/-- `mac_open`, once the rings are allocated, and what the core makes of
its return value. -/
def StartEnv.openSteps (env : StartEnv) : List LifeStep :=
  .allocChannelsAndRings :: env.startSteps
    ++ if env.macStart.1 = 0 then [.up]
      else [.freeChannelsAndRings, .down]

/-- `mac_close`, which the core deactivates the device for. -/
def closeSteps : List LifeStep :=
  .down :: macStop ++ [.freeChannelsAndRings]

-- ================================================================= state

/-- What the device has, and what is on. -/
structure NetFlags where
  /-- `netif_running` -/
  running : Bool
  /-- The core hands frames over, if the queues are awake. -/
  active : Bool
  rings : Bool
  napi : Bool
  irq : Bool
  tx : Bool
  rx : Bool
  /-- The queues are awake. -/
  queues : Bool
  ieuTimer : Bool
  linkCheckTimer : Bool
  /-- The thread with the RTNL waits for ever. -/
  hung : Bool
deriving DecidableEq

/-- The device, and what is left of the call that has the RTNL. -/
structure NetLife where
  dev : NetFlags
  todo : List LifeStep

namespace NetFlags

/-- Nothing is on. -/
def off : NetFlags :=
  ⟨false, false, false, false, false, false, false, false, false, false,
    false⟩

/-- `mac_napi_disable` -/
def napiDisable (d : NetFlags) : NetFlags :=
  if d.napi then { d with napi := false } else { d with hung := true }

/-- The reset of the device, which stops its DMA. -/
def hwExit (d : NetFlags) : NetFlags := { d with tx := false, rx := false }

/-- A step of `mac_start`. -/
def startStep (d : NetFlags) (granted : Bool) : StartStep → NetFlags
  | .hwInit _ => d
  | .napiEnable => { d with napi := true }
  | .requestIrqs => { d with irq := granted }
  | .enableTx => { d with tx := true }
  | .enableRx => { d with rx := true }
  | .startAllQueues => { d with queues := true }
  | .modIeuTimer => { d with ieuTimer := true }
  | .modLinkCheckTimer => { d with linkCheckTimer := true }
  | .napiDisable => d.napiDisable
  | .hwExit => d.hwExit

/-- A step of `mac_stop`. -/
def stopStep (d : NetFlags) : StopStep → NetFlags
  | .stopAllQueues => { d with queues := false }
  | .stopTimers => { d with ieuTimer := false, linkCheckTimer := false }
  | .disableTx => { d with tx := false }
  | .disableRx => { d with rx := false }
  | .freeIrqs => { d with irq := false }
  | .napiDisable => d.napiDisable
  | .hwExit => d.hwExit
  | .resetQueues => d

/-- A step, unless the thread hangs. -/
def apply (d : NetFlags) (step : LifeStep) : NetFlags :=
  if d.hung then d
  else
    match step with
    | .allocChannelsAndRings => { d with rings := true }
    | .freeChannelsAndRings => { d with rings := false }
    | .freeTxData => d
    | .freeRxData => d
    | .up => { d with active := true }
    | .down => { d with running := false, active := false }
    | .start granted step => d.startStep granted step
    | .stop step => d.stopStep step

/-- The steps that are left are made. -/
def run (d : NetFlags) (todo : List LifeStep) : NetFlags :=
  todo.foldl apply d

end NetFlags

-- ================================================================= calls

/-- The step frees what the rings hold, or has to wait until they are set
up again. -/
def LifeStep.quiet : LifeStep → Bool
  | .freeTxData => true
  | .freeRxData => true
  | .start _ .startAllQueues => true
  | _ => false

/-- The rings are being emptied and set up again: the queues have been
stopped, and not been started yet. -/
def Torn (todo : List LifeStep) : Prop :=
  .stop .stopAllQueues ∉ todo ∧ todo.any LifeStep.quiet = true

/-- The calls that hold the RTNL. -/
inductive RtnlCall
  /-- The core opens the device; the answer of the allocation. -/
  | open (alloc : Int) (env : StartEnv)
  | close
  /-- `mac_restart` -/
  | restart (env : StartEnv)
  /-- `mac_change_mtu`, to the MTU of the environment. -/
  | changeMtu (env : StartEnv)

/-- What happens. -/
inductive LifeAct
  | call (c : RtnlCall)
  /-- The call that has the RTNL makes a step. -/
  | tick
  /-- `mac_all_poll`; it may have reason to wake the queues. -/
  | poll (wakes : Bool)
  /-- `mac_xmit`, after which there may be no room for another frame. -/
  | xmit (full : Bool)

namespace NetLife

variable (s : NetLife)

/-- The device as `mac_drv_probe` leaves it. -/
def probed : NetLife := ⟨.off, []⟩

/-- The device once the call that has the RTNL is through. -/
def finish : NetFlags := s.dev.run s.todo

/-- What a call is going to do. The core opens a device that is not
running, and closes one that is. -/
def begin : RtnlCall → NetLife
  | .open alloc env =>
      if s.dev.running then s
      else
        match calcRxBufSize env.mtu with
        | none => s
        | some _ =>
            if alloc ≠ 0 then s
            else ⟨{ s.dev with running := true }, env.openSteps⟩
  | .close => if s.dev.running then ⟨s.dev, closeSteps⟩ else s
  | .restart env =>
      if s.dev.running then ⟨s.dev, env.restartSteps⟩ else s
  | .changeMtu env =>
      match calcRxBufSize env.mtu with
      | none => s
      | some _ => if s.dev.running then ⟨s.dev, env.restartSteps⟩ else s

/-- What happens to the device. -/
def step : LifeAct → NetLife
  | .call c => if s.todo = [] ∧ s.dev.hung = false then s.begin c else s
  | .tick =>
      match s.todo with
      | [] => s
      | step :: rest =>
          if s.dev.hung then s else ⟨s.dev.apply step, rest⟩
  | .poll wakes =>
      if s.dev.napi ∧ wakes then
        { s with dev := { s.dev with queues := true } }
      else s
  | .xmit full =>
      if s.dev.active ∧ s.dev.queues ∧ full then
        { s with dev := { s.dev with queues := false } }
      else s

end NetLife

end BxRnic.Mac
