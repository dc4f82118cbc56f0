/-
The start of the Ethernet device: `mac_flush_tx_queues` and
`mac_hw_init` (bx_mac_hw.c) under `mac_start` and `mac_open`
(bx_mac_net.c). What `mac_open` allocates is in Mac/Channels.

The device answers a poll of a queue's flush bit as it likes: the answer
is given for every moment of the queue's window, also for those at which
nobody asks. What a step of the initialisation programs is left out;
that the step was made is kept, in order.
-/
import BxRnic.Lib.Field
import BxRnic.Mac.Channels

namespace BxRnic.Mac

/-- `EBUSY` -/
def EBUSY : Int := 16

-- ================================================================= steps

/-- What `mac_hw_init` does once the queues are flushed. -/
inductive HwInitStep
  | configDmaBus
  | configOspMode
  | configPblx8
  | configTxPblVal
  | configRxPblVal
  | configRxCoalesce
  | configTxCoalesce
  | configRxBufferSize
  | configTsoMode
  | configSphMode
  | configRss
  | txDescInit
  | rxDescInit
  | enableDmaInterrupts
  | configEdmaControl
  | configMtlMode
  | configQueueMapping
  | configTsfMode
  | configRsfMode
  | configTxThreshold
  | configRxThreshold
  | configTxFifoSize
  | configRxFifoSize
  | configFlowControlThreshold
  | configRxFepEnable
  | configRxFupEnable
  | enableMtlInterrupts
  | configMacAddress
  | configRxMode
  | configJumboEnable
  | configFlowControl
  | configMacSpeed
  | configChecksumOffload
  | configVlanSupport
  | configMmc
  | enableMacInterrupts
  | axiCfg
  | configRegisters
deriving DecidableEq

open HwInitStep in
/-- The steps of `mac_hw_init`, in its order. -/
def hwInitSteps : List HwInitStep :=
  [ -- DMA
    configDmaBus, configOspMode, configPblx8, configTxPblVal,
    configRxPblVal, configRxCoalesce, configTxCoalesce,
    configRxBufferSize, configTsoMode, configSphMode, configRss,
    HwInitStep.txDescInit, HwInitStep.rxDescInit, enableDmaInterrupts,
    configEdmaControl,
    -- MTL
    configMtlMode, configQueueMapping, configTsfMode, configRsfMode,
    configTxThreshold, configRxThreshold, configTxFifoSize,
    configRxFifoSize, configFlowControlThreshold, configRxFepEnable,
    configRxFupEnable, enableMtlInterrupts,
    -- MAC
    configMacAddress, configRxMode, configJumboEnable,
    configFlowControl, configMacSpeed, configChecksumOffload,
    configVlanSupport, configMmc, enableMacInterrupts, axiCfg,
    configRegisters ]

/-- What `mac_start` does. -/
inductive StartStep
  | hwInit (step : HwInitStep)
  | napiEnable
  | requestIrqs
  | enableTx
  | enableRx
  | startAllQueues
  | modIeuTimer
  | modLinkCheckTimer
  | napiDisable
  | hwExit
deriving DecidableEq

-- ========================================================== environment

/-- What the start meets. -/
structure StartEnv where
  txQCount : Nat
  /-- `MTL_Q_TQOMR` of a queue as it reads before the flush. -/
  tqomr : Nat → U32
  /-- The same register as it would read after so many sleeps of the
  queue's window. -/
  polled : Nat → Nat → U32
  mtu : U32
  /-- The answers of the allocator. -/
  ok : Nat → Bool
  /-- What `mac_request_irqs` returns. -/
  requestIrqs : Int

namespace StartEnv

-- ================================================================= flush

/-- `count` at the start of a queue's window. -/
def flushCount : Nat := 2000

/-- `while (--count && regval) usleep_range(500, 600);`: `count`, which
is not 0 before, as the loop leaves it. -/
def spin (regval : U32) : (count : Nat) → Nat
  | 0 => 0
  | count + 1 =>
      if count ≠ 0 ∧ regval ≠ 0 then spin regval count else count

/-- The values written to the queues' registers to start the flush. -/
def flushRequests (env : StartEnv) : List U32 :=
  (List.range env.txQCount).map fun i => Field.set (env.tqomr i) 0 1 1

/-- The second loop of `mac_flush_tx_queues`, from queue `i` on. -/
def pollQueues (env : StartEnv) : (left i : Nat) → Int
  | 0, _ => 0
  | left + 1, i =>
      -- the register is read once, ahead of the loop
      let regval := Field.get (env.polled i 0) 0 1
      if spin regval flushCount = 0 then -EBUSY
      else env.pollQueues left (i + 1)

/-- `mac_flush_tx_queues`, and what it wrote. -/
def macFlushTxQueues (env : StartEnv) : Int × List U32 :=
  (env.pollQueues env.txQCount 0, env.flushRequests)

-- =============================================================== callers

/-- `mac_hw_init`, and the steps it got to. -/
def macHwInit (env : StartEnv) : Int × List HwInitStep :=
  let ret := env.macFlushTxQueues.1
  if ret ≠ 0 then (ret, []) else (0, hwInitSteps)

/-- `mac_start`, and what it did. -/
def macStart (env : StartEnv) : Int × List StartStep :=
  -- the result of `hw_ops->init` is not looked at
  let done := env.macHwInit.2.map .hwInit ++ [.napiEnable, .requestIrqs]
  if env.requestIrqs ≠ 0 then
    (env.requestIrqs, done ++ [.napiDisable, .hwExit])
  else
    (0, done ++ [.enableTx, .enableRx, .startAllQueues, .modIeuTimer,
      .modLinkCheckTimer])

/-- The environment as `mac_open` sees it. -/
def toOpenEnv (env : StartEnv) : OpenEnv where
  mtu := env.mtu
  ok := env.ok
  flushed := env.macFlushTxQueues.1 = 0
  requestIrqs := env.requestIrqs

end StartEnv

end BxRnic.Mac
