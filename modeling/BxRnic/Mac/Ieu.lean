/-
The interrupt enable unit (bx_ieu.c), as a driver that is built for legacy
interrupts uses it (`RNIC_LEGACY_INT_EN`): what the handler, the timers and
the poll do to its registers.

Nothing keeps these apart. The handler and the transmit timer change
`0x0c80` by reading it and writing it back.
-/
import BxRnic.Lib.Race
import BxRnic.Pcs.Port

namespace BxRnic.Mac

open Window Pcs

/-- A sequence of accesses to the unit. -/
abbrev IeuSeq := Prog U32 U32

-- ========================================================== the registers

/-- Pending interrupts; a bit written as 1 is cleared. -/
def IEU_CLEAR : U32 := 0x0c28

/-- The transmit and receive interrupts of the channels of MAC 0. -/
def IEU_TX_RX_EN : U32 := 0x0c80

/-- The other interrupts, that of the DMA status among them (`sbd`). -/
def IEU_SBD_EN : U32 := 0x0c84

-- ========================================================== the functions

/-- `ieu_clear_intr_all` -/
def ieuClearIntrAll (next : IeuSeq) : IeuSeq :=
  .write IEU_CLEAR 0xffffffff next

/-- Bits `h` down to `l` of `0x0c80` are taken down. -/
def ieuDisableBits (h l : Nat) (next : IeuSeq) : IeuSeq :=
  .read IEU_TX_RX_EN fun data =>
    .write IEU_TX_RX_EN (setBits data h l 0) next

/-- `ieu_disable_intr_one` -/
def ieuDisableIntrOne (index : Nat) (next : IeuSeq) : IeuSeq :=
  ieuDisableBits index index next

/-- `ieu_disable_intr_tx_one` -/
def ieuDisableIntrTxOne (index : Nat) (next : IeuSeq) : IeuSeq :=
  ieuDisableIntrOne index next

/-- `ieu_disable_intr_rx_one` -/
def ieuDisableIntrRxOne (index : Nat) (next : IeuSeq) : IeuSeq :=
  ieuDisableIntrOne (index + 7) next

/-- `ieu_disable_intr_tx_all` -/
def ieuDisableIntrTxAll (next : IeuSeq) : IeuSeq :=
  ieuDisableBits 6 0 next

/-- `ieu_disable_intr_rx_all` -/
def ieuDisableIntrRxAll (next : IeuSeq) : IeuSeq :=
  ieuDisableBits 13 7 next

/-- `ieu_disable_intr_tx_rx_all` -/
def ieuDisableIntrTxRxAll (next : IeuSeq) : IeuSeq :=
  ieuDisableIntrTxAll (ieuDisableIntrRxAll next)

/-- `ieu_enable_intr_tx_rx_all`: with legacy interrupts it does not write
`0x0c80`. -/
def ieuEnableIntrTxRxAll (next : IeuSeq) : IeuSeq :=
  ieuClearIntrAll (.write IEU_SBD_EN 0x1 next)

/-- `ieu_init` -/
def ieuInit (next : IeuSeq) : IeuSeq :=
  .writes [(0x00c8, 0xffffffff), (0x000c, 0xf), (0x0c74, 0x0)]
    (ieuEnableIntrTxRxAll next)

-- ============================================================== the callers

/-- What is done to the unit while the interface is up. -/
inductive IeuCall
  /-- `mac_disable_rx_tx_ints`: the handler or the transmit timer has
  scheduled the poll. -/
  | disableRxTxInts
  /-- `mac_isr` has found the last channel with something to do. -/
  | lastChannel
  /-- `mac_enable_rx_tx_ints`: the poll is done. -/
  | enableRxTxInts
  /-- `ieu_clear_intr_all_timer` -/
  | clearIntrAllTimer
deriving DecidableEq

/-- The accesses of a call. -/
def IeuCall.seq : IeuCall → IeuSeq
  | .disableRxTxInts => ieuDisableIntrTxRxAll .done
  | .lastChannel => ieuDisableIntrTxOne 6 (ieuDisableIntrRxOne 6 .done)
  | .enableRxTxInts => ieuEnableIntrTxRxAll .done
  | .clearIntrAllTimer => ieuClearIntrAll .done

/-- What can happen on the CPUs. -/
inductive IeuEvent
  | call (cpu : Nat) (call : IeuCall)
  | access (cpu : Nat)

/-- The event at the registers. -/
def IeuEvent.event : IeuEvent → RaceEvent Nat U32 U32
  | .call cpu made => .begin cpu made.seq
  | .access cpu => .access cpu

/-- The registers and the CPUs. -/
abbrev Ieu := Race Nat U32 U32

/-- The state after an event. -/
def Ieu.step (w : Ieu) (e : IeuEvent) : Ieu := Race.step w e.event

end BxRnic.Mac
