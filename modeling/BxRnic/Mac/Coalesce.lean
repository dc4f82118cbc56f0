/-
Interrupt coalescing: `mac_ethtool_set_coalesce` and
`mac_ethtool_get_coalesce` (bx_mac_ethtool.c), the receive watchdog behind
them (bx_mac_hw.c), and the interrupts that `mac_dev_xmit` asks for.

The two directions have nothing to do with each other. The receive side
is a timer of the NIC, in units of 256 clock cycles, 8 bits wide; the
driver converts from microseconds. The transmit side is a count the
driver keeps.
-/
import BxRnic.Hw
import BxRnic.Mac.RxFilter
import BxRnic.Mac.TxRing

namespace BxRnic.Mac

-- ============================================================== the settings

def DMA_CH_BASE : Nat := 0x3100
def DMA_CH_INC : Nat := 0x80
def DMA_CH_RIWT : Nat := 0x3c

/-- `MAC_MAX_DMA_RIWT` -/
def maxDmaRiwt : U32 := 0xff

/-- `MAC_MIN_DMA_RIWT` -/
def minDmaRiwt : U32 := 0x01

/-- `MAC_INIT_DMA_RX_USECS`, `MAC_INIT_DMA_RX_FRAMES` and
`MAC_INIT_DMA_TX_FRAMES` -/
def initDmaRxUsecs : U32 := 54
def initDmaRxFrames : U32 := 25
def initDmaTxFrames : U32 := 25

/-- `MAC_SYSCLOCK` -/
def sysclock : Nat := 1200000000

/-- `struct ethtool_coalesce`, as far as it is looked at. -/
structure EthtoolCoalesce where
  rxCoalesceUsecs : U32
  rxMaxCoalescedFrames : U32
  rxCoalesceUsecsIrq : U32
  rxMaxCoalescedFramesIrq : U32
  txCoalesceUsecs : U32
  txMaxCoalescedFrames : U32
  txCoalesceUsecsIrq : U32
  txMaxCoalescedFramesIrq : U32
  statsBlockCoalesceUsecs : U32
  useAdaptiveRxCoalesce : U32
  useAdaptiveTxCoalesce : U32
  pktRateLow : U32
  rxCoalesceUsecsLow : U32
  rxMaxCoalescedFramesLow : U32
  txCoalesceUsecsLow : U32
  txMaxCoalescedFramesLow : U32
  pktRateHigh : U32
  rxCoalesceUsecsHigh : U32
  rxMaxCoalescedFramesHigh : U32
  txCoalesceUsecsHigh : U32
  txMaxCoalescedFramesHigh : U32
  rateSampleInterval : U32
deriving DecidableEq

/-- `memset(ec, 0, sizeof(struct ethtool_coalesce))` -/
def EthtoolCoalesce.zero : EthtoolCoalesce :=
  ⟨0, 0, 0, 0, 0, 0, 0, 0, 0, 0, 0, 0, 0, 0, 0, 0, 0, 0, 0, 0, 0, 0⟩

/-- What may not be asked for. -/
def EthtoolCoalesce.notSupported (ec : EthtoolCoalesce) : List U32 :=
  [ec.rxCoalesceUsecsIrq, ec.rxMaxCoalescedFramesIrq, ec.txCoalesceUsecs,
    ec.txCoalesceUsecsHigh, ec.txMaxCoalescedFramesIrq,
    ec.txCoalesceUsecsIrq, ec.statsBlockCoalesceUsecs, ec.pktRateLow,
    ec.useAdaptiveRxCoalesce, ec.useAdaptiveTxCoalesce,
    ec.rxMaxCoalescedFramesLow, ec.rxCoalesceUsecsLow,
    ec.txCoalesceUsecsLow, ec.txMaxCoalescedFramesLow, ec.pktRateHigh,
    ec.rxCoalesceUsecsHigh, ec.rxMaxCoalescedFramesHigh,
    ec.txMaxCoalescedFramesHigh, ec.rateSampleInterval]

/-- `struct mac_pdata`, as far as coalescing goes, with the registers. -/
structure CoalescePdata where
  sysclkRate : Nat
  rxDescCount : U32
  txDescCount : U32
  /-- Which of the channels have a receive ring. -/
  rxRings : List Bool
  rxRiwt : U32
  rxUsecs : U32
  rxFrames : U32
  txFrames : U32
  regs : MacRegs

-- ============================================================= the functions

/-- `EOPNOTSUPP` -/
def EOPNOTSUPP : Int := 95

/-- `mac_usec_to_riwt`: the product and the quotient are 64 bits wide, and
of the quotient the low 32 bits are returned. -/
def usecToRiwt (sysclkRate : Nat) (usec : U32) : U32 :=
  BitVec.ofNat 32 (usec.toNat * (sysclkRate / 1000000) / 256)

/-- The watchdog register of a channel. -/
def riwtReg (channel : Nat) : Nat :=
  DMA_CH_BASE + channel * DMA_CH_INC + DMA_CH_RIWT

/-- The loop of `mac_config_rx_coalesce`, from a channel on. -/
def configRxCoalesceFrom (rxRiwt : U32) :
    (channel : Nat) → List Bool → MacRegs → MacRegs
  | _, [], regs => regs
  | _, false :: _, regs => regs
  | channel, true :: rest, regs =>
      configRxCoalesceFrom rxRiwt (channel + 1) rest
        (regs.setField (riwtReg channel) 0 8 rxRiwt)

/-- `mac_config_rx_coalesce` -/
def CoalescePdata.configRxCoalesce (p : CoalescePdata) : CoalescePdata :=
  { p with regs := configRxCoalesceFrom p.rxRiwt 0 p.rxRings p.regs }

/-- `mac_ethtool_get_coalesce` -/
def CoalescePdata.getCoalesce (p : CoalescePdata) : EthtoolCoalesce :=
  { EthtoolCoalesce.zero with
    rxCoalesceUsecs := p.rxUsecs
    rxMaxCoalescedFrames := p.rxFrames
    txMaxCoalescedFrames := p.txFrames }

/-- `mac_ethtool_set_coalesce`; `mac_config_tx_coalesce` does nothing. -/
def CoalescePdata.setCoalesce (p : CoalescePdata) (ec : EthtoolCoalesce) :
    Int × CoalescePdata :=
  if ec.notSupported.any (· ≠ 0) then (-EOPNOTSUPP, p)
  else
    let rxRiwt := usecToRiwt p.sysclkRate ec.rxCoalesceUsecs
    if rxRiwt > maxDmaRiwt ∨ rxRiwt < minDmaRiwt
        ∨ ec.rxMaxCoalescedFrames > p.rxDescCount then (-EINVAL, p)
    else if ec.txMaxCoalescedFrames > p.txDescCount then (-EINVAL, p)
    else
      let p :=
        { p with
          rxRiwt := rxRiwt
          rxUsecs := ec.rxCoalesceUsecs
          rxFrames := ec.rxMaxCoalescedFrames }.configRxCoalesce
      (0, { p with txFrames := ec.txMaxCoalescedFrames })

/-- What `mac_init` and then `mac_hw_init` make of the settings. -/
def CoalescePdata.started (rxDescCount txDescCount : U32)
    (rxRings : List Bool) (regs : MacRegs) : CoalescePdata :=
  CoalescePdata.configRxCoalesce
    { sysclkRate := sysclock
      rxDescCount := rxDescCount
      txDescCount := txDescCount
      rxRings := rxRings
      rxRiwt := usecToRiwt sysclock initDmaRxUsecs
      rxUsecs := initDmaRxUsecs
      rxFrames := initDmaRxFrames
      txFrames := initDmaTxFrames
      regs := regs }

/-- A call of `ETHTOOL_SCOALESCE`. -/
def CoalescePdata.step (p : CoalescePdata) (ec : EthtoolCoalesce) :
    CoalescePdata := (p.setCoalesce ec).2

-- ======================================================== transmit interrupts

/-- The last descriptor in the ring asks for an interrupt. -/
def TxRing.lastIc (ring : TxRing) : Bool :=
  Field.get (ring.dmaDescs (ring.entry (ring.cur - 1))).desc2 31 1 = 1

/-- How many packets were reported with the last descriptor. -/
def TxRing.lastPackets (ring : TxRing) : U32 :=
  (ring.descDataHead (ring.entry (ring.cur - 1))).packets

/-- A channel, with the packets that were handed to the NIC since the last
of which the NIC will interrupt (or since the setting was changed). -/
structure Signalled where
  ch : TxChannel
  pending : Nat

/-- What happens to a channel and to the setting. -/
inductive SignalAct
  | act (act : ChannelAct)
  /-- `mac_ethtool_set_coalesce` -/
  | setTxFrames (txFrames : U32)

/-- One action. -/
def Signalled.step (s : Signalled) : SignalAct → Signalled
  | .act act =>
      let ch := s.ch.step act
      let sent := ch.logs.accepted.length ≠ s.ch.logs.accepted.length
      { ch := ch
        pending :=
          if sent then
            if ch.ring.lastIc then 0
            else s.pending + ch.ring.lastPackets.toNat
          else s.pending }
  | .setTxFrames txFrames =>
      { ch := { s.ch with txFrames := txFrames }, pending := 0 }

/-- A channel that has just been started. -/
def Signalled.fresh (txFrames : U32) : Signalled := ⟨.fresh txFrames, 0⟩

end BxRnic.Mac
