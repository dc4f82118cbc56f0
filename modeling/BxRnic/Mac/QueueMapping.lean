/-
How the queues of the MAC are mapped: transmit queues to traffic classes,
VLAN priorities to receive queues, and receive queues to channels
(`mac_config_queue_mapping`, bx_mac_hw.c).

# What is left out

The debug messages.
-/
import BxRnic.Lib.Deal
import BxRnic.Mac.RxFilter

namespace BxRnic.Mac

-- ============================================================= registers

def MTL_RQDCM0R : Nat := 0x1030
def MTL_RQDCM_INC : Nat := 4
def MTL_Q_BASE : Nat := 0x1100
def MTL_Q_INC : Nat := 0x80
def MTL_Q_TQOMR : Nat := 0x00
def MAC_RQMC : Nat := 0x0160
def MAC_RQMC_INC : Nat := 4
def MAC_RQMC_Q_PER_REG : Nat := 4
def IEEE_8021QAZ_MAX_TCS : Nat := 8

/-- `MAC_MTL_REG` -/
def MAC_MTL_REG (n reg : Nat) : Nat := MTL_Q_BASE + n * MTL_Q_INC + reg

/-- `MTL_RQDCM0R_Q0MDMACH` to `MTL_RQDCM2R_Q11MDMACH`, as they are put
together for each register. -/
def rqdcm0 : U32 := 0x0 ||| 0x00000100 ||| 0x00020000 ||| 0x03000000
def rqdcm1 : U32 :=
  0x00000004 ||| 0x00000500 ||| 0x00060000 ||| 0x07000000
def rqdcm2 : U32 :=
  0x00000008 ||| 0x00000900 ||| 0x000A0000 ||| 0x0B000000

-- ================================================================= state

/-- The counts of `struct mac_pdata` that the mapping depends on, with the
registers. -/
structure QueueDev where
  txQCount : Nat
  rxQCount : Nat
  /-- `hw_feat.tc_cnt`, one more than a field of three bits. -/
  tcCnt : Nat
  regs : MacRegs
  rxQCount_pos : 0 < rxQCount
  tcCnt_pos : 0 < tcCnt
  tcCnt_le : tcCnt ≤ 8

-- ============================================================== transmit

/-- The body of the inner loop: the next queue goes to class `i`. -/
def mapTxq (i : Nat) (s : Nat × MacRegs) : Nat × MacRegs :=
  (s.1 + 1,
    s.2.setField (MAC_MTL_REG s.1 MTL_Q_TQOMR) 8 3 (BitVec.ofNat 32 i))

/-- The body of the outer loop. -/
def mapTxTc (qptc qptcExtra i : Nat) (s : Nat × MacRegs) :
    Nat × MacRegs :=
  let s := (mapTxq i)^[qptc] s
  if i < qptcExtra then mapTxq i s else s

/-- The loop over the first `n` classes. -/
def mapTxTcs (qptc qptcExtra : Nat) : (n : Nat) → MacRegs → Nat × MacRegs
  | 0, regs => (0, regs)
  | n + 1, regs =>
      mapTxTc qptc qptcExtra n (mapTxTcs qptc qptcExtra n regs)

-- =============================================================== receive

/-- The variables of the loop over the receive queues. -/
structure RqmcLoop where
  prio : Nat
  reg : Nat
  regval : U32
  regs : MacRegs

/-- The body of the inner loop: the next priority goes into the mask. -/
def addPrio (s : U32 × Nat) : U32 × Nat :=
  (s.1 ||| ((1 : U32) <<< s.2), s.2 + 1)

/-- The mask of queue `i`, and the next priority. -/
def queueMask (ppq ppqExtra i prio : Nat) : U32 × Nat :=
  let s := addPrio^[ppq] (0, prio)
  if i < ppqExtra then addPrio s else s

/-- The body of the outer loop. -/
def mapRxq (ppq ppqExtra prioQueues i : Nat) (s : RqmcLoop) : RqmcLoop :=
  let (mask, prio) := queueMask ppq ppqExtra i s.prio
  let regval :=
    s.regval ||| (mask <<< ((i % MAC_RQMC_Q_PER_REG) <<< 3))
  let i := i + 1
  if i % MAC_RQMC_Q_PER_REG ≠ 0 ∧ i ≠ prioQueues then
    { s with prio := prio, regval := regval }
  else
    { prio := prio
      reg := s.reg + MAC_RQMC_INC
      regval := 0
      regs := s.regs.writel regval s.reg }

/-- The loop over the first `n` receive queues. -/
def mapRxqs (ppq ppqExtra prioQueues : Nat) :
    (n : Nat) → MacRegs → RqmcLoop
  | 0, regs => { prio := 0, reg := MAC_RQMC, regval := 0, regs := regs }
  | n + 1, regs =>
      mapRxq ppq ppqExtra prioQueues n
        (mapRxqs ppq ppqExtra prioQueues n regs)

/-- Bits are set in a register: `readl`, `|=`, `writel`. -/
def MacRegs.orl (regs : MacRegs) (bits : U32) (addr : Nat) : MacRegs :=
  regs.writel (regs addr ||| bits) addr

/-- The one to one mapping of receive queues to channels. -/
def mapDmaChannels (regs : MacRegs) : MacRegs :=
  ((regs.orl rqdcm0 MTL_RQDCM0R).orl rqdcm1
      (MTL_RQDCM0R + MTL_RQDCM_INC)).orl rqdcm2
    (MTL_RQDCM0R + MTL_RQDCM_INC + MTL_RQDCM_INC)

-- ============================================================= the whole

/-- `prio_queues` -/
def QueueDev.prioQueues (dev : QueueDev) : Nat :=
  min IEEE_8021QAZ_MAX_TCS dev.rxQCount

/-- `mac_config_queue_mapping` -/
def QueueDev.configQueueMapping (dev : QueueDev) : QueueDev :=
  let (_, regs) :=
    mapTxTcs (dev.txQCount / dev.tcCnt) (dev.txQCount % dev.tcCnt)
      dev.tcCnt dev.regs
  let s :=
    mapRxqs (IEEE_8021QAZ_MAX_TCS / dev.prioQueues)
      (IEEE_8021QAZ_MAX_TCS % dev.prioQueues) dev.prioQueues
      dev.prioQueues regs
  { dev with regs := mapDmaChannels s.regs }

-- ====================================================== what is in effect

/-- The class of transmit queue `q`: `MTL_Q_TQOMR_Q2TCMAP`. -/
def txClass (regs : MacRegs) (q : Nat) : U32 :=
  regs.getField (MAC_MTL_REG q MTL_Q_TQOMR) 8 3

/-- Frames of priority `p` go to receive queue `i`: the bit of the byte of
the queue in `MAC_RQMC` and the registers after it. -/
def takesPrio (regs : MacRegs) (i p : Nat) : Bool :=
  (regs (MAC_RQMC + MAC_RQMC_INC * (i / MAC_RQMC_Q_PER_REG))).getLsbD
    (8 * (i % MAC_RQMC_Q_PER_REG) + p)

/-- The channel of receive queue `i`: its byte in `MTL_RQDCM0R` and the
registers after it. -/
def dmaChannel (regs : MacRegs) (i : Nat) : U32 :=
  regs.getField (MTL_RQDCM0R + MTL_RQDCM_INC * (i / 4)) (8 * (i % 4)) 8

end BxRnic.Mac
