/-
The link check of port 0 (`rnic_link_check_timer`, bx_mac_net.c): it
looks whether the link is up, and starts and watches auto-negotiation
and training until both have succeeded.

The MAC's link status is another device's register; what it reads at
each look of a tick is given with the tick, and so is the random number.
Nobody arms `an_restart_lock_timer`, and the other timers do not touch
the link.
-/
import BxRnic.Pcs.Training

namespace BxRnic.Pcs

def SR_PCS_STS1 : Nat := 0x30001
def RNIC_MAX_LINK_DOWN_CNT : U32 := 3
def PCS_AN_MAX_INTR_CHECK_CNT : U32 := 10000

variable {H : Type} (hw : PcsHw H)

-- ================================================================ state

/-- What the link check keeps beside the fields of the ports. -/
structure LinkState (H : Type) where
  nic : Nic H
  /-- `pcs_0_link_up_only` -/
  linkUpOnly : U32
  /-- `port_0_link_down_cnt` -/
  linkDownCnt : U32
  /-- `pdata->link_up`, which is 2 until the first tick. -/
  linkUp : U32

/-- What a tick meets outside the PCS. -/
structure Tick where
  /-- The MAC's register of the link status at the look with so many
  looks to go. -/
  macReg : Nat → U32
  /-- `get_random_num` -/
  random : U32

/-- The fields of a port as `mpu_init` leaves them, whatever it
configures. -/
def PcsFields.init (f : PcsFields) : PcsFields :=
  { f with
    anNxpIndex := 0
    anStart := 0
    anRestartLock := 0
    anRcvCnt := 0
    anIntrCheckCnt := 0
    anSuccess := 0
    krtStart := 0
    krtSuccess := 0
    krtFailed := 0 }

/-- The state the first tick meets. -/
def LinkState.init (nic : Nic H) (linkUpOnly : U32) : LinkState H where
  nic := { nic with pcs0 := nic.pcs0.init }
  linkUpOnly := linkUpOnly
  linkDownCnt := 0
  linkUp := 2

-- ================================================================= looks

/-- `pcs_get_rlu` -/
def pcsGetRlu (portId : Port) : Driver H U32 := do
  let data ← pcsRegRead hw portId SR_PCS_STS1
  pure (getBits data 2 2)

/-- `mac_get_link_status`, of the register's value. -/
def macGetLinkStatus (data : U32) : U32 := getBits data 25 24

/-- `while(--retry_cnt)`: whether the link is seen up before the count
runs out. -/
def linkSeen (tick : Tick) : (retryCnt : Nat) → Driver H Bool
  | 0 => pure false
  | retryCnt + 1 =>
      if retryCnt = 0 then pure false
      else do
        let pcsRlu ← pcsGetRlu hw .zero
        let macLs := macGetLinkStatus (tick.macReg retryCnt)
        if pcsRlu = 1 ∧ macLs = 0 then pure true
        else linkSeen tick retryCnt

-- ========================================================== negotiation

/-- `pcs_an_get_intr` -/
def pcsAnGetIntr (portId : Port) : Driver H U32 := do
  let data ← pcsRegRead hw portId VR_AN_INTR
  pure (getBits data 2 0)

/-- `(get_random_num() % PCS_LINK_CHECK_SLOW_TIMER_USECS) + 1` -/
def randomUsecs (random : U32) : U32 :=
  random % PCS_LINK_CHECK_SLOW_TIMER_USECS + 1

/-- `pcs_an_inc_link` -/
def pcsAnIncLink (portId : Port) (random : U32) : Driver H Unit := do
  pcsAnClearIntr hw portId 1 1
  pcsAnDisable hw portId
  setLinkCheck (randomUsecs random)

/-- A pending interrupt where only the link matters: negotiation is
given up and counts as done. -/
def anLinkUpOnly (random : U32) : Driver H Unit := do
  pcsAnDisable hw .zero
  modify fun s => { s with pcs0.krtSuccess := 1, pcs0.anSuccess := 1 }
  setLinkCheck (randomUsecs random)

/-- The pending interrupts are handled, each if its bit is set. -/
def anHandle (anIntr random : U32) : Driver H Unit := do
  (if getBits anIntr 0 0 ≠ 0 then pcsAnIntCmpl hw .zero else pure ())
  (if getBits anIntr 1 1 ≠ 0 then pcsAnIncLink hw .zero random
  else pure ())
  (if getBits anIntr 2 2 ≠ 0 then pcsAnPgRcv hw .zero else pure ())
  modify fun s => { s with pcs0.anIntrCheckCnt := 0 }

/-- Negotiation is given up after too many checks without an
interrupt. The limit is compared as a signed number. -/
def anCheckTimeout : Driver H Unit := do
  let s ← get
  (if PCS_AN_MAX_INTR_CHECK_CNT.sle s.pcs0.anIntrCheckCnt then
    pcsAnTimeout hw .zero
  else pure ())

/-- The interrupts of a negotiation that is under way. -/
def anWatch (linkUpOnly random : U32) : Driver H Unit := do
  let anIntr ← pcsAnGetIntr hw .zero
  (if anIntr ≠ 0 then
    if linkUpOnly ≠ 0 then anLinkUpOnly hw random
    else do
      anHandle hw anIntr random
      anCheckTimeout hw
  else do
    modify fun s =>
      { s with pcs0.anIntrCheckCnt := s.pcs0.anIntrCheckCnt + 1 }
    anCheckTimeout hw)

/-- The second half of a tick: what is done about a link that is not
negotiated and trained. -/
def negotiate (linkUpOnly random : U32) : Driver H Unit := do
  let s ← get
  (if s.pcs0.anEn ≠ 0 ∧ (s.pcs0.anSuccess = 0 ∨ s.pcs0.krtSuccess = 0) then
    if s.pcs0.anStart = 0 ∧ s.pcs0.krtStart = 0 then
      pcsAnStart hw .zero
    else if s.pcs0.krtStart ≠ 0 then
      pcsKrtCheckState hw .zero
    else
      anWatch hw linkUpOnly random
  else pure ())

-- ================================================================= ticks

/-- The first half of a tick: what is made of the link. The count is
compared as a signed number. -/
def LinkState.note (st : LinkState H) (seen : Bool) : LinkState H :=
  if seen then
    { st with
      linkUp := 1
      linkDownCnt := 0
      nic.linkCheckUsecs := PCS_LINK_CHECK_SLOW_TIMER_USECS }
  else if RNIC_MAX_LINK_DOWN_CNT.sle (st.linkDownCnt + 1) then
    { st with
      linkUp := 0
      linkDownCnt := 0
      nic.pcs0.anSuccess := 0
      nic.pcs0.krtSuccess := 0
      nic.pcs0.krtFailed := 0 }
  else
    { st with linkUp := 0, linkDownCnt := st.linkDownCnt + 1 }

/-- The state after the looks of a tick. -/
def LinkState.looked (st : LinkState H) (tick : Tick) : LinkState H :=
  { st with nic := (linkSeen hw tick 5 st.nic).2 }

/-- A tick sees the link up. -/
def LinkState.seesUp (st : LinkState H) (tick : Tick) : Bool :=
  (linkSeen hw tick 5 st.nic).1

/-- The state ahead of the second half of a tick. -/
def LinkState.noted (st : LinkState H) (tick : Tick) : LinkState H :=
  (st.looked hw tick).note (st.seesUp hw tick)

/-- `rnic_link_check_timer` -/
def LinkState.tick (st : LinkState H) (tick : Tick) : LinkState H :=
  let st := st.noted hw tick
  { st with nic := (negotiate hw st.linkUpOnly tick.random st.nic).2 }

end BxRnic.Pcs
