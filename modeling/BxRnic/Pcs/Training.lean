/-
Auto-negotiation and KR training of a port (bx_pcs.c): the operations
the link check calls for a port's pending interrupts.

Nearly all of them have two branches, one on the fields of each port.
Where a condition stands outside the branches it is on the fields of
port 0. Messages are left out; the only place that shows the other
port's fields is the message of `pcs_an_base_page_cfg`.
-/
import BxRnic.Pcs.Port

namespace BxRnic.Pcs

variable {H : Type} (hw : PcsHw H)

-- ========================================================== registers

/-- `pcs_an_clear_intr` -/
def pcsAnClearIntr (portId : Port) (indexH indexL : Nat) :
    Driver H Unit := do
  let data ← pcsRegRead hw portId VR_AN_INTR
  pcsRegWrite hw portId VR_AN_INTR (setBits data indexH indexL 0x0)

/-- `pcs_an_clear_all_intr` -/
def pcsAnClearAllIntr (portId : Port) : Driver H Unit :=
  pcsRegWrite hw portId VR_AN_INTR 0x0

/-- The three registers of a page are read from the third down; the
first has the next page bit. -/
def readPage (portId : Port) (reg3 reg2 reg1 : Nat) : Driver H U32 := do
  let _ ← pcsRegRead hw portId reg3
  let _ ← pcsRegRead hw portId reg2
  let data ← pcsRegRead hw portId reg1
  pure (getBits data 15 15)

/-- `pcs_an_read_lp_base_page` -/
def pcsAnReadLpBasePage (portId : Port) : Driver H U32 :=
  readPage hw portId SR_AN_LP_ABL3 SR_AN_LP_ABL2 SR_AN_LP_ABL1

/-- `pcs_an_read_lp_next_page` -/
def pcsAnReadLpNextPage (portId : Port) : Driver H U32 :=
  readPage hw portId SR_AN_LP_XNP_ABL3 SR_AN_LP_XNP_ABL2
    SR_AN_LP_XNP_ABL1

/-- `pcs_an_read_adv_base_page` -/
def pcsAnReadAdvBasePage (portId : Port) : Driver H U32 :=
  readPage hw portId SR_AN_ADV3 SR_AN_ADV2 SR_AN_ADV1

/-- `pcs_an_read_adv_next_page` -/
def pcsAnReadAdvNextPage (portId : Port) : Driver H U32 :=
  readPage hw portId SR_AN_XNP_TX3 SR_AN_XNP_TX2 SR_AN_XNP_TX1

/-- `pcs_an_check_comp_state` -/
def pcsAnCheckCompState (portId : Port) : Driver H U32 :=
  pcsRegRead hw portId SR_AN_COMP_STS

/-- `pcs_an_comp` -/
def pcsAnComp (portId : Port) : Driver H U32 := do
  let data ← pcsRegRead hw portId SR_AN_STS
  pure (getBits data 5 5)

/-- The three registers of a page are written from the third down. -/
def writePage (portId : Port) (reg3 reg2 reg1 : Nat)
    (page3 page2 page1 : U32) : Driver H Unit := do
  pcsRegWrite hw portId reg3 page3
  pcsRegWrite hw portId reg2 page2
  pcsRegWrite hw portId reg1 page1

/-- `rnic_pdata->mac_pdata->link_check_usecs = ...` -/
def setLinkCheck (usecs : U32) : Driver H Unit :=
  modify fun s => { s with linkCheckUsecs := usecs }

-- =================================================== auto-negotiation

/-- `pcs_an_disable` -/
def pcsAnDisable (portId : Port) : Driver H Unit := do
  let data ← pcsRegRead hw portId SR_AN_CTRL
  pcsRegWrite hw portId SR_AN_CTRL (setBits data 12 12 0x0)
  match portId with
  | .zero => modify fun s =>
    { s with
      pcs0.anStart := 0
      pcs0.anRcvCnt := 0
      pcs0.anIntrCheckCnt := 0 }
  | .one => modify fun s =>
    { s with
      pcs1.anStart := 0
      pcs1.anRcvCnt := 0
      pcs1.anIntrCheckCnt := 0 }

/-- `pcs_an_timeout` -/
def pcsAnTimeout (portId : Port) : Driver H Unit := do
  pcsAnDisable hw portId
  setLinkCheck PCS_LINK_CHECK_SLOW_TIMER_USECS

/-- `pcs_an_start` -/
def pcsAnStart (portId : Port) : Driver H Unit := do
  let s ← get
  -- port 0's switch, whichever port is started
  (if s.pcs0.anEn ≠ 0 then do
    pcsAnClearAllIntr hw portId
    let data ← pcsRegRead hw portId SR_AN_CTRL
    pcsRegWrite hw portId SR_AN_CTRL
      (setBits (setBits data 12 12 0x1) 9 9 0x1)
    (match portId with
      | .zero => modify fun s =>
        { s with
          pcs0.anStart := 1
          pcs0.anRestartLock := 1
          pcs0.anRcvCnt := 0
          pcs0.anIntrCheckCnt := 0
          pcs0.anSuccess := 0
          pcs0.anNxpIndex := 0
          pcs0.krtSuccess := 0
          pcs0.krtFailed := 0 }
      | .one => modify fun s =>
        { s with
          pcs1.anStart := 1
          pcs1.anRestartLock := 1
          pcs1.anRcvCnt := 0
          pcs1.anIntrCheckCnt := 0
          pcs1.anSuccess := 0
          pcs1.anNxpIndex := 0
          pcs1.krtSuccess := 0
          pcs1.krtFailed := 0 })
    setLinkCheck PCS_LINK_CHECK_FAST_TIMER_USECS
  else pure ())

/-- `pcs_an_base_page_cfg` -/
def pcsAnBasePageCfg (portId : Port) : Driver H Unit := do
  let s ← get
  match portId with
  | .zero =>
    writePage hw portId SR_AN_ADV3 SR_AN_ADV2 SR_AN_ADV1
      s.pcs0.anBp3 s.pcs0.anBp2 s.pcs0.anBp1
  | .one =>
    writePage hw portId SR_AN_ADV3 SR_AN_ADV2 SR_AN_ADV1
      s.pcs1.anBp3 s.pcs1.anBp2 s.pcs1.anBp1

-- ======================================================== KR training

/-- `pcs_krt_enable` -/
def pcsKrtEnable (portId : Port) : Driver H Unit := do
  let data ← pcsRegRead hw portId SR_PMA_KR_PMD_CTRL
  pcsRegWrite hw portId SR_PMA_KR_PMD_CTRL (setBits data 1 1 0x1)

/-- `pcs_krt_restart` -/
def pcsKrtRestart (portId : Port) : Driver H Unit := do
  let data ← pcsRegRead hw portId SR_PMA_KR_PMD_CTRL
  pcsRegWrite hw portId SR_PMA_KR_PMD_CTRL (setBits data 0 0 0x1)

/-- `pcs_krt_start` -/
def pcsKrtStart (portId : Port) : Driver H Unit := do
  let s ← get
  let start ← (match portId with
    | .zero =>
      if s.pcs0.krtStart = 0 then
        if s.pcs0.krtEn ≠ 0 then do
          modify fun s => { s with pcs0.krtStart := 1 }
          pure true
        else do
          modify fun s => { s with pcs0.krtFailed := 1 }
          pure false
      else pure false
    | .one =>
      if s.pcs1.krtStart = 0 then
        if s.pcs1.krtEn ≠ 0 then do
          modify fun s => { s with pcs1.krtStart := 1 }
          pure true
        else do
          modify fun s => { s with pcs1.krtFailed := 1 }
          pure false
      else pure false)
  (if start then do
    pcsKrtEnable hw portId
    pcsKrtRestart hw portId
  else pure ())

/-- Some lane of the mask has trained: its nibble of the status is 1. -/
def krtSucceeded (krtLaneMask data : U32) : Prop :=
  (getBits krtLaneMask 0 0 = 1 ∧ getBits data 3 0 = 1)
    ∨ (getBits krtLaneMask 1 1 = 1 ∧ getBits data 7 4 = 1)
    ∨ (getBits krtLaneMask 2 2 = 1 ∧ getBits data 11 8 = 1)
    ∨ (getBits krtLaneMask 3 3 = 1 ∧ getBits data 15 12 = 1)
deriving Decidable

/-- Some lane of the mask has failed: the top bit of its nibble is
set. -/
def krtHasFailed (krtLaneMask data : U32) : Prop :=
  (getBits krtLaneMask 0 0 = 1 ∧ getBits data 3 3 = 1)
    ∨ (getBits krtLaneMask 1 1 = 1 ∧ getBits data 7 7 = 1)
    ∨ (getBits krtLaneMask 2 2 = 1 ∧ getBits data 11 11 = 1)
    ∨ (getBits krtLaneMask 3 3 = 1 ∧ getBits data 15 15 = 1)
deriving Decidable

/-- `pcs_krt_check_state` -/
def pcsKrtCheckState (portId : Port) : Driver H Unit := do
  let s ← get
  let krtLaneMask := match portId with
    | .zero => s.pcs0.krtLaneMask
    | .one => s.pcs1.krtLaneMask
  let data ← pcsRegRead hw portId SR_PMA_KR_PMD_STS
  (if krtHasFailed krtLaneMask data then
    match portId with
    | .zero => modify fun s => { s with pcs0.krtFailed := 1 }
    | .one => modify fun s => { s with pcs1.krtFailed := 1 }
  else pure ())
  (if krtSucceeded krtLaneMask data then
    match portId with
    | .zero => modify fun s => { s with pcs0.krtSuccess := 1 }
    | .one => modify fun s => { s with pcs1.krtSuccess := 1 }
  else pure ())
  (if ¬ krtHasFailed krtLaneMask data
      ∧ ¬ krtSucceeded krtLaneMask data then
    setLinkCheck PCS_LINK_CHECK_FAST_TIMER_USECS
  else do
    (match portId with
      | .zero => modify fun s => { s with pcs0.krtStart := 0 }
      | .one => modify fun s => { s with pcs1.krtStart := 0 })
    setLinkCheck PCS_LINK_CHECK_SLOW_TIMER_USECS)

-- ========================================================== next pages

/-- One case of the `switch` of `pcs_an_nxp_check`: both sides' pages
are read, and if either announces a next page ours is handed over. -/
def exchangePage (portId : Port) (readAdv readLp : Port → Driver H U32)
    (page3 page2 page1 : U32) : Driver H (U32 × U32) := do
  let advXnp ← readAdv portId
  let lpXnp ← readLp portId
  (if advXnp = 0x1 ∨ lpXnp = 0x1 then
    writePage hw portId SR_AN_XNP_TX3 SR_AN_XNP_TX2 SR_AN_XNP_TX1
      page3 page2 page1
  else pure ())
  pure (advXnp, lpXnp)

/-- `pcs_an_nxp_check` -/
def pcsAnNxpCheck (portId : Port) : Driver H Unit := do
  let s ← get
  let xnp ← (match portId with
    | .zero => do
      let xnp ← (
        if s.pcs0.anNxpIndex = 0 then
          exchangePage hw portId (pcsAnReadAdvBasePage hw)
            (pcsAnReadLpBasePage hw)
            s.pcs0.anNxp30 s.pcs0.anNxp20 s.pcs0.anNxp10
        else if s.pcs0.anNxpIndex = 1 then
          exchangePage hw portId (pcsAnReadAdvNextPage hw)
            (pcsAnReadLpNextPage hw)
            s.pcs0.anNxp31 s.pcs0.anNxp21 s.pcs0.anNxp11
        else
          exchangePage hw portId (pcsAnReadAdvNextPage hw)
            (pcsAnReadLpNextPage hw)
            s.anNxp3Null s.anNxp2Null s.anNxp1Null)
      (if s.pcs0.speed = SPEED_25G ∨ s.pcs0.speed = SPEED_50G then
        modify fun s =>
          { s with pcs0.anNxpIndex := s.pcs0.anNxpIndex + 1 }
      else pure ())
      pure xnp
    | .one => do
      let xnp ← (
        if s.pcs1.anNxpIndex = 0 then
          exchangePage hw portId (pcsAnReadAdvBasePage hw)
            (pcsAnReadLpBasePage hw)
            s.pcs1.anNxp30 s.pcs1.anNxp20 s.pcs1.anNxp10
        else if s.pcs1.anNxpIndex = 1 then
          exchangePage hw portId (pcsAnReadAdvNextPage hw)
            (pcsAnReadLpNextPage hw)
            s.pcs1.anNxp31 s.pcs1.anNxp21 s.pcs1.anNxp11
        else
          exchangePage hw portId (pcsAnReadAdvNextPage hw)
            (pcsAnReadLpNextPage hw)
            s.anNxp3Null s.anNxp2Null s.anNxp1Null)
      (if s.pcs1.speed = SPEED_25G ∨ s.pcs1.speed = SPEED_50G then
        modify fun s =>
          { s with pcs1.anNxpIndex := s.pcs1.anNxpIndex + 1 }
      else pure ())
      pure xnp)
  let s ← get
  -- port 0's training, whichever port is negotiating
  (if xnp.1 = 0x0 ∧ xnp.2 = 0x0 ∧ s.pcs0.krtStart = 0
      ∧ s.pcs0.krtSuccess = 0 ∧ s.pcs0.krtFailed = 0 then
    pcsKrtStart hw portId
  else pure ())

-- ========================================================== interrupts

/-- `pcs_an_int_cmpl` -/
def pcsAnIntCmpl (portId : Port) : Driver H Unit := do
  let s ← get
  -- port 0's training, whichever port has completed
  (if s.pcs0.krtSuccess ≠ 0 ∨ s.pcs0.krtFailed ≠ 0 then do
    (match portId with
      | .zero => modify fun s =>
        { s with pcs0.anSuccess := 1, pcs0.anStart := 0 }
      | .one => modify fun s =>
        { s with pcs1.anSuccess := 1, pcs1.anStart := 0 })
    pcsAnDisable hw portId
  else
    pcsKrtStart hw portId)
  pcsAnClearIntr hw portId 0 0
  setLinkCheck PCS_LINK_CHECK_SLOW_TIMER_USECS

/-- The page counter of `pcs_an_pg_rcv` goes up; at the limit the
negotiation is given up. The limit is compared as a signed number. -/
def countPage (portId : Port) : Driver H Unit :=
  match portId with
  | .zero => do
    modify fun s => { s with pcs0.anRcvCnt := s.pcs0.anRcvCnt + 1 }
    let s ← get
    (if PCS_AN_MAX_RCV_CNT.sle s.pcs0.anRcvCnt then
      pcsAnDisable hw portId
    else pure ())
  | .one => do
    modify fun s => { s with pcs1.anRcvCnt := s.pcs1.anRcvCnt + 1 }
    let s ← get
    (if PCS_AN_MAX_RCV_CNT.sle s.pcs1.anRcvCnt then
      pcsAnTimeout hw portId
    else pure ())

/-- `pcs_an_pg_rcv` -/
def pcsAnPgRcv (portId : Port) : Driver H Unit := do
  let s ← get
  -- port 0's training, whichever port received the page
  (if s.pcs0.krtStart = 0 ∧ s.pcs0.krtSuccess = 0
      ∧ s.pcs0.krtFailed = 0 then do
    pcsAnNxpCheck hw portId
    let comp ← pcsAnComp hw portId
    (if comp ≠ 0 then do
      let _ ← pcsAnCheckCompState hw portId
      pure ()
    else pure ())
    countPage hw portId
  else pure ())
  pcsAnClearIntr hw portId 2 2
  setLinkCheck PCS_LINK_CHECK_FAST_TIMER_USECS

end BxRnic.Pcs
