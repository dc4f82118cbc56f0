/-
Each operation of a port related to itself under every link: the
register accesses, then the operations that keep to the fields of the
port they are called for.

An operation with a branch for each port is first written with the port
abstracted (the lemmas ending in `_eq`): that its two branches are the
same up to the names of the fields is what those lemmas say.
-/
import BxRnic.Pcs.Proofs.Link

namespace BxRnic.Pcs

variable {H : Type} {hw : PcsHw H} {p q : Port}
  {R : Nic H → Nic H → Prop}

-- ============================================================ registers

theorem Link.clearIntr (h : Link p q R) (indexH indexL : Nat) :
    Related R (pcsAnClearIntr hw p indexH indexL)
      (pcsAnClearIntr hw q indexH indexL) := by
  refine (h.read VR_AN_INTR).bind fun data => ?_
  exact h.write VR_AN_INTR _

theorem Link.readPage (h : Link p q R) (reg3 reg2 reg1 : Nat) :
    Related R (Pcs.readPage hw p reg3 reg2 reg1)
      (Pcs.readPage hw q reg3 reg2 reg1) := by
  refine (h.read reg3).bind fun _ => ?_
  refine (h.read reg2).bind fun _ => ?_
  refine (h.read reg1).bind fun data => ?_
  exact Related.pure _

theorem Link.writePage (h : Link p q R) (reg3 reg2 reg1 : Nat)
    (page3 page2 page1 : U32) :
    Related R (Pcs.writePage hw p reg3 reg2 reg1 page3 page2 page1)
      (Pcs.writePage hw q reg3 reg2 reg1 page3 page2 page1) := by
  refine (h.write reg3 page3).bind fun _ => ?_
  refine (h.write reg2 page2).bind fun _ => ?_
  exact h.write reg1 page1

theorem Link.comp (h : Link p q R) :
    Related R (pcsAnComp hw p) (pcsAnComp hw q) := by
  refine (h.read SR_AN_STS).bind fun data => ?_
  exact Related.pure _

theorem Link.krtEnable (h : Link p q R) :
    Related R (pcsKrtEnable hw p) (pcsKrtEnable hw q) := by
  refine (h.read SR_PMA_KR_PMD_CTRL).bind fun data => ?_
  exact h.write SR_PMA_KR_PMD_CTRL _

theorem Link.krtRestart (h : Link p q R) :
    Related R (pcsKrtRestart hw p) (pcsKrtRestart hw q) := by
  refine (h.read SR_PMA_KR_PMD_CTRL).bind fun data => ?_
  exact h.write SR_PMA_KR_PMD_CTRL _

-- ====================================================== giving up

/-- What `pcs_an_disable` does to the fields. -/
def PcsFields.idle (f : PcsFields) : PcsFields :=
  { f with anStart := 0, anRcvCnt := 0, anIntrCheckCnt := 0 }

theorem pcsAnDisable_eq (hw : PcsHw H) (p : Port) :
    pcsAnDisable hw p = (do
      let data ← pcsRegRead hw p SR_AN_CTRL
      pcsRegWrite hw p SR_AN_CTRL (setBits data 12 12 0x0)
      onPort p PcsFields.idle) := by
  cases p <;> rfl

theorem Link.disable (h : Link p q R) :
    Related R (pcsAnDisable hw p) (pcsAnDisable hw q) := by
  rw [pcsAnDisable_eq, pcsAnDisable_eq]
  refine (h.read SR_AN_CTRL).bind fun data => ?_
  refine (h.write SR_AN_CTRL _).bind fun _ => ?_
  exact h.onPort _

-- ============================================================ base page

theorem pcsAnBasePageCfg_eq (hw : PcsHw H) (p : Port) :
    pcsAnBasePageCfg hw p = (do
      let f ← viewPort p
      writePage hw p SR_AN_ADV3 SR_AN_ADV2 SR_AN_ADV1
        f.anBp3 f.anBp2 f.anBp1) := by
  cases p <;> rfl

theorem Link.basePageCfg (h : Link p q R) :
    Related R (pcsAnBasePageCfg hw p) (pcsAnBasePageCfg hw q) := by
  rw [pcsAnBasePageCfg_eq, pcsAnBasePageCfg_eq]
  refine h.viewPort.bind fun f => ?_
  exact h.writePage _ _ _ _ _ _

-- ========================================================== KR training

theorem pcsKrtStart_eq (hw : PcsHw H) (p : Port) :
    pcsKrtStart hw p = (do
      let f ← viewPort p
      let start ← (
        if f.krtStart = 0 then
          if f.krtEn ≠ 0 then do
            onPort p fun f => { f with krtStart := 1 }
            pure true
          else do
            onPort p fun f => { f with krtFailed := 1 }
            pure false
        else pure false)
      (if start then do
        pcsKrtEnable hw p
        pcsKrtRestart hw p
      else pure ())) := by
  cases p <;> rfl

theorem Link.krtStart (h : Link p q R) :
    Related R (pcsKrtStart hw p) (pcsKrtStart hw q) := by
  rw [pcsKrtStart_eq, pcsKrtStart_eq]
  refine h.viewPort.bind fun f => ?_
  refine Related.bind ?_ fun start => ?_
  · refine Related.ite (fun _ => ?_) fun _ => Related.pure _
    refine Related.ite (fun _ => ?_) fun _ => ?_
    · exact (h.onPort _).bind fun _ => Related.pure _
    · exact (h.onPort _).bind fun _ => Related.pure _
  · refine Related.ite (fun _ => ?_) fun _ => Related.pure _
    exact h.krtEnable.bind fun _ => h.krtRestart

theorem pcsKrtCheckState_eq (hw : PcsHw H) (p : Port) :
    pcsKrtCheckState hw p = (do
      let f ← viewPort p
      let data ← pcsRegRead hw p SR_PMA_KR_PMD_STS
      (if krtHasFailed f.krtLaneMask data then
        onPort p fun f => { f with krtFailed := 1 }
      else pure ())
      (if krtSucceeded f.krtLaneMask data then
        onPort p fun f => { f with krtSuccess := 1 }
      else pure ())
      (if ¬ krtHasFailed f.krtLaneMask data
          ∧ ¬ krtSucceeded f.krtLaneMask data then
        setLinkCheck PCS_LINK_CHECK_FAST_TIMER_USECS
      else do
        onPort p fun f => { f with krtStart := 0 }
        setLinkCheck PCS_LINK_CHECK_SLOW_TIMER_USECS)) := by
  cases p <;> rfl

theorem Link.krtCheckState (h : Link p q R) :
    Related R (pcsKrtCheckState hw p) (pcsKrtCheckState hw q) := by
  rw [pcsKrtCheckState_eq, pcsKrtCheckState_eq]
  refine h.viewPort.bind fun f => ?_
  refine (h.read SR_PMA_KR_PMD_STS).bind fun data => ?_
  refine Related.bind ?_ fun _ => Related.bind ?_ fun _ => ?_
  · exact Related.ite (fun _ => h.onPort _) fun _ => Related.pure _
  · exact Related.ite (fun _ => h.onPort _) fun _ => Related.pure _
  · refine Related.ite (fun _ => h.setLinkCheck _) fun _ => ?_
    exact (h.onPort _).bind fun _ => h.setLinkCheck _

-- ========================================================== next pages

theorem Link.exchangePage (h : Link p q R)
    {readAdv readLp : Port → Driver H U32}
    (hadv : Related R (readAdv p) (readAdv q))
    (hlp : Related R (readLp p) (readLp q)) (page3 page2 page1 : U32) :
    Related R (Pcs.exchangePage hw p readAdv readLp page3 page2 page1)
      (Pcs.exchangePage hw q readAdv readLp page3 page2 page1) := by
  refine hadv.bind fun advXnp => hlp.bind fun lpXnp => ?_
  refine Related.bind ?_ fun _ => Related.pure _
  refine Related.ite (fun _ => ?_) fun _ => Related.pure _
  exact h.writePage _ _ _ _ _ _

/-- The `switch` of `pcs_an_nxp_check` and the step of its index. -/
def nxpTurn (hw : PcsHw H) (p : Port) : Driver H (U32 × U32) := do
  let f ← viewPort p
  let null ← viewNullPage
  let xnp ← (
    if f.anNxpIndex = 0 then
      exchangePage hw p (pcsAnReadAdvBasePage hw)
        (pcsAnReadLpBasePage hw) f.anNxp30 f.anNxp20 f.anNxp10
    else if f.anNxpIndex = 1 then
      exchangePage hw p (pcsAnReadAdvNextPage hw)
        (pcsAnReadLpNextPage hw) f.anNxp31 f.anNxp21 f.anNxp11
    else
      exchangePage hw p (pcsAnReadAdvNextPage hw)
        (pcsAnReadLpNextPage hw) null.2.2 null.2.1 null.1)
  (if f.speed = SPEED_25G ∨ f.speed = SPEED_50G then
    onPort p fun f => { f with anNxpIndex := f.anNxpIndex + 1 }
  else pure ())
  pure xnp

theorem Link.nxpTurn (h : Link p q R) :
    Related R (Pcs.nxpTurn hw p) (Pcs.nxpTurn hw q) := by
  refine h.viewPort.bind fun f => ?_
  refine h.viewNullPage.bind fun null => ?_
  refine Related.bind ?_ fun xnp => Related.bind ?_ fun _ => ?_
  · refine Related.ite (fun _ => ?_) fun _ => Related.ite (fun _ => ?_)
      fun _ => ?_
    · exact h.exchangePage (h.readPage _ _ _) (h.readPage _ _ _) _ _ _
    · exact h.exchangePage (h.readPage _ _ _) (h.readPage _ _ _) _ _ _
    · exact h.exchangePage (h.readPage _ _ _) (h.readPage _ _ _) _ _ _
  · exact Related.ite (fun _ => h.onPort _) fun _ => Related.pure _
  · exact Related.pure _

end BxRnic.Pcs
