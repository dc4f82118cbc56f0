/-
What the operations of a tick do to the negotiation of port 0: the flags
the link check decides by, and the number of trainings written to the
hardware (`Nic.talk`).

Register accesses leave all of it alone, except for the writes that
start a training. Each operation is inverted once; `negotiate_cases`
puts the inversions together and says everything the second half of a
tick can do.
-/
import BxRnic.Pcs.LinkCheck
import BxRnic.Pcs.Proofs.Independence

namespace BxRnic.Pcs

variable {H : Type} {hw : PcsHw H}

-- ================================================================ views

/-- The flags of port 0's negotiation and what has been written to start
trainings. -/
structure Talk where
  anEn : U32
  krtEn : U32
  krtLaneMask : U32
  anStart : U32
  anSuccess : U32
  krtStart : U32
  krtSuccess : U32
  krtFailed : U32
  trainings : Nat
deriving DecidableEq

/-- How many writes of port 0's block went to the training control. -/
def Nic.trainings (s : Nic H) : Nat :=
  (s.block0.writes.filter fun w => w.1 = SR_PMA_KR_PMD_CTRL).length

def Nic.talk (s : Nic H) : Talk where
  anEn := s.pcs0.anEn
  krtEn := s.pcs0.krtEn
  krtLaneMask := s.pcs0.krtLaneMask
  anStart := s.pcs0.anStart
  anSuccess := s.pcs0.anSuccess
  krtStart := s.pcs0.krtStart
  krtSuccess := s.pcs0.krtSuccess
  krtFailed := s.pcs0.krtFailed
  trainings := s.trainings

/-- There is no verdict on a training. -/
def Talk.Open (v : Talk) : Prop := v.krtSuccess = 0 ∧ v.krtFailed = 0
deriving Decidable

/-- Nothing of the negotiation has changed. -/
def Kept (s t : Nic H) : Prop := t.talk = s.talk

theorem Kept.refl (s : Nic H) : Kept s s := rfl

theorem Kept.trans (r s t : Nic H) (h : Kept r s) (h' : Kept s t) :
    Kept r t := by
  unfold Kept at *
  rw [h', h]

-- ============================================================ registers

theorem pcsRegRead_kept (offset : Nat) :
    Moves Kept (pcsRegRead hw .zero offset) := by
  intro s
  rfl

theorem pcsRegWrite_kept {offset : Nat} (h : offset ≠ SR_PMA_KR_PMD_CTRL)
    (data : U32) : Moves Kept (pcsRegWrite hw .zero offset data) := by
  intro s
  have hwr : (s.block0.writes ++ [(offset, data)]).filter
      (fun w => w.1 = SR_PMA_KR_PMD_CTRL)
        = s.block0.writes.filter fun w => w.1 = SR_PMA_KR_PMD_CTRL := by
    simp [List.filter_append, h]
  have hlen : (pcsRegWrite hw .zero offset data s).2.trainings
      = s.trainings := congrArg List.length hwr
  unfold Kept Nic.talk
  rw [hlen]
  rfl

theorem setLinkCheck_kept (u : U32) :
    Moves Kept (setLinkCheck u : Driver H Unit) := by
  intro s
  rfl

theorem kept_bind {α β : Type} {f : Driver H α}
    {F : α → Driver H β} (hf : Moves Kept f)
    (hF : ∀ a, Moves Kept (F a)) : Moves Kept (f >>= F) :=
  hf.bind Kept.trans hF

theorem pcsAnClearIntr_kept (indexH indexL : Nat) :
    Moves Kept (pcsAnClearIntr hw .zero indexH indexL) :=
  kept_bind (pcsRegRead_kept _) fun _ => pcsRegWrite_kept (by decide) _

theorem readPage_kept (reg3 reg2 reg1 : Nat) :
    Moves Kept (readPage hw .zero reg3 reg2 reg1) := by
  refine kept_bind (pcsRegRead_kept reg3) fun _ => ?_
  refine kept_bind (pcsRegRead_kept reg2) fun _ => ?_
  refine kept_bind (pcsRegRead_kept reg1) fun _ => ?_
  exact Moves.pure Kept.refl _

theorem writePage_kept {reg3 reg2 reg1 : Nat}
    (h3 : reg3 ≠ SR_PMA_KR_PMD_CTRL) (h2 : reg2 ≠ SR_PMA_KR_PMD_CTRL)
    (h1 : reg1 ≠ SR_PMA_KR_PMD_CTRL) (page3 page2 page1 : U32) :
    Moves Kept
      (writePage hw .zero reg3 reg2 reg1 page3 page2 page1) := by
  refine kept_bind (pcsRegWrite_kept h3 page3) fun _ => ?_
  refine kept_bind (pcsRegWrite_kept h2 page2) fun _ => ?_
  exact pcsRegWrite_kept h1 page1

theorem exchangePage_kept {readAdv readLp : Port → Driver H U32}
    (hadv : Moves Kept (readAdv .zero))
    (hlp : Moves Kept (readLp .zero)) (page3 page2 page1 : U32) :
    Moves Kept
      (exchangePage hw .zero readAdv readLp page3 page2 page1) := by
  refine kept_bind hadv fun _ => kept_bind hlp fun _ => ?_
  refine kept_bind ?_ fun _ => Moves.pure Kept.refl _
  refine Moves.ite (fun _ => ?_) fun _ => Moves.pure Kept.refl _
  exact writePage_kept (by decide) (by decide) (by decide) _ _ _

theorem nxpTurn_kept : Moves Kept (nxpTurn hw .zero) := by
  have hview : Moves Kept (viewPort .zero : Driver H PcsFields) :=
    Kept.refl
  have hnull : Moves Kept (viewNullPage : Driver H _) := Kept.refl
  have hindex : Moves Kept (onPort .zero fun f =>
      { f with anNxpIndex := f.anNxpIndex + 1 } : Driver H Unit) :=
    fun _ => rfl
  refine kept_bind hview fun f => kept_bind hnull fun null => ?_
  refine kept_bind ?_ fun _ => kept_bind ?_ fun _ =>
    Moves.pure Kept.refl _
  · refine Moves.ite (fun _ => ?_) fun _ => Moves.ite (fun _ => ?_)
      fun _ => ?_
    · exact exchangePage_kept (readPage_kept _ _ _)
        (readPage_kept _ _ _) _ _ _
    · exact exchangePage_kept (readPage_kept _ _ _)
        (readPage_kept _ _ _) _ _ _
    · exact exchangePage_kept (readPage_kept _ _ _)
        (readPage_kept _ _ _) _ _ _
  · exact Moves.ite (fun _ => hindex) fun _ => Moves.pure Kept.refl _

theorem readStatus_kept : Moves Kept (readStatus hw .zero) := by
  have hcomp : Moves Kept (pcsAnComp hw .zero) :=
    kept_bind (pcsRegRead_kept _) fun _ => Moves.pure Kept.refl _
  refine kept_bind hcomp fun comp => ?_
  refine Moves.ite (fun _ => ?_) fun _ => Moves.pure Kept.refl _
  exact kept_bind (pcsRegRead_kept _) fun _ => Moves.pure Kept.refl _

/-- Registers may have been read, and nothing else was done. -/
structure OnlyRead (s t : Nic H) : Prop where
  fields : ∀ r, t.fields r = s.fields r
  writes : ∀ r, (t.block r).writes = (s.block r).writes

theorem OnlyRead.refl (s : Nic H) : OnlyRead s s :=
  ⟨fun _ => rfl, fun _ => rfl⟩

theorem OnlyRead.trans (r s t : Nic H) (h : OnlyRead r s)
    (h' : OnlyRead s t) : OnlyRead r t := by
  refine ⟨fun i => ?_, fun i => ?_⟩
  · rw [h'.fields, h.fields]
  · rw [h'.writes, h.writes]

theorem OnlyRead.kept (s t : Nic H) (h : OnlyRead s t) : Kept s t := by
  have hf : t.pcs0 = s.pcs0 := h.fields .zero
  have hw : t.block0.writes = s.block0.writes := h.writes .zero
  unfold Kept Nic.talk Nic.trainings
  rw [hf, hw]

/-- A look at the link only reads. -/
theorem linkSeen_onlyRead (tick : Tick) (retryCnt : Nat) :
    Moves OnlyRead (linkSeen hw tick retryCnt) := by
  induction retryCnt with
  | zero => exact Moves.pure OnlyRead.refl _
  | succ n ih =>
    refine Moves.ite (fun _ => Moves.pure OnlyRead.refl _) fun _ => ?_
    have hrlu : Moves OnlyRead (pcsGetRlu hw .zero) := by
      intro s
      refine ⟨fun r => ?_, fun r => ?_⟩
      · cases r <;> rfl
      · cases r <;> rfl
    refine hrlu.bind OnlyRead.trans fun rlu => ?_
    exact Moves.ite (fun _ => Moves.pure OnlyRead.refl _) fun _ => ih

-- =========================================================== interrupts

/-- One step in the handling of the interrupts. -/
inductive Talk.Hears : Talk → Talk → Prop
  /-- Negotiation is given up or has come to its end. -/
  | idle (v : Talk) : Hears v { v with anStart := 0 }
  /-- Negotiation is complete, after a verdict. -/
  | negotiated (v : Talk) (h : ¬ v.Open) :
      Hears v { v with anSuccess := 1, anStart := 0 }
  /-- A training is started, with two writes. -/
  | started (v : Talk) (h : v.Open) (hrun : v.krtStart = 0)
      (hen : v.krtEn ≠ 0) :
      Hears v { v with krtStart := 1, trainings := v.trainings + 2 }
  /-- Training is not enabled, which counts as a failure. -/
  | refused (v : Talk) (h : v.Open) (hrun : v.krtStart = 0)
      (hen : v.krtEn = 0) : Hears v { v with krtFailed := 1 }

/-- What the handling of interrupts amounts to. -/
def Heard (s t : Nic H) : Prop :=
  Relation.ReflTransGen Talk.Hears s.talk t.talk

theorem Heard.trans (r s t : Nic H) (h : Heard r s) (h' : Heard s t) :
    Heard r t := Relation.ReflTransGen.trans h h'

theorem Heard.single {s t : Nic H} (h : Talk.Hears s.talk t.talk) :
    Heard s t := Relation.ReflTransGen.single h

theorem Kept.heard (s t : Nic H) (h : Kept s t) : Heard s t := by
  unfold Heard
  rw [h]

theorem heard_bind {α β : Type} {f : Driver H α} {F : α → Driver H β}
    (hf : Moves Heard f) (hF : ∀ a, Moves Heard (F a)) :
    Moves Heard (f >>= F) :=
  hf.bind Heard.trans hF

theorem kept_heard {α : Type} {f : Driver H α} (hf : Moves Kept f) :
    Moves Heard f := hf.mono Kept.heard

theorem pure_heard {α : Type} (a : α) :
    Moves Heard (pure a : Driver H α) :=
  kept_heard (Moves.pure Kept.refl a)

theorem pcsAnDisable_talk (s : Nic H) :
    (pcsAnDisable hw .zero s).2.talk = { s.talk with anStart := 0 } := by
  have hacc : Moves Kept (pcsRegRead hw .zero SR_AN_CTRL >>= fun data =>
      pcsRegWrite hw .zero SR_AN_CTRL (setBits data 12 12 0x0)) :=
    kept_bind (pcsRegRead_kept _) fun _ => pcsRegWrite_kept (by decide) _
  rw [← hacc s]
  rfl

theorem pcsAnDisable_heard : Moves Heard (pcsAnDisable hw .zero) := by
  intro s
  refine Heard.single ?_
  rw [pcsAnDisable_talk]
  exact .idle _

theorem pcsAnTimeout_heard : Moves Heard (pcsAnTimeout hw .zero) :=
  heard_bind pcsAnDisable_heard fun _ =>
    kept_heard (setLinkCheck_kept _)

/-- A write that starts a training is counted. -/
theorem readWriteCtrl_talk (hw : PcsHw H) (f : U32 → U32) (s : Nic H) :
    ((pcsRegRead hw .zero SR_PMA_KR_PMD_CTRL >>= fun data =>
      pcsRegWrite hw .zero SR_PMA_KR_PMD_CTRL (f data)) s).2.talk
      = { s.talk with trainings := s.talk.trainings + 1 } := by
  have hlen (data : U32) :
      ((s.block0.writes ++ [(SR_PMA_KR_PMD_CTRL, data)]).filter
        fun w => w.1 = SR_PMA_KR_PMD_CTRL).length = s.trainings + 1 := by
    simp [List.filter_append, Nic.trainings]
  have hcount : ((pcsRegRead hw .zero SR_PMA_KR_PMD_CTRL >>= fun data =>
      pcsRegWrite hw .zero SR_PMA_KR_PMD_CTRL (f data)) s).2.trainings
      = s.trainings + 1 := hlen _
  unfold Nic.talk
  rw [hcount]
  rfl

theorem krtEnableRestart_talk (s : Nic H) :
    ((pcsKrtEnable hw .zero >>= fun _ => pcsKrtRestart hw .zero)
      s).2.talk = { s.talk with trainings := s.talk.trainings + 2 } := by
  have hen : (pcsKrtEnable hw .zero s).2.talk = _ :=
    readWriteCtrl_talk hw (fun data => setBits data 1 1 0x1) s
  have hrs : (pcsKrtRestart hw .zero (pcsKrtEnable hw .zero s).2).2.talk
      = _ := readWriteCtrl_talk hw (fun data => setBits data 0 0 0x1) _
  rw [bind_run, hrs, hen]

theorem pcsKrtStart_heard {s : Nic H} (h : s.talk.Open) :
    Heard s (pcsKrtStart hw .zero s).2 := by
  by_cases hrun : s.pcs0.krtStart = 0
  · by_cases hen : s.pcs0.krtEn = 0
    · rw [pcsKrtStart_refused (p := .zero) hrun hen]
      exact Heard.single (.refused _ h hrun hen)
    · rw [pcsKrtStart_started (p := .zero) hrun hen]
      refine Heard.single ?_
      rw [krtEnableRestart_talk]
      exact .started _ h hrun hen
  · rw [pcsKrtStart_running (p := .zero) hrun]
    exact Kept.heard _ _ rfl

theorem pcsAnIntCmpl_heard : Moves Heard (pcsAnIntCmpl hw .zero) := by
  intro s
  have hdone : Moves Heard (pcsAnClearIntr hw .zero 0 0 >>= fun _ =>
      setLinkCheck PCS_LINK_CHECK_SLOW_TIMER_USECS) :=
    kept_heard (kept_bind (pcsAnClearIntr_kept _ _) fun _ =>
      setLinkCheck_kept _)
  by_cases h : s.pcs0.krtSuccess ≠ 0 ∨ s.pcs0.krtFailed ≠ 0
  · have hv : ¬ s.talk.Open := by
      rintro ⟨hs, hf⟩
      exact h.elim (fun hne => hne hs) fun hne => hne hf
    have hrun : pcsAnIntCmpl hw .zero s
        = (pcsAnDisable hw .zero >>= fun _ =>
            pcsAnClearIntr hw .zero 0 0 >>= fun _ =>
              setLinkCheck PCS_LINK_CHECK_SLOW_TIMER_USECS)
          (s.updFields .zero fun f =>
            { f with anSuccess := 1, anStart := 0 }) := by
      unfold pcsAnIntCmpl
      rw [get_bind_run, if_pos h]
      rfl
    rw [hrun]
    refine Heard.trans _ _ _ (Heard.single ?_)
      (heard_bind pcsAnDisable_heard (fun _ => hdone) _)
    exact .negotiated _ hv
  · have hv : s.talk.Open := by
      constructor
      · by_contra hne
        exact h (Or.inl hne)
      · by_contra hne
        exact h (Or.inr hne)
    have hrun : pcsAnIntCmpl hw .zero s
        = (pcsKrtStart hw .zero >>= fun _ =>
            pcsAnClearIntr hw .zero 0 0 >>= fun _ =>
              setLinkCheck PCS_LINK_CHECK_SLOW_TIMER_USECS) s := by
      unfold pcsAnIntCmpl
      rw [get_bind_run, if_neg h]
    rw [hrun]
    exact Heard.trans _ _ _ (pcsKrtStart_heard hv) (hdone _)

theorem pcsAnIncLink_heard (random : U32) :
    Moves Heard (pcsAnIncLink hw .zero random) := by
  refine heard_bind (kept_heard (pcsAnClearIntr_kept _ _)) fun _ => ?_
  refine heard_bind pcsAnDisable_heard fun _ => ?_
  exact kept_heard (setLinkCheck_kept _)

theorem pcsAnNxpCheck_heard : Moves Heard (pcsAnNxpCheck hw .zero) := by
  intro s
  have hturn : Heard s (nxpTurn hw .zero s).2 :=
    kept_heard nxpTurn_kept s
  rw [pcsAnNxpCheck_eq, bind_run, get_bind_run]
  refine Heard.trans _ _ _ hturn ?_
  split
  · rename_i h
    exact pcsKrtStart_heard ⟨h.2.2.2.1, h.2.2.2.2⟩
  · exact pure_heard () _

theorem countPage_heard : Moves Heard (countPage hw .zero) := by
  have hstep : Moves Heard (modify fun s : Nic H =>
      { s with pcs0.anRcvCnt := s.pcs0.anRcvCnt + 1 }) :=
    kept_heard fun _ => rfl
  refine heard_bind hstep fun _ s => ?_
  rw [get_bind_run]
  exact Moves.ite (fun _ => pcsAnDisable_heard)
    (fun _ => pure_heard ()) s

theorem pcsAnPgRcv_heard : Moves Heard (pcsAnPgRcv hw .zero) := by
  have hstatus : Moves Heard (readStatus hw .zero) :=
    kept_heard readStatus_kept
  have hpage : Moves Heard (pcsAnNxpCheck hw .zero >>= fun _ =>
      readStatus hw .zero >>= fun _ => countPage hw .zero) :=
    heard_bind pcsAnNxpCheck_heard fun _ =>
      heard_bind hstatus fun _ => countPage_heard
  have hdone : Moves Heard (pageDone hw .zero) :=
    kept_heard (kept_bind (pcsAnClearIntr_kept _ _) fun _ =>
      setLinkCheck_kept _)
  intro s
  show Heard s ((_ >>= fun _ => pageDone hw .zero) s).2
  refine heard_bind (Moves.ite (fun _ => ?_) fun _ => ?_)
    (fun _ => hdone) s
  · exact hpage
  · exact pure_heard ()

theorem anHandle_heard (anIntr random : U32) :
    Moves Heard (anHandle hw anIntr random) := by
  have hcnt : Moves Heard (modify fun s : Nic H =>
      { s with pcs0.anIntrCheckCnt := 0 }) := kept_heard fun _ => rfl
  refine heard_bind (Moves.ite (fun _ => pcsAnIntCmpl_heard)
    fun _ => pure_heard ()) fun _ => ?_
  refine heard_bind (Moves.ite (fun _ => pcsAnIncLink_heard random)
    fun _ => pure_heard ()) fun _ => ?_
  refine heard_bind (Moves.ite (fun _ => pcsAnPgRcv_heard)
    fun _ => pure_heard ()) fun _ => ?_
  exact hcnt

theorem anCheckTimeout_heard : Moves Heard (anCheckTimeout hw) := by
  intro s
  unfold anCheckTimeout
  rw [get_bind_run]
  exact Moves.ite (fun _ => pcsAnTimeout_heard)
    (fun _ => pure_heard ()) s

theorem anLinkUpOnly_talk (random : U32) (s : Nic H) :
    (anLinkUpOnly hw random s).2.talk
      = { s.talk with anStart := 0, krtSuccess := 1, anSuccess := 1 } := by
  have hdis : (pcsAnDisable hw .zero s).2.talk
      = { s.talk with anStart := 0 } := pcsAnDisable_talk s
  have hset : (anLinkUpOnly hw random s).2.talk
      = { (pcsAnDisable hw .zero s).2.talk with
          krtSuccess := 1, anSuccess := 1 } := rfl
  rw [hset, hdis]

-- =============================================== starting and checking

theorem pcsAnStart_talk {s : Nic H} (hen : s.pcs0.anEn ≠ 0) :
    (pcsAnStart hw .zero s).2.talk
      = { s.talk with
          anStart := 1, anSuccess := 0, krtSuccess := 0, krtFailed := 0 } := by
  have hacc : Moves Kept (pcsAnClearAllIntr hw .zero >>= fun _ =>
      pcsRegRead hw .zero SR_AN_CTRL >>= fun data =>
        pcsRegWrite hw .zero SR_AN_CTRL
          (setBits (setBits data 12 12 0x1) 9 9 0x1)) :=
    kept_bind (pcsRegWrite_kept (by decide) _) fun _ =>
      kept_bind (pcsRegRead_kept _) fun _ =>
        pcsRegWrite_kept (by decide) _
  unfold pcsAnStart
  rw [get_bind_run, if_pos hen, ← hacc s]
  rfl

/-- Negotiation is started with two writes. -/
theorem pcsAnStart_longer {s : Nic H} (hen : s.pcs0.anEn ≠ 0) :
    Longer .zero 2 s (pcsAnStart hw .zero s).2 := by
  have hacc : Moves (Wrote .zero 2)
      (pcsAnClearAllIntr hw .zero >>= fun _ =>
        pcsRegRead hw .zero SR_AN_CTRL >>= fun data =>
          pcsRegWrite hw .zero SR_AN_CTRL
            (setBits (setBits data 12 12 0x1) 9 9 0x1)) :=
    wrote_bind 1 1 (pcsRegWrite_moves _ _) fun _ =>
      wrote_bind 0 1 (pcsRegRead_moves _) fun _ => pcsRegWrite_moves _ _
  unfold pcsAnStart
  rw [get_bind_run, if_pos hen]
  exact (hacc s).longer

/-- The flags after a look at the status of a training. -/
def Talk.judge (v : Talk) (data : U32) : Talk :=
  { v with
    krtFailed :=
      if krtHasFailed v.krtLaneMask data then 1 else v.krtFailed
    krtSuccess :=
      if krtSucceeded v.krtLaneMask data then 1 else v.krtSuccess
    krtStart :=
      if ¬ krtHasFailed v.krtLaneMask data
          ∧ ¬ krtSucceeded v.krtLaneMask data then v.krtStart else 0 }

/-- The training status that port 0's block reports. -/
def Nic.krtStatus (hw : PcsHw H) (s : Nic H) : U32 :=
  (hw.read s.block0.regs SR_PMA_KR_PMD_STS).1

theorem pcsKrtCheckState_talk (s : Nic H) :
    (pcsKrtCheckState hw .zero s).2.talk
      = s.talk.judge (s.krtStatus hw) := by
  have hrun : pcsKrtCheckState hw .zero s = (do
      (if krtHasFailed s.talk.krtLaneMask (s.krtStatus hw) then
        onPort .zero fun f => { f with krtFailed := 1 }
      else pure ())
      (if krtSucceeded s.talk.krtLaneMask (s.krtStatus hw) then
        onPort .zero fun f => { f with krtSuccess := 1 }
      else pure ())
      (if ¬ krtHasFailed s.talk.krtLaneMask (s.krtStatus hw)
          ∧ ¬ krtSucceeded s.talk.krtLaneMask (s.krtStatus hw) then
        setLinkCheck PCS_LINK_CHECK_FAST_TIMER_USECS
      else do
        onPort .zero fun f => { f with krtStart := 0 }
        setLinkCheck PCS_LINK_CHECK_SLOW_TIMER_USECS))
      (pcsRegRead hw .zero SR_PMA_KR_PMD_STS s).2 := rfl
  rw [hrun]
  unfold Talk.judge
  by_cases hf : krtHasFailed s.talk.krtLaneMask (s.krtStatus hw)
  · by_cases hs : krtSucceeded s.talk.krtLaneMask (s.krtStatus hw)
    · simp only [if_pos hs, hf, not_true_eq_false, false_and, if_false]
      rfl
    · simp only [if_neg hs, hf, not_true_eq_false, false_and, if_false]
      rfl
  · by_cases hs : krtSucceeded s.talk.krtLaneMask (s.krtStatus hw)
    · simp only [if_neg hf, hs, not_true_eq_false, and_false, if_false]
      rfl
    · simp only [if_neg hf, if_neg hs, if_pos (And.intro hf hs)]
      rfl

-- ======================================================== second half

/-- All that the second half of a tick can do. -/
inductive Turned (hw : PcsHw H) (linkUpOnly : U32) (s t : Nic H) : Prop
  | left (hv : s.talk.anEn = 0
        ∨ (s.talk.anSuccess ≠ 0 ∧ s.talk.krtSuccess ≠ 0))
      (h : t = s)
  | restarted (hen : s.talk.anEn ≠ 0) (hidle : s.talk.anStart = 0)
      (hrun : s.talk.krtStart = 0)
      (h : t.talk = { s.talk with
        anStart := 1, anSuccess := 0, krtSuccess := 0, krtFailed := 0 })
  | checked (hen : s.talk.anEn ≠ 0)
      (hv : s.talk.anSuccess = 0 ∨ s.talk.krtSuccess = 0)
      (hrun : s.talk.krtStart ≠ 0)
      (h : t.talk = s.talk.judge (s.krtStatus hw))
  | heard (hrun : s.talk.krtStart = 0) (h : Heard s t)
  | forced (hup : linkUpOnly ≠ 0) (hrun : s.talk.krtStart = 0)
      (h : t.talk
        = { s.talk with anStart := 0, krtSuccess := 1, anSuccess := 1 })

theorem anWatch_turned (linkUpOnly random : U32) {s : Nic H}
    (hrun : s.talk.krtStart = 0) :
    Turned hw linkUpOnly s (anWatch hw linkUpOnly random s).2 := by
  have hread : Moves Kept (pcsAnGetIntr hw .zero) :=
    kept_bind (pcsRegRead_kept _) fun _ => Moves.pure Kept.refl _
  have hcnt : Moves Heard (modify fun s : Nic H =>
      { s with pcs0.anIntrCheckCnt := s.pcs0.anIntrCheckCnt + 1 }) :=
    kept_heard fun _ => rfl
  have hkept : (pcsAnGetIntr hw .zero s).2.talk = s.talk := hread s
  unfold anWatch
  rw [bind_run]
  by_cases hintr : (pcsAnGetIntr hw .zero s).1 = 0
  · rw [if_neg (not_not.2 hintr)]
    refine .heard hrun (Heard.trans _ _ _ (Kept.heard _ _ hkept) ?_)
    exact heard_bind hcnt (fun _ => anCheckTimeout_heard) _
  · rw [if_pos hintr]
    by_cases hup : linkUpOnly = 0
    · rw [if_neg (not_not.2 hup)]
      refine .heard hrun (Heard.trans _ _ _ (Kept.heard _ _ hkept) ?_)
      exact heard_bind (anHandle_heard _ _)
        (fun _ => anCheckTimeout_heard) _
    · rw [if_pos hup]
      refine .forced hup hrun ?_
      rw [anLinkUpOnly_talk, hkept]

/-- The second half of a tick, by the branches of its conditions. -/
theorem negotiate_turned (linkUpOnly random : U32) (s : Nic H) :
    Turned hw linkUpOnly s (negotiate hw linkUpOnly random s).2 := by
  unfold negotiate
  rw [get_bind_run]
  split
  · rename_i hv
    split
    · rename_i hidle
      exact .restarted hv.1 hidle.1 hidle.2 (pcsAnStart_talk hv.1)
    · split
      · rename_i hrun
        exact .checked hv.1 hv.2 hrun (pcsKrtCheckState_talk s)
      · rename_i hrun
        exact anWatch_turned linkUpOnly random (not_not.1 hrun)
  · rename_i hv
    have hleft : s.talk.anEn = 0
        ∨ (s.talk.anSuccess ≠ 0 ∧ s.talk.krtSuccess ≠ 0) := by
      by_cases hen : s.pcs0.anEn = 0
      · exact Or.inl hen
      · refine Or.inr ⟨fun h => hv ⟨hen, Or.inl h⟩, fun h => ?_⟩
        exact hv ⟨hen, Or.inr h⟩
    exact .left hleft rfl

theorem negotiate_left (linkUpOnly random : U32) {s : Nic H}
    (han : s.pcs0.anSuccess ≠ 0) (hkrt : s.pcs0.krtSuccess ≠ 0) :
    negotiate hw linkUpOnly random s = ((), s) := by
  unfold negotiate
  rw [get_bind_run, if_neg]
  · rfl
  · rintro ⟨-, h⟩
    exact h.elim han hkrt

theorem negotiate_restart (linkUpOnly random : U32) {s : Nic H}
    (hen : s.pcs0.anEn ≠ 0) (hkrt : s.pcs0.krtSuccess = 0)
    (hidle : s.pcs0.anStart = 0) (hrun : s.pcs0.krtStart = 0) :
    negotiate hw linkUpOnly random s = pcsAnStart hw .zero s := by
  unfold negotiate
  rw [get_bind_run, if_pos ⟨hen, Or.inr hkrt⟩, if_pos ⟨hidle, hrun⟩]

end BxRnic.Pcs
