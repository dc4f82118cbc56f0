/-
The verdicts on trainings over whole runs of the link check.

A training is under way from the writes that start it to the first tick
that leaves a verdict (`Watched`). The flags follow it, and they are
never at odds, as long as no look at the status shows a trained lane
beside one that is not: `pcs_krt_check_state` takes a single trained
lane of the mask for the success of them all.
-/
import BxRnic.Lib.Run
import BxRnic.Pcs.Proofs.Negotiation

namespace BxRnic.Pcs

variable {H : Type}

-- ================================================================ flags

/-- What the flags of every reachable state have in common. -/
structure Talk.Inv (v : Talk) : Prop where
  open_of_run : v.krtStart ≠ 0 → v.Open
  not_open : v.anSuccess ≠ 0 → ¬ v.Open
  idle : v.anSuccess ≠ 0 → v.anStart = 0

theorem Talk.Inv.krtStart {v : Talk} (h : v.Inv)
    (han : v.anSuccess ≠ 0) : v.krtStart = 0 := by
  by_contra hrun
  exact h.not_open han (h.open_of_run hrun)

/-- Nothing is held against a negotiation that starts over. -/
theorem Talk.inv_fresh (v : Talk) (anStart : U32) :
    Inv { v with
      anStart := anStart, anSuccess := 0, krtSuccess := 0, krtFailed := 0 } :=
  ⟨fun _ => ⟨rfl, rfl⟩, fun hne => absurd rfl hne,
    fun hne => absurd rfl hne⟩

theorem Talk.Hears.inv {v w : Talk} (h : Hears v w) (hv : v.Inv) :
    w.Inv := by
  cases h with
  | idle => exact ⟨hv.open_of_run, hv.not_open, fun _ => rfl⟩
  | negotiated hopen =>
    exact ⟨hv.open_of_run, fun _ => hopen, fun _ => rfl⟩
  | started hopen hrun hen =>
    exact ⟨fun _ => hopen, hv.not_open, hv.idle⟩
  | refused hopen hrun hen =>
    have hone : (1 : U32) ≠ 0 := by decide
    exact ⟨fun hne => absurd hrun hne, fun _ hopen' => hone hopen'.2,
      hv.idle⟩

theorem Talk.Inv.heard {v w : Talk} (hv : v.Inv)
    (h : Relation.ReflTransGen Hears v w) : w.Inv := by
  induction h with
  | refl => exact hv
  | tail _ h ih => exact h.inv ih

theorem Talk.Inv.judge {v : Talk} (hv : v.Inv) (hrun : v.krtStart ≠ 0)
    (data : U32) : (v.judge data).Inv := by
  have hopen : v.Open := hv.open_of_run hrun
  have han : v.anSuccess = 0 := by
    by_contra hne
    exact hv.not_open hne hopen
  refine ⟨fun hne => ?_, fun hne => absurd han hne,
    fun hne => absurd han hne⟩
  have hnone : ¬ krtHasFailed v.krtLaneMask data
      ∧ ¬ krtSucceeded v.krtLaneMask data := by
    by_contra hsome
    exact hne (if_neg hsome)
  constructor
  · exact (if_neg hnone.2).trans hopen.1
  · exact (if_neg hnone.1).trans hopen.2

theorem Turned.inv {hw : PcsHw H} {linkUpOnly : U32} {s t : Nic H}
    (h : Turned hw linkUpOnly s t) (hs : s.talk.Inv) : t.talk.Inv := by
  cases h with
  | left hv h =>
    rw [h]
    exact hs
  | restarted hen hidle hrun h =>
    rw [h]
    exact s.talk.inv_fresh 1
  | checked hen hv hrun h =>
    rw [h]
    exact hs.judge hrun _
  | heard hrun h => exact hs.heard h
  | forced hup hrun h =>
    rw [h]
    have hone : (1 : U32) ≠ 0 := by decide
    exact ⟨fun hne => absurd hrun hne, fun _ hopen => hone hopen.1,
      fun _ => rfl⟩

-- ================================================================ ticks

section Ticks

variable (hw : PcsHw H) (st : LinkState H) (tick : Tick)

/-- The first half of a tick leaves the negotiation alone, or takes back
what it has come to. -/
theorem noted_talk :
    (st.noted hw tick).nic.talk = st.nic.talk
      ∨ (st.noted hw tick).nic.talk
        = { st.nic.talk with
            anSuccess := 0, krtSuccess := 0, krtFailed := 0 } := by
  have hlook : (st.looked hw tick).nic.talk = st.nic.talk :=
    (linkSeen_onlyRead tick 5 st.nic).kept
  rw [← hlook]
  unfold LinkState.noted LinkState.note
  split
  · exact Or.inl rfl
  · split
    · exact Or.inr rfl
    · exact Or.inl rfl

theorem noted_linkUpOnly :
    (st.noted hw tick).linkUpOnly = st.linkUpOnly := by
  unfold LinkState.noted LinkState.note
  split
  · rfl
  · split
    · rfl
    · rfl

theorem tick_linkUpOnly :
    (st.tick hw tick).linkUpOnly = st.linkUpOnly :=
  noted_linkUpOnly hw st tick

theorem tick_turned :
    Turned hw st.linkUpOnly (st.noted hw tick).nic
      (st.tick hw tick).nic := by
  rw [← noted_linkUpOnly hw st tick]
  exact negotiate_turned _ _ _

variable {st}

theorem noted_inv (h : st.nic.talk.Inv) :
    (st.noted hw tick).nic.talk.Inv := by
  rcases noted_talk hw st tick with heq | heq
  · rw [heq]
    exact h
  · rw [heq]
    exact st.nic.talk.inv_fresh st.nic.talk.anStart

theorem tick_inv (h : st.nic.talk.Inv) :
    (st.tick hw tick).nic.talk.Inv :=
  (tick_turned hw st tick).inv (noted_inv hw tick h)

end Ticks

theorem init_inv (nic : Nic H) (linkUpOnly : U32) :
    (LinkState.init nic linkUpOnly).nic.talk.Inv :=
  (LinkState.init nic linkUpOnly).nic.talk.inv_fresh 0

-- ============================================================ trainings

/-- Every lane of the mask has trained. -/
def AllTrained (krtLaneMask data : U32) : Prop :=
  (getBits krtLaneMask 0 0 = 1 → getBits data 3 0 = 1)
    ∧ (getBits krtLaneMask 1 1 = 1 → getBits data 7 4 = 1)
    ∧ (getBits krtLaneMask 2 2 = 1 → getBits data 11 8 = 1)
    ∧ (getBits krtLaneMask 3 3 = 1 → getBits data 15 12 = 1)
deriving Decidable

/-- The training status a tick looks at, if it looks. -/
def LinkState.krtLook (hw : PcsHw H) (st : LinkState H) (tick : Tick) :
    Option U32 :=
  if (st.noted hw tick).nic.pcs0.anEn ≠ 0
      ∧ ((st.noted hw tick).nic.pcs0.anSuccess = 0
        ∨ (st.noted hw tick).nic.pcs0.krtSuccess = 0)
      ∧ (st.noted hw tick).nic.pcs0.krtStart ≠ 0 then
    some ((st.noted hw tick).nic.krtStatus hw)
  else none

/-- A run with a note of whether a training has been started and left
without a verdict. -/
structure Watched (H : Type) where
  st : LinkState H
  underway : Bool

/-- Port 0 ahead of the first tick, without the short cut. -/
def Watched.init (nic : Nic H) : Watched H where
  st := LinkState.init nic 0
  underway := false

/-- A tick, and whether it has started a training or left a verdict. -/
def Watched.tick (hw : PcsHw H) (w : Watched H) (tick : Tick) :
    Watched H where
  st := w.st.tick hw tick
  underway :=
    (w.underway
      || decide (w.st.nic.trainings < (w.st.tick hw tick).nic.trainings))
      && decide (w.st.tick hw tick).nic.talk.Open

/-- What a tick makes of the flags is in order. -/
structure Verdict (hw : PcsHw H) (w : Watched H) (tick : Tick) :
    Prop where
  /-- Success is noted when all lanes have trained and none has
  failed. -/
  success : (w.st.noted hw tick).nic.pcs0.krtSuccess = 0 →
    (w.st.tick hw tick).nic.pcs0.krtSuccess ≠ 0 →
    ∃ data, w.st.krtLook hw tick = some data
      ∧ AllTrained w.st.nic.pcs0.krtLaneMask data
      ∧ ¬ krtHasFailed w.st.nic.pcs0.krtLaneMask data
  /-- A failing lane is noted. -/
  failure : ∀ data, w.st.krtLook hw tick = some data →
    krtHasFailed w.st.nic.pcs0.krtLaneMask data →
    (w.st.tick hw tick).nic.pcs0.krtFailed ≠ 0
  /-- There are not two verdicts. -/
  single : ¬ ((w.st.tick hw tick).nic.pcs0.krtSuccess ≠ 0
    ∧ (w.st.tick hw tick).nic.pcs0.krtFailed ≠ 0)
  /-- `pcs_0_krt_start` tells whether a training is under way. -/
  start : (w.st.tick hw tick).nic.pcs0.krtStart ≠ 0
    ↔ (w.tick hw tick).underway
  /-- Negotiation succeeds after a verdict. -/
  negotiated : (w.st.tick hw tick).nic.pcs0.anSuccess ≠ 0 →
    (w.st.tick hw tick).nic.pcs0.krtSuccess ≠ 0
      ∨ (w.st.tick hw tick).nic.pcs0.krtFailed ≠ 0

/-- No look of the tick shows a trained lane of the mask beside one that
has not trained. -/
def Watched.NotMixed (hw : PcsHw H) (w : Watched H) (tick : Tick) :
    Prop :=
  ∀ data, w.st.krtLook hw tick = some data →
    krtSucceeded w.st.nic.pcs0.krtLaneMask data →
    AllTrained w.st.nic.pcs0.krtLaneMask data

-- =============================================================== lanes

/-- The top bit of a nibble that is 1 is clear. -/
theorem top_of_nibble {x : U32} (h : x >>> 28 = 1) : x >>> 31 ≠ 1 := by
  have hsplit : x >>> 31 = x >>> 28 >>> 3 :=
    BitVec.shiftRight_add x 28 3
  rw [hsplit, h]
  decide

theorem AllTrained.not_failed {krtLaneMask data : U32}
    (h : AllTrained krtLaneMask data) :
    ¬ krtHasFailed krtLaneMask data := by
  obtain ⟨h0, h1, h2, h3⟩ := h
  rintro (⟨hm, hf⟩ | ⟨hm, hf⟩ | ⟨hm, hf⟩ | ⟨hm, hf⟩)
  · exact top_of_nibble (h0 hm) hf
  · exact top_of_nibble (h1 hm) hf
  · exact top_of_nibble (h2 hm) hf
  · exact top_of_nibble (h3 hm) hf

-- ============================================================ tallies

/-- While the interrupts are handled no training succeeds, and one is
started exactly if its writes are made. -/
structure Talk.Tallied (v w : Talk) : Prop where
  krtSuccess : w.krtSuccess = v.krtSuccess
  mask : w.krtLaneMask = v.krtLaneMask
  le : v.trainings ≤ w.trainings
  start : w.krtStart ≠ 0 ↔ v.trainings < w.trainings
  single : ¬ (w.krtSuccess ≠ 0 ∧ w.krtFailed ≠ 0)

theorem Talk.Tallied.hears {u v w : Talk} (h : Tallied u v)
    (hw : Hears v w) : Tallied u w := by
  cases hw with
  | idle => exact ⟨h.krtSuccess, h.mask, h.le, h.start, h.single⟩
  | negotiated => exact ⟨h.krtSuccess, h.mask, h.le, h.start, h.single⟩
  | started hopen hrun hen =>
    have hle := h.le
    refine ⟨h.krtSuccess, h.mask, ?_, ?_, h.single⟩
    · show u.trainings ≤ v.trainings + 2
      omega
    · have hone : (1 : U32) ≠ 0 := by decide
      refine iff_of_true hone ?_
      show u.trainings < v.trainings + 2
      omega
  | refused hopen hrun hen =>
    exact ⟨h.krtSuccess, h.mask, h.le, h.start,
      fun hboth => hboth.1 hopen.1⟩

theorem Talk.tallied_of_heard {v w : Talk} (hrun : v.krtStart = 0)
    (hv : ¬ (v.krtSuccess ≠ 0 ∧ v.krtFailed ≠ 0))
    (h : Relation.ReflTransGen Hears v w) : v.Tallied w := by
  induction h with
  | refl =>
    refine ⟨rfl, rfl, le_rfl, ?_, hv⟩
    exact iff_of_false (not_not.2 hrun) (lt_irrefl _)
  | tail _ h ih => exact ih.hears h

-- ================================================================ runs

/-- What holds of every watched state that verdicts in order lead to. -/
structure Watched.Inv (w : Watched H) : Prop where
  flags : w.st.nic.talk.Inv
  short : w.st.linkUpOnly = 0
  single : ¬ (w.st.nic.talk.krtSuccess ≠ 0
    ∧ w.st.nic.talk.krtFailed ≠ 0)
  start : w.st.nic.talk.krtStart ≠ 0 ↔ w.underway

section Runs

variable {hw : PcsHw H} {w : Watched H} {tick : Tick}

/-- The first half of a tick neither starts nor ends a training. -/
theorem noted_training (hw : PcsHw H) (st : LinkState H) (tick : Tick) :
    (st.noted hw tick).nic.talk.krtStart = st.nic.talk.krtStart
      ∧ (st.noted hw tick).nic.talk.krtLaneMask
        = st.nic.talk.krtLaneMask
      ∧ (st.noted hw tick).nic.talk.trainings = st.nic.talk.trainings := by
  rcases noted_talk hw st tick with h | h
  · rw [h]
    exact ⟨rfl, rfl, rfl⟩
  · rw [h]
    exact ⟨rfl, rfl, rfl⟩

theorem Watched.Inv.noted_single (h : w.Inv) (tick : Tick) :
    ¬ ((w.st.noted hw tick).nic.talk.krtSuccess ≠ 0
      ∧ (w.st.noted hw tick).nic.talk.krtFailed ≠ 0) := by
  rcases noted_talk hw w.st tick with heq | heq
  · rw [heq]
    exact h.single
  · rw [heq]
    exact fun hboth => hboth.1 rfl

theorem krtLook_of_running
    (hrun : (w.st.noted hw tick).nic.talk.krtStart ≠ 0)
    (hen : (w.st.noted hw tick).nic.talk.anEn ≠ 0)
    (hv : (w.st.noted hw tick).nic.talk.anSuccess = 0
      ∨ (w.st.noted hw tick).nic.talk.krtSuccess = 0) :
    w.st.krtLook hw tick
      = some ((w.st.noted hw tick).nic.krtStatus hw) :=
  if_pos ⟨hen, hv, hrun⟩

theorem krtLook_eq_some {data : U32}
    (h : w.st.krtLook hw tick = some data) :
    (w.st.noted hw tick).nic.talk.anEn ≠ 0
      ∧ ((w.st.noted hw tick).nic.talk.anSuccess = 0
        ∨ (w.st.noted hw tick).nic.talk.krtSuccess = 0)
      ∧ (w.st.noted hw tick).nic.talk.krtStart ≠ 0 := by
  unfold LinkState.krtLook at h
  split at h
  · rename_i hcond
    exact hcond
  · cases h

/-- A look without a verdict leaves the training running. -/
theorem judge_start_of_open {v : Talk} {data : U32}
    (h : (v.judge data).Open) : (v.judge data).krtStart = v.krtStart := by
  have hone : (1 : U32) ≠ 0 := by decide
  refine if_pos ⟨fun hf => ?_, fun hs => ?_⟩
  · exact hone ((if_pos hf).symm.trans h.2)
  · exact hone ((if_pos hs).symm.trans h.1)

/-- The note of a training follows `pcs_0_krt_start`. -/
theorem Watched.Inv.tick_start (h : w.Inv) (hw : PcsHw H) (tick : Tick) :
    (w.st.tick hw tick).nic.talk.krtStart ≠ 0
      ↔ (w.tick hw tick).underway := by
  have hinv := tick_inv hw tick h.flags
  have hwas := h.start
  have hnoted := noted_inv hw tick h.flags
  obtain ⟨hstart, -, htr⟩ := noted_training hw w.st tick
  have hcount : w.st.nic.trainings = w.st.nic.talk.trainings := rfl
  have hcount' : (w.st.tick hw tick).nic.trainings
      = (w.st.tick hw tick).nic.talk.trainings := rfl
  unfold Watched.tick
  simp only [Bool.and_eq_true, Bool.or_eq_true, decide_eq_true_eq]
  rw [← hwas, hcount, hcount', ← hstart, ← htr]
  cases tick_turned hw w.st tick with
  | left hv heq =>
    rw [heq]
    refine ⟨fun hne => ⟨Or.inl hne, hnoted.open_of_run hne⟩, ?_⟩
    rintro ⟨hne | hlt, -⟩
    · exact hne
    · exact absurd hlt (lt_irrefl _)
  | restarted hen hidle hrun heq =>
    rw [heq]
    refine ⟨fun hne => absurd hrun hne, ?_⟩
    rintro ⟨hne | hlt, -⟩
    · exact hne
    · exact absurd hlt (lt_irrefl _)
  | checked hen hv hrun heq =>
    refine ⟨fun hne => ⟨Or.inl hrun, hinv.open_of_run hne⟩, ?_⟩
    rintro ⟨-, hopen⟩
    rw [heq] at hopen ⊢
    rwa [judge_start_of_open hopen]
  | heard hrun hheard =>
    have htal := Talk.tallied_of_heard hrun (h.noted_single tick) hheard
    refine ⟨fun hne => ⟨Or.inr (htal.start.1 hne),
      hinv.open_of_run hne⟩, ?_⟩
    rintro ⟨hne | hlt, -⟩
    · exact absurd hrun hne
    · exact htal.start.2 hlt
  | forced hup hrun heq => exact absurd h.short hup

theorem Watched.Inv.tick_negotiated (h : w.Inv) (hw : PcsHw H)
    (tick : Tick)
    (han : (w.st.tick hw tick).nic.pcs0.anSuccess ≠ 0) :
    (w.st.tick hw tick).nic.pcs0.krtSuccess ≠ 0
      ∨ (w.st.tick hw tick).nic.pcs0.krtFailed ≠ 0 := by
  by_contra hnone
  refine (tick_inv hw tick h.flags).not_open han ⟨?_, ?_⟩
  · by_contra hs
    exact hnone (Or.inl hs)
  · by_contra hf
    exact hnone (Or.inr hf)

/-- A tick that does not look at the status of a training leaves no
success and not both verdicts. -/
theorem Watched.Inv.tick_unchecked (h : w.Inv)
    (hlook : w.st.krtLook hw tick = none) :
    ((w.st.noted hw tick).nic.talk.krtSuccess = 0 →
      (w.st.tick hw tick).nic.talk.krtSuccess = 0)
    ∧ ¬ ((w.st.tick hw tick).nic.talk.krtSuccess ≠ 0
      ∧ (w.st.tick hw tick).nic.talk.krtFailed ≠ 0) := by
  cases tick_turned hw w.st tick with
  | left hv heq =>
    rw [heq]
    exact ⟨id, h.noted_single tick⟩
  | restarted hen hidle hrun heq =>
    rw [heq]
    exact ⟨fun _ => rfl, fun hboth => hboth.1 rfl⟩
  | checked hen hv hrun heq =>
    rw [krtLook_of_running hrun hen hv] at hlook
    cases hlook
  | heard hrun hheard =>
    have htal := Talk.tallied_of_heard hrun (h.noted_single tick) hheard
    refine ⟨fun hs => ?_, htal.single⟩
    rw [htal.krtSuccess]
    exact hs
  | forced hup hrun heq => exact absurd h.short hup

/-- A tick that looks judges by what it sees. -/
theorem Watched.Inv.tick_checked (h : w.Inv) {data : U32}
    (hlook : w.st.krtLook hw tick = some data) :
    (w.st.noted hw tick).nic.talk.Open
      ∧ (w.st.tick hw tick).nic.talk
        = (w.st.noted hw tick).nic.talk.judge data := by
  obtain ⟨hen, hv, hrun⟩ := krtLook_eq_some hlook
  refine ⟨(noted_inv hw tick h.flags).open_of_run hrun, ?_⟩
  rw [krtLook_of_running hrun hen hv] at hlook
  cases hlook
  cases tick_turned hw w.st tick with
  | left hdone heq =>
    rcases hdone with hoff | ⟨han, hkrt⟩
    · exact absurd hoff hen
    · exact absurd hv (not_or.2 ⟨han, hkrt⟩)
  | restarted _ _ hstop heq => exact absurd hstop hrun
  | checked _ _ _ heq => exact heq
  | heard hstop hheard => exact absurd hstop hrun
  | forced hup hstop heq => exact absurd hstop hrun

/-- The verdict of a look at the status is right exactly if what it sees
is not mixed. -/
theorem judge_right_iff {v : Talk} (hopen : v.Open) (data : U32) :
    (((v.judge data).krtSuccess ≠ 0 → AllTrained v.krtLaneMask data)
        ∧ ¬ ((v.judge data).krtSuccess ≠ 0
          ∧ (v.judge data).krtFailed ≠ 0))
      ↔ (krtSucceeded v.krtLaneMask data →
          AllTrained v.krtLaneMask data) := by
  have hone : (1 : U32) ≠ 0 := by decide
  have hs : (v.judge data).krtSuccess ≠ 0
      ↔ krtSucceeded v.krtLaneMask data := by
    by_cases h : krtSucceeded v.krtLaneMask data
    · exact iff_of_true (fun h0 => hone ((if_pos h).symm.trans h0)) h
    · exact iff_of_false
        (fun h0 => h0 ((if_neg h).trans hopen.1)) h
  have hf : (v.judge data).krtFailed ≠ 0
      ↔ krtHasFailed v.krtLaneMask data := by
    by_cases h : krtHasFailed v.krtLaneMask data
    · exact iff_of_true (fun h0 => hone ((if_pos h).symm.trans h0)) h
    · exact iff_of_false
        (fun h0 => h0 ((if_neg h).trans hopen.2)) h
  rw [hs, hf]
  refine ⟨fun h => h.1, fun h => ⟨h, ?_⟩⟩
  rintro ⟨hsome, hfail⟩
  exact (h hsome).not_failed hfail

/-- The verdict of a tick is in order exactly if it looks at no mixed
status. -/
theorem Watched.Inv.verdict_iff (h : w.Inv) (hw : PcsHw H)
    (tick : Tick) : Verdict hw w tick ↔ w.NotMixed hw tick := by
  have hmask : (w.st.noted hw tick).nic.talk.krtLaneMask
      = w.st.nic.pcs0.krtLaneMask := (noted_training hw w.st tick).2.1
  cases hlook : w.st.krtLook hw tick with
  | none =>
    obtain ⟨hs, hsingle⟩ := h.tick_unchecked hlook
    refine iff_of_true ?_ fun data hdata => ?_
    · exact
        { success := fun h0 hne => absurd (hs h0) hne
          failure := fun data hdata => by
            rw [hlook] at hdata
            cases hdata
          single := hsingle
          start := h.tick_start hw tick
          negotiated := h.tick_negotiated hw tick }
    · rw [hlook] at hdata
      cases hdata
  | some data =>
    obtain ⟨hopen, heq⟩ := h.tick_checked hlook
    have hright := judge_right_iff hopen data
    rw [← heq, hmask] at hright
    have hsome : w.NotMixed hw tick
        ↔ (krtSucceeded w.st.nic.pcs0.krtLaneMask data →
          AllTrained w.st.nic.pcs0.krtLaneMask data) := by
      unfold Watched.NotMixed
      rw [hlook]
      exact ⟨fun hall => hall data rfl, fun hd d hd' => by
        cases hd'
        exact hd⟩
    rw [hsome, ← hright]
    constructor
    · intro hv
      refine ⟨fun hne => ?_, hv.single⟩
      obtain ⟨d, hd, hall, -⟩ := hv.success hopen.1 hne
      rw [hlook] at hd
      cases hd
      exact hall
    · rintro ⟨hs, hsingle⟩
      refine
        { success := fun _ hne =>
            ⟨data, hlook, hs hne, (hs hne).not_failed⟩
          failure := fun d hd hf => ?_
          single := hsingle
          start := h.tick_start hw tick
          negotiated := h.tick_negotiated hw tick }
      rw [hlook] at hd
      cases hd
      have hone : (1 : U32) ≠ 0 := by decide
      have hset : (w.st.tick hw tick).nic.talk.krtFailed = 1 := by
        rw [heq]
        refine if_pos ?_
        rw [hmask]
        exact hf
      intro h0
      exact hone (hset.symm.trans h0)

theorem Watched.Inv.next (h : w.Inv) (hv : Verdict hw w tick) :
    (w.tick hw tick).Inv where
  flags := tick_inv hw tick h.flags
  short := (tick_linkUpOnly hw w.st tick).trans h.short
  single := hv.single
  start := hv.start

theorem watched_init (nic : Nic H) : (Watched.init nic).Inv where
  flags := init_inv nic 0
  short := rfl
  single := fun hboth => hboth.1 rfl
  start := iff_of_false (fun hne => hne rfl) Bool.false_ne_true

end Runs

/-- The verdicts of a run are in order exactly if no look at the status
of a training shows a lane of the mask trained beside one that is
not. -/
theorem krt_verdict_iff (hw : PcsHw H) (nic : Nic H)
    (ticks : List Tick) :
    Run.Each (Watched.tick hw) (Verdict hw) (Watched.init nic) ticks
      ↔ Run.Each (Watched.tick hw) (Watched.NotMixed hw)
          (Watched.init nic) ticks :=
  Run.each_iff_each_of_inv (I := Watched.Inv)
    (fun _ tick h => h.verdict_iff hw tick)
    (fun _ _ h hv => h.next hv) (watched_init nic)

/-- Registers that report a completed negotiation, the first lane
trained and the second one failed. -/
def oneLaneOfTwo : PcsHw Unit where
  read _ offset :=
    if offset = VR_AN_INTR then (0x1, ())
    else if offset = SR_PMA_KR_PMD_STS then (0x81, ())
    else (0x0, ())
  write _ _ _ := ()

/-- A port with negotiation, training and two lanes. -/
def twoLanes : Nic Unit where
  pcs0 := { fieldsWith 1 with krtEn := 1, krtLaneMask := 0x3 }
  pcs1 := fieldsWith 1
  anNxp1Null := 0
  anNxp2Null := 0
  anNxp3Null := 0
  linkCheckUsecs := 0
  block0 := { regs := (), writes := [] }
  block1 := { regs := (), writes := [] }

/-- Negotiation is started, training is started, and the third tick
finds a lane trained and another one failed: both verdicts are noted. -/
theorem both_verdicts :
    ¬ ∀ ticks, Run.Each (Watched.tick oneLaneOfTwo)
        (Verdict oneLaneOfTwo) (Watched.init twoLanes) ticks := by
  intro h
  have hticks := h (List.replicate 3 { macReg := fun _ => 0, random := 0 })
  exact hticks.2.2.1.single ⟨by decide +kernel, by decide +kernel⟩

end BxRnic.Pcs
