/-
What the operations leave behind, as far as the two sides of a branch
must be told apart: how many register writes a port's block has
received, and which fields are as they were.
-/
import BxRnic.Pcs.Proofs.Operations

namespace BxRnic.Pcs

variable {H : Type} {hw : PcsHw H} {p : Port}

-- ============================================================== writes

/-- The block of port `p` received `n` more writes. -/
def Longer (p : Port) (n : Nat) (s t : Nic H) : Prop :=
  (t.block p).writes.length = (s.block p).writes.length + n

/-- No field was touched, and port `p`'s block received `n` writes. -/
structure Wrote (p : Port) (n : Nat) (s t : Nic H) : Prop where
  fields : ∀ r, t.fields r = s.fields r
  longer : Longer p n s t

theorem longer_bind {α β : Type} (m n : Nat) {f : Driver H α}
    {F : α → Driver H β} (hf : Moves (Longer p m) f)
    (hF : ∀ a, Moves (Longer p n) (F a)) :
    Moves (Longer p (m + n)) (f >>= F) := by
  refine hf.bind (fun r s t h h' => ?_) hF
  unfold Longer at *
  omega

theorem wrote_bind {α β : Type} (m n : Nat) {f : Driver H α}
    {F : α → Driver H β} (hf : Moves (Wrote p m) f)
    (hF : ∀ a, Moves (Wrote p n) (F a)) :
    Moves (Wrote p (m + n)) (f >>= F) := by
  refine hf.bind (fun r s t h h' => ⟨fun i => ?_, ?_⟩) hF
  · rw [h'.fields i, h.fields i]
  · have hrs := h.longer
    have hst := h'.longer
    unfold Longer at *
    omega

/-- A program that touches no field, for its writes alone. -/
theorem wrote_longer {α : Type} {n : Nat} {f : Driver H α}
    (hf : Moves (Wrote p n) f) : Moves (Longer p n) f :=
  hf.mono fun _ _ h => h.longer

theorem pcsRegRead_moves (offset : Nat) :
    Moves (Wrote p 0) (pcsRegRead hw p offset) := by
  intro s
  rw [pcsRegRead_run]
  refine ⟨fun r => ?_, ?_⟩
  · simp
  · simp [Longer]

theorem pcsRegWrite_moves (offset : Nat) (data : U32) :
    Moves (Wrote p 1) (pcsRegWrite hw p offset data) := by
  intro s
  rw [pcsRegWrite_run]
  refine ⟨fun r => ?_, ?_⟩
  · simp
  · simp [Longer]

/-- A register is read and written back. -/
theorem readWrite_moves (offset : Nat) (f : U32 → U32) :
    Moves (Wrote p 1) (pcsRegRead hw p offset >>= fun data =>
      pcsRegWrite hw p offset (f data)) :=
  wrote_bind 0 1 (pcsRegRead_moves offset) fun _ =>
    pcsRegWrite_moves offset _

theorem readPage_moves (reg3 reg2 reg1 : Nat) :
    Moves (Wrote p 0) (readPage hw p reg3 reg2 reg1) := by
  refine wrote_bind 0 0 (pcsRegRead_moves reg3) fun _ => ?_
  refine wrote_bind 0 0 (pcsRegRead_moves reg2) fun _ => ?_
  refine wrote_bind 0 0 (pcsRegRead_moves reg1) fun _ => ?_
  exact Moves.pure (fun s => ⟨fun _ => rfl, rfl⟩) _

theorem writePage_moves (reg3 reg2 reg1 : Nat)
    (page3 page2 page1 : U32) :
    Moves (Wrote p 3)
      (writePage hw p reg3 reg2 reg1 page3 page2 page1) := by
  refine wrote_bind 1 2 (pcsRegWrite_moves reg3 page3) fun _ => ?_
  refine wrote_bind 1 1 (pcsRegWrite_moves reg2 page2) fun _ => ?_
  exact pcsRegWrite_moves reg1 page1

theorem onPort_longer (f : PcsFields → PcsFields) :
    Moves (Longer p 0) (onPort p f : Driver H Unit) := by
  intro s
  show Longer p 0 s (s.updFields p f)
  simp [Longer]

theorem setLinkCheck_moves (u : U32) :
    Moves (Wrote p 0) (setLinkCheck u : Driver H Unit) := by
  intro s
  show Wrote p 0 s { s with linkCheckUsecs := u }
  refine ⟨fun r => ?_, ?_⟩
  · simp
  · simp [Longer]

theorem pcsAnDisable_longer (hw : PcsHw H) (p : Port) :
    Moves (Longer p 1) (pcsAnDisable hw p) := by
  rw [pcsAnDisable_eq]
  refine longer_bind 0 1 (wrote_longer (pcsRegRead_moves _))
    fun data => ?_
  refine longer_bind 1 0 (wrote_longer (pcsRegWrite_moves _ _))
    fun _ => ?_
  exact onPort_longer _

-- ========================================================== KR training

/-- Training is running or has no way to run: `pcs_krt_start` has
nothing left to do. -/
def PcsFields.KrtSettled (f : PcsFields) : Prop :=
  f.krtStart ≠ 0 ∨ (f.krtEn = 0 ∧ f.krtFailed = 1)

theorem viewPort_bind_run {α : Type} {s : Nic H}
    (k : PcsFields → Driver H α) :
    (viewPort p >>= k) s = k (s.fields p) s := rfl

theorem pcsKrtStart_running {s : Nic H}
    (h : (s.fields p).krtStart ≠ 0) : pcsKrtStart hw p s = ((), s) := by
  rw [pcsKrtStart_eq, viewPort_bind_run, if_neg h]
  rfl

theorem pcsKrtStart_refused {s : Nic H}
    (h : (s.fields p).krtStart = 0) (hen : (s.fields p).krtEn = 0) :
    pcsKrtStart hw p s
      = ((), s.updFields p fun f => { f with krtFailed := 1 }) := by
  rw [pcsKrtStart_eq, viewPort_bind_run, if_pos h,
    if_neg (not_not.2 hen)]
  rfl

theorem pcsKrtStart_started {s : Nic H}
    (h : (s.fields p).krtStart = 0) (hen : (s.fields p).krtEn ≠ 0) :
    pcsKrtStart hw p s
      = (pcsKrtEnable hw p >>= fun _ => pcsKrtRestart hw p)
          (s.updFields p fun f => { f with krtStart := 1 }) := by
  rw [pcsKrtStart_eq, viewPort_bind_run, if_pos h, if_pos hen]
  rfl

theorem updFields_self {s : Nic H} {f : PcsFields → PcsFields}
    (h : f (s.fields p) = s.fields p) : s.updFields p f = s := by
  cases p with
  | zero =>
    have h0 : f s.pcs0 = s.pcs0 := h
    show { s with pcs0 := f s.pcs0 } = s
    rw [h0]
  | one =>
    have h1 : f s.pcs1 = s.pcs1 := h
    show { s with pcs1 := f s.pcs1 } = s
    rw [h1]

theorem pcsKrtStart_settled {s : Nic H}
    (h : (s.fields p).KrtSettled) : pcsKrtStart hw p s = ((), s) := by
  by_cases hrun : (s.fields p).krtStart = 0
  · rcases h with hne | ⟨hen, hfail⟩
    · exact absurd hrun hne
    · rw [pcsKrtStart_refused hrun hen, updFields_self]
      rw [← hfail]
  · exact pcsKrtStart_running hrun

theorem krtEnableRestart_moves (hw : PcsHw H) (p : Port) :
    Moves (Wrote p 2)
      (pcsKrtEnable hw p >>= fun _ => pcsKrtRestart hw p) :=
  wrote_bind 1 1 (readWrite_moves _ _) fun _ => readWrite_moves _ _

theorem pcsKrtStart_unsettled {s : Nic H}
    (h : ¬ (s.fields p).KrtSettled) :
    (pcsKrtStart hw p s).2.fields p ≠ s.fields p := by
  have hrun : (s.fields p).krtStart = 0 := by
    by_contra hne
    exact h (Or.inl hne)
  intro heq
  by_cases hen : (s.fields p).krtEn = 0
  · rw [pcsKrtStart_refused hrun hen, fields_updFields] at heq
    have hfail : (1 : U32) = (s.fields p).krtFailed :=
      congrArg PcsFields.krtFailed heq
    exact h (Or.inr ⟨hen, hfail.symm⟩)
  · rw [pcsKrtStart_started hrun hen,
      (krtEnableRestart_moves hw p _).fields p, fields_updFields] at heq
    have hone : (1 : U32) = (s.fields p).krtStart :=
      congrArg PcsFields.krtStart heq
    rw [hrun] at hone
    exact absurd hone (by decide)

/-- Training is started with two writes or with none. -/
theorem pcsKrtStart_longer (hw : PcsHw H) (p : Port) (s : Nic H) :
    Longer p 0 s (pcsKrtStart hw p s).2
      ∨ Longer p 2 s (pcsKrtStart hw p s).2 := by
  by_cases hrun : (s.fields p).krtStart = 0
  · by_cases hen : (s.fields p).krtEn = 0
    · rw [pcsKrtStart_refused hrun hen]
      exact Or.inl (onPort_longer _ s)
    · rw [pcsKrtStart_started hrun hen]
      have hwr := (krtEnableRestart_moves hw p
        (s.updFields p fun f => { f with krtStart := 1 })).longer
      refine Or.inr ?_
      unfold Longer at *
      rw [hwr, block_updFields]
  · rw [pcsKrtStart_running hrun]
    exact Or.inl rfl

theorem pcsKrtStart_rcvCnt (s : Nic H) :
    ((pcsKrtStart hw p s).2.fields p).anRcvCnt
      = (s.fields p).anRcvCnt := by
  by_cases hrun : (s.fields p).krtStart = 0
  · by_cases hen : (s.fields p).krtEn = 0
    · rw [pcsKrtStart_refused hrun hen, fields_updFields]
    · rw [pcsKrtStart_started hrun hen,
        (krtEnableRestart_moves hw p _).fields p, fields_updFields]
  · rw [pcsKrtStart_running hrun]

-- ========================================================== next pages

/-- The fields that the state of training is read from. -/
def PcsFields.krt (f : PcsFields) : U32 × U32 × U32 × U32 :=
  (f.krtEn, f.krtStart, f.krtSuccess, f.krtFailed)

/-- Neither port's training nor the page counter of port `p` has
changed, and port `p`'s writes have only grown. -/
structure Calm (p : Port) (s t : Nic H) : Prop where
  krt : ∀ r, (t.fields r).krt = (s.fields r).krt
  rcvCnt : (t.fields p).anRcvCnt = (s.fields p).anRcvCnt
  grown : (s.block p).writes.length ≤ (t.block p).writes.length

theorem Calm.refl (s : Nic H) : Calm p s s :=
  ⟨fun _ => rfl, rfl, le_rfl⟩

theorem Calm.trans (r s t : Nic H) (h : Calm p r s) (h' : Calm p s t) :
    Calm p r t := by
  refine ⟨fun i => ?_, ?_, le_trans h.grown h'.grown⟩
  · rw [h'.krt i, h.krt i]
  · rw [h'.rcvCnt, h.rcvCnt]

theorem wrote_calm {α : Type} {n : Nat} {f : Driver H α}
    (hf : Moves (Wrote p n) f) : Moves (Calm p) f := by
  refine hf.mono fun s t h => ⟨fun r => ?_, ?_, ?_⟩
  · rw [h.fields r]
  · rw [h.fields p]
  · have hlen := h.longer
    unfold Longer at hlen
    omega

theorem exchangePage_calm {readAdv readLp : Port → Driver H U32}
    (hadv : Moves (Wrote p 0) (readAdv p))
    (hlp : Moves (Wrote p 0) (readLp p)) (page3 page2 page1 : U32) :
    Moves (Calm p)
      (exchangePage hw p readAdv readLp page3 page2 page1) := by
  refine (wrote_calm hadv).bind Calm.trans fun advXnp => ?_
  refine (wrote_calm hlp).bind Calm.trans fun lpXnp => ?_
  refine Moves.bind Calm.trans ?_ fun _ => Moves.pure Calm.refl _
  refine Moves.ite (fun _ => ?_) fun _ => Moves.pure Calm.refl _
  exact wrote_calm (writePage_moves _ _ _ _ _ _)

theorem stepIndex_calm :
    Moves (Calm p) (onPort p fun f =>
      { f with anNxpIndex := f.anNxpIndex + 1 } : Driver H Unit) := by
  intro s
  cases p with
  | zero =>
    refine ⟨fun r => ?_, rfl, le_rfl⟩
    cases r <;> rfl
  | one =>
    refine ⟨fun r => ?_, rfl, le_rfl⟩
    cases r <;> rfl

theorem nxpTurn_calm (hw : PcsHw H) (p : Port) :
    Moves (Calm p) (nxpTurn hw p) := by
  have hview : Moves (Calm p) (viewPort p : Driver H PcsFields) :=
    Calm.refl
  have hnull : Moves (Calm p) (viewNullPage : Driver H _) := Calm.refl
  refine hview.bind Calm.trans fun f => hnull.bind Calm.trans
    fun null => ?_
  refine Moves.bind Calm.trans ?_ fun xnp => Moves.bind Calm.trans ?_
    fun _ => Moves.pure Calm.refl _
  · refine Moves.ite (fun _ => ?_) fun _ => Moves.ite (fun _ => ?_)
      fun _ => ?_
    · exact exchangePage_calm (readPage_moves _ _ _)
        (readPage_moves _ _ _) _ _ _
    · exact exchangePage_calm (readPage_moves _ _ _)
        (readPage_moves _ _ _) _ _ _
    · exact exchangePage_calm (readPage_moves _ _ _)
        (readPage_moves _ _ _) _ _ _
  · exact Moves.ite (fun _ => stepIndex_calm) fun _ =>
      Moves.pure Calm.refl _

end BxRnic.Pcs
