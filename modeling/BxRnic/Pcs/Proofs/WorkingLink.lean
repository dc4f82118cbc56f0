/-
A link that is up and negotiated, in the ticks that find it up.

The link check is satisfied only when training has succeeded as well:
such a link it leaves alone for as long as it is seen up. A link that
negotiated after a failed or a missing training is started over at the
next tick, whether it is up or not.
-/
import BxRnic.Pcs.Proofs.Verdict

namespace BxRnic.Pcs

variable {H : Type} {hw : PcsHw H} {st : LinkState H} {tick : Tick}

/-- The tick wrote no register and touched no field of port 0. -/
structure LeftAlone (hw : PcsHw H) (st : LinkState H) (tick : Tick) :
    Prop where
  writes : ∀ p, ((st.tick hw tick).nic.block p).writes
    = (st.nic.block p).writes
  fields : (st.tick hw tick).nic.pcs0 = st.nic.pcs0

-- ================================================================ ticks

/-- Seeing the link up is only read off registers. -/
theorem noted_of_seesUp (hup : st.seesUp hw tick = true) :
    OnlyRead st.nic (st.noted hw tick).nic := by
  have hlook : OnlyRead st.nic (st.looked hw tick).nic :=
    linkSeen_onlyRead tick 5 st.nic
  have hnote : OnlyRead (st.looked hw tick).nic
      (st.noted hw tick).nic := by
    unfold LinkState.noted LinkState.note
    rw [if_pos hup]
    refine ⟨fun p => ?_, fun p => ?_⟩
    · rw [fields_linkCheck]
    · rw [block_linkCheck]
  exact hlook.trans _ _ _ hnote

/-- A negotiated and trained link is left alone. -/
theorem leftAlone_of_trained (hup : st.seesUp hw tick = true)
    (han : st.nic.pcs0.anSuccess ≠ 0)
    (hkrt : st.nic.pcs0.krtSuccess ≠ 0) : LeftAlone hw st tick := by
  have hread := noted_of_seesUp hup
  have hf : (st.noted hw tick).nic.pcs0 = st.nic.pcs0 :=
    hread.fields .zero
  have htick : (st.tick hw tick).nic = (st.noted hw tick).nic := by
    show (negotiate hw (st.noted hw tick).linkUpOnly tick.random
      (st.noted hw tick).nic).2 = _
    rw [negotiate_left]
    · rw [hf]
      exact han
    · rw [hf]
      exact hkrt
  constructor
  · intro p
    rw [htick]
    exact hread.writes p
  · rw [htick]
    exact hf

/-- A negotiated link without a successful training is started over. -/
theorem restarted_of_untrained (hinv : st.nic.talk.Inv)
    (hup : st.seesUp hw tick = true) (hen : st.nic.pcs0.anEn ≠ 0)
    (han : st.nic.pcs0.anSuccess ≠ 0)
    (hkrt : st.nic.pcs0.krtSuccess = 0) : ¬ LeftAlone hw st tick := by
  have hread := noted_of_seesUp hup
  have hf : (st.noted hw tick).nic.pcs0 = st.nic.pcs0 :=
    hread.fields .zero
  have hen' : (st.noted hw tick).nic.pcs0.anEn ≠ 0 := by
    rw [hf]
    exact hen
  have htick : (st.tick hw tick).nic
      = (pcsAnStart hw .zero (st.noted hw tick).nic).2 := by
    show (negotiate hw (st.noted hw tick).linkUpOnly tick.random
      (st.noted hw tick).nic).2 = _
    rw [negotiate_restart _ _ hen']
    · rw [hf]
      exact hkrt
    · rw [hf]
      exact hinv.idle han
    · rw [hf]
      exact hinv.krtStart han
  intro hleft
  have hsame := congrArg List.length (hleft.writes .zero)
  have hlong : Longer .zero 2 (st.noted hw tick).nic
      (pcsAnStart hw .zero (st.noted hw tick).nic).2 :=
    pcsAnStart_longer hen'
  unfold Longer at hlong
  rw [htick, hlong, hread.writes .zero] at hsame
  omega

/-- What a tick that sees a negotiated link up does about it. -/
theorem leftAlone_iff (hinv : st.nic.talk.Inv)
    (hup : st.seesUp hw tick = true) (hen : st.nic.pcs0.anEn ≠ 0)
    (han : st.nic.pcs0.anSuccess ≠ 0) :
    LeftAlone hw st tick ↔ st.nic.pcs0.krtSuccess ≠ 0 := by
  refine ⟨fun h hkrt => ?_, leftAlone_of_trained hup han⟩
  exact restarted_of_untrained hinv hup hen han hkrt h

-- ================================================================ runs

theorem Talk.Hears.anEn {v w : Talk} (h : Hears v w) :
    w.anEn = v.anEn := by
  cases h with
  | idle => rfl
  | negotiated => rfl
  | started => rfl
  | refused => rfl

theorem Turned.anEn {linkUpOnly : U32} {s t : Nic H}
    (h : Turned hw linkUpOnly s t) : t.talk.anEn = s.talk.anEn := by
  cases h with
  | left hv h => rw [h]
  | restarted hen hidle hrun h => rw [h]
  | checked hen hv hrun h =>
    rw [h]
    rfl
  | heard hrun h =>
    have hrest : ∀ v, Relation.ReflTransGen Talk.Hears s.talk v →
        v.anEn = s.talk.anEn := by
      intro v hv
      induction hv with
      | refl => rfl
      | tail _ hstep ih => exact hstep.anEn.trans ih
    exact hrest _ h
  | forced hup hrun h => rw [h]

theorem tick_anEn (hw : PcsHw H) (st : LinkState H) (tick : Tick) :
    (st.tick hw tick).nic.talk.anEn = st.nic.talk.anEn := by
  rw [(tick_turned hw st tick).anEn]
  rcases noted_talk hw st tick with h | h
  · rw [h]
  · rw [h]

/-- What holds of every state of a port that negotiates. -/
structure LinkState.Inv (st : LinkState H) : Prop where
  flags : st.nic.talk.Inv
  enabled : st.nic.pcs0.anEn ≠ 0

theorem LinkState.Inv.next (h : st.Inv) (hw : PcsHw H) (tick : Tick) :
    (st.tick hw tick).Inv := by
  refine ⟨tick_inv hw tick h.flags, ?_⟩
  have hen := tick_anEn hw st tick
  intro h0
  exact h.enabled (hen.symm.trans h0)

/-- The link check after the given ticks. -/
def linkAfter (hw : PcsHw H) (nic : Nic H) (linkUpOnly : U32)
    (past : List Tick) : LinkState H :=
  Run.exec (LinkState.tick hw) (LinkState.init nic linkUpOnly) past

theorem linkAfter_inv (hw : PcsHw H) {nic : Nic H}
    (hen : nic.pcs0.anEn ≠ 0) (linkUpOnly : U32) (past : List Tick) :
    (linkAfter hw nic linkUpOnly past).Inv :=
  Run.exec_inv (I := LinkState.Inv) (fun _ tick h => h.next hw tick)
    ⟨init_inv nic linkUpOnly, hen⟩ past

/-- A trained link is left alone for as long as it is seen up. -/
theorem leftAlone_while_up {more : List Tick}
    (han : st.nic.pcs0.anSuccess ≠ 0) (hkrt : st.nic.pcs0.krtSuccess ≠ 0)
    (hup : Run.Each (LinkState.tick hw)
      (fun t tick => t.seesUp hw tick = true) st more) :
    Run.Each (LinkState.tick hw) (LeftAlone hw) st more := by
  refine hup.each_of_inv (I := fun t => t.nic.pcs0.anSuccess ≠ 0
    ∧ t.nic.pcs0.krtSuccess ≠ 0) ?_ ⟨han, hkrt⟩ ?_
  · rintro t tick ⟨hta, htk⟩ hseen
    have hleft := (leftAlone_of_trained hseen hta htk).fields
    show (t.tick hw tick).nic.pcs0.anSuccess ≠ 0
      ∧ (t.tick hw tick).nic.pcs0.krtSuccess ≠ 0
    rw [hleft]
    exact ⟨hta, htk⟩
  · rintro t tick ⟨hta, htk⟩ hseen
    exact leftAlone_of_trained hseen hta htk

/-- A link that has negotiated is left alone by the ticks that see it up
exactly if its training has succeeded: so in ticks that all see it up,
and so at every such tick of any run, for as long as negotiation counts
as done. -/
theorem working_link_left_alone_iff (hw : PcsHw H) (nic : Nic H)
    (linkUpOnly : U32) (past : List Tick) (hen : nic.pcs0.anEn ≠ 0)
    (hdone : (linkAfter hw nic linkUpOnly past).nic.pcs0.anSuccess ≠ 0)
    (more : List Tick) :
    (Run.Each (LinkState.tick hw) (fun t tick => t.seesUp hw tick = true)
        (linkAfter hw nic linkUpOnly past) more →
      (Run.Each (LinkState.tick hw) (LeftAlone hw)
          (linkAfter hw nic linkUpOnly past) more
        ↔ more = []
          ∨ (linkAfter hw nic linkUpOnly past).nic.pcs0.krtSuccess ≠ 0))
    ∧ (Run.Each (LinkState.tick hw)
          (fun t tick => t.seesUp hw tick = true →
            t.nic.pcs0.anSuccess ≠ 0 → LeftAlone hw t tick)
          (linkAfter hw nic linkUpOnly past) more
      ↔ Run.Each (LinkState.tick hw)
          (fun t tick => t.seesUp hw tick = true →
            t.nic.pcs0.anSuccess ≠ 0 → t.nic.pcs0.krtSuccess ≠ 0)
          (linkAfter hw nic linkUpOnly past) more) := by
  have hinv := linkAfter_inv hw hen linkUpOnly past
  generalize linkAfter hw nic linkUpOnly past = st at hdone hinv ⊢
  constructor
  · intro hup
    constructor
    · intro hleft
      cases more with
      | nil => exact Or.inl rfl
      | cons tick more =>
        exact Or.inr ((leftAlone_iff hinv.flags hup.1 hinv.enabled
          hdone).1 hleft.1)
    · rintro (rfl | hkrt)
      · trivial
      · exact leftAlone_while_up hdone hkrt hup
  · refine Run.each_iff_each_of_inv (I := LinkState.Inv) ?_
      (fun _ tick h _ => h.next hw tick) hinv
    intro t tick ht
    exact forall_congr' fun hup => forall_congr' fun han =>
      leftAlone_iff ht.flags hup ht.enabled han

/-- Registers of a link that is up, with a completed negotiation
pending. -/
def alwaysUp : PcsHw Unit where
  read _ offset :=
    if offset = VR_AN_INTR then (0x1, ())
    else if offset = SR_PCS_STS1 then (0x4, ())
    else (0x0, ())
  write _ _ _ := ()

/-- A port that negotiates and does not train. -/
def untrained : Nic Unit :=
  { twoLanes with pcs0.krtEn := 0 }

/-- A tick that finds the MAC's link up. -/
def upTick : Tick where
  macReg _ := 0
  random := 0

theorem working_link_left_alone_iff_untrained :
    (linkAfter alwaysUp untrained 0
      [upTick, upTick, upTick]).nic.pcs0.anSuccess ≠ 0
    ∧ (Run.Each (LinkState.tick alwaysUp) (LeftAlone alwaysUp)
        (linkAfter alwaysUp untrained 0 [upTick, upTick, upTick])
        [upTick]
      ↔ [upTick] = [] ∨ (linkAfter alwaysUp untrained 0
          [upTick, upTick, upTick]).nic.pcs0.krtSuccess ≠ 0) := by
  have hdone : (linkAfter alwaysUp untrained 0
      [upTick, upTick, upTick]).nic.pcs0.anSuccess ≠ 0 := by
    decide +kernel
  exact ⟨hdone, (working_link_left_alone_iff alwaysUp untrained 0
    [upTick, upTick, upTick] (by decide) hdone [upTick]).1
      ⟨by decide +kernel, trivial⟩⟩

/-- Negotiation is started, training is refused, negotiation is done,
and the fourth tick, which sees the link up as all did, starts it
again. -/
theorem untrained_link_restarted :
    ¬ ∀ past more,
      (linkAfter alwaysUp untrained 0 past).nic.pcs0.anSuccess ≠ 0 →
      Run.Each (LinkState.tick alwaysUp)
        (fun t tick => t.seesUp alwaysUp tick = true)
        (linkAfter alwaysUp untrained 0 past) more →
      Run.Each (LinkState.tick alwaysUp) (LeftAlone alwaysUp)
        (linkAfter alwaysUp untrained 0 past) more := by
  intro h
  have hleft := h [upTick, upTick, upTick] [upTick] (by decide +kernel)
    ⟨by decide +kernel, trivial⟩
  have hstart := congrArg PcsFields.anStart hleft.1.fields
  exact absurd hstart (by decide +kernel)

end BxRnic.Pcs
