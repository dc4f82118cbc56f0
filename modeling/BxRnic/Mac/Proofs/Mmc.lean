/-
The statistics conserve the events of the counters, with one exception.

# The exception

The lists name the same counter three times in every line but one: the
counter of all broadcast frames sent is added to the statistic of the
good ones (`line_cases`). A run in which that counter is empty whenever
it is read keeps every statistic at what its own counter has counted up
to its last read (`statistics_conserve`).

# What is counted

`Tallied` says where a counter's events are: those it held when it was
last read have been seen, the others it still holds. A wide counter may
start over in between, for the statistics have as many bits; a narrow
one may not.
-/
import BxRnic.Mac.Mmc

namespace BxRnic.Mac

variable {hw : MmcHw} {st : MmcState} {c : Mmc}

-- ============================================================== counters

namespace Mmc

theorem decode_reg (c : Mmc) : decode c.reg = some (c, .lo) := by
  cases c <;> rfl

theorem decode_hi (h : c.width = 64) :
    decode (c.reg + 4) = some (c, .hi) := by
  revert h
  cases c <;> decide

theorem width_cases (c : Mmc) :
    (readHi c.reg = true ∧ c.width = 64)
      ∨ (readHi c.reg = false ∧ c.width = 32) := by
  cases c <;> decide

end Mmc

/-- A counter holds what its registers can. -/
def MmcHw.Fits (hw : MmcHw) : Prop := ∀ c, hw.held c < 2 ^ c.width

@[simp] theorem MmcHw.held_take {left : Nat} :
    (hw.take c left).held c = left := by
  simp [take]

/-- The second half is read after the first one. -/
theorem MmcHw.take_take {a b : Nat} :
    (hw.take c a).take c b = hw.take c b := by
  simp [take]

/-- The two halves of a wide counter, put together. -/
theorem ofNat_halves {n : Nat} (h : n < 2 ^ 64) :
    (BitVec.ofNat 32 n).setWidth 64
        ||| ((BitVec.ofNat 32 (n / 2 ^ 32)).setWidth 64 <<< 32)
      = BitVec.ofNat 64 n := by
  have hdiv : n / 2 ^ 32 < 2 ^ 32 := by omega
  have hmod : n % 2 ^ 32 < 2 ^ 32 := Nat.mod_lt _ (by decide)
  apply BitVec.eq_of_toNat_eq
  rw [BitVec.toNat_or, BitVec.toNat_shiftLeft, BitVec.toNat_setWidth,
    BitVec.toNat_setWidth, BitVec.toNat_ofNat, BitVec.toNat_ofNat,
    BitVec.toNat_ofNat, Nat.mod_eq_of_lt hdiv,
    Nat.mod_eq_of_lt (Nat.lt_trans hdiv (by decide)),
    Nat.mod_eq_of_lt (Nat.lt_trans hmod (by decide)),
    Nat.mod_eq_of_lt h, Nat.or_comm,
    Nat.mod_eq_of_lt (by rw [Nat.shiftLeft_eq]; omega),
    ← Nat.shiftLeft_add_eq_or_of_lt hmod, Nat.shiftLeft_eq]
  omega

/-- A read gives all a counter holds, and leaves nothing in it. -/
theorem MmcHw.mmcRead_reg (h : hw.Fits) :
    hw.mmcRead c.reg = (BitVec.ofNat 64 (hw.held c), hw.take c 0) := by
  have hfits := h c
  obtain ⟨hhi, hw64⟩ | ⟨hlo, hw32⟩ := c.width_cases
  · rw [hw64] at hfits
    have hleft : hw.held c / 2 ^ 32 * 2 ^ 32 / 2 ^ 32
        = hw.held c / 2 ^ 32 := Nat.mul_div_cancel _ (by decide)
    simp only [mmcRead, readl, c.decode_reg, hhi, if_true,
      Mmc.decode_hi hw64, held_take, take_take, hleft]
    rw [ofNat_halves hfits, Nat.mul_mod_left]
  · rw [hw32] at hfits
    have hleft : hw.held c / 2 ^ 32 * 2 ^ 32 = 0 := by omega
    simp only [mmcRead, readl, c.decode_reg, hlo, Bool.false_eq_true,
      if_false, hleft]
    congr 1
    apply BitVec.eq_of_toNat_eq
    rw [BitVec.toNat_setWidth, BitVec.toNat_ofNat, BitVec.toNat_ofNat,
      Nat.mod_eq_of_lt hfits,
      Nat.mod_eq_of_lt (Nat.lt_trans hfits (by decide))]

-- ================================================================= lists

/-- What an act of a call collects goes where it belongs, or is the one
exception. -/
def MmcAct.Listed : MmcAct → Prop
  | .collect stat reg => stat = reg ∨ reg = .txbroadcastframesGb
  | _ => True

/-- Every line names one counter, but for one. -/
theorem line_cases : ∀ line ∈ txMmcLines ++ rxMmcLines ++ readMmcLines,
    line.stat = line.reg ∨ line.reg = .txbroadcastframesGb := by
  decide

theorem mmcActs_listed {events : Nat → List Mmc} {cond : MmcLine → Bool}
    {lines : List MmcLine} {k : Nat}
    (h : ∀ line ∈ lines,
      line.stat = line.reg ∨ line.reg = .txbroadcastframesGb) :
    ∀ a ∈ mmcActs events cond k lines, a.Listed := by
  induction lines generalizing k with
  | nil => simp [mmcActs]
  | cons line rest ih =>
      intro a ha
      rw [mmcActs, List.mem_append, List.mem_append] at ha
      rcases ha with (hev | hline) | hrest
      · obtain ⟨c, -, rfl⟩ := List.mem_map.1 hev
        trivial
      · split at hline
        · rw [List.mem_singleton.1 hline]
          exact h line List.mem_cons_self
        · cases hline
      · exact ih (fun l hl => h l (List.mem_cons_of_mem _ hl)) a hrest

/-- Nothing else is collected in a step. -/
theorem MmcStep.acts_listed (s : MmcStep) : ∀ a ∈ s.acts, a.Listed := by
  have hlines := line_cases
  cases s with
  | event c =>
      intro a ha
      rw [List.mem_singleton.1 ha]
      trivial
  | txMmcInt mmcIsr events =>
      exact mmcActs_listed fun l hl => hlines l (by simp [hl])
  | rxMmcInt mmcIsr events =>
      exact mmcActs_listed fun l hl => hlines l (by simp [hl])
  | readMmcStats events =>
      intro a ha
      rw [acts, List.cons_append, List.mem_cons, List.mem_append] at ha
      rcases ha with rfl | hread | hoff
      · trivial
      · exact mmcActs_listed (fun l hl => hlines l (by simp [hl])) a hread
      · rw [List.mem_singleton.1 hoff]
        trivial

-- ============================================================= invariant

/-- Every statistic is what its counter had counted when it was last
read. -/
def MmcState.Faithful (st : MmcState) : Prop :=
  ∀ c, st.stats c = BitVec.ofNat 64 (st.hw.seen c)

/-- A counter's events have been seen or are still in it. -/
structure MmcState.Tallied (st : MmcState) : Prop where
  fits : st.hw.Fits
  sum : ∀ c, BitVec.ofNat 64 (st.hw.held c)
    + BitVec.ofNat 64 (st.hw.seen c) = BitVec.ofNat 64 (st.hw.counted c)
  faithful : st.Faithful

/-- A narrow counter has room for the event, and the counter of all
broadcast frames is empty when it is read. -/
def MmcState.ActOk (st : MmcState) : MmcAct → Prop
  | .count c =>
      st.hw.Frozen ∨ c.width = 64 ∨ st.hw.held c + 1 < 2 ^ c.width
  | .collect _ reg =>
      reg = .txbroadcastframesGb → st.hw.held reg = 0
  | .setMcf _ => True

instance (st : MmcState) : (a : MmcAct) → Decidable (st.ActOk a)
  | .count _ => inferInstanceAs (Decidable (_ ∨ _ ∨ _))
  | .collect _ _ => inferInstanceAs (Decidable (_ → _))
  | .setMcf _ => inferInstanceAs (Decidable True)

/-- So it is throughout a step. -/
def MmcState.StepOk (st : MmcState) (s : MmcStep) : Prop :=
  Run.Each MmcState.act MmcState.ActOk st s.acts

instance (st : MmcState) (s : MmcStep) : Decidable (st.StepOk s) :=
  inferInstanceAs (Decidable (Run.Each _ _ _ _))

theorem MmcState.Tallied.count (h : st.Tallied) (hok : st.ActOk (.count c)) :
    (st.act (.count c)).Tallied := by
  by_cases hfz : st.hw.Frozen
  · simpa [act, MmcHw.count, hfz] using h
  have hlt : (st.hw.held c + 1) % 2 ^ c.width < 2 ^ c.width :=
    Nat.mod_lt _ (Nat.two_pow_pos _)
  have hword : BitVec.ofNat 64 ((st.hw.held c + 1) % 2 ^ c.width)
      = BitVec.ofNat 64 (st.hw.held c + 1) := by
    rcases hok with hf | hwide | hroom
    · exact absurd hf hfz
    · rw [hwide]
      apply BitVec.eq_of_toNat_eq
      rw [BitVec.toNat_ofNat, BitVec.toNat_ofNat, Nat.mod_mod]
    · rw [Nat.mod_eq_of_lt hroom]
  refine ⟨fun d => ?_, fun d => ?_, fun d => ?_⟩
  · by_cases hd : d = c
    · subst hd
      simpa [act, MmcHw.count, hfz] using hlt
    · simpa [act, MmcHw.count, hfz, hd] using h.fits d
  · by_cases hd : d = c
    · subst hd
      have hsum := h.sum d
      simp only [act, MmcHw.count, hfz, if_false, Function.update_self]
      rw [hword, BitVec.ofNat_add, BitVec.ofNat_add, ← hsum]
      ac_rfl
    · simpa [act, MmcHw.count, hfz, hd] using h.sum d
  · simpa [act, MmcHw.count, hfz] using h.faithful d

theorem MmcState.Tallied.collect {stat reg : Mmc} (h : st.Tallied)
    (hlisted : (MmcAct.collect stat reg).Listed)
    (hok : st.ActOk (.collect stat reg)) :
    (st.act (.collect stat reg)).Tallied := by
  have hact : st.act (.collect stat reg)
      = ⟨st.hw.take reg 0, Function.update st.stats stat
          (st.stats stat + BitVec.ofNat 64 (st.hw.held reg))⟩ := by
    simp only [act, MmcHw.mmcRead_reg h.fits]
  have hcounted : BitVec.ofNat 64 (st.hw.counted reg)
      = st.stats reg + BitVec.ofNat 64 (st.hw.held reg) := by
    rw [h.faithful reg, ← h.sum reg, BitVec.add_comm]
  rw [hact]
  refine ⟨fun d => ?_, fun d => ?_, fun d => ?_⟩
  · by_cases hd : d = reg
    · subst hd
      show (st.hw.take d 0).held d < 2 ^ d.width
      rw [MmcHw.held_take]
      exact Nat.two_pow_pos _
    · simpa [MmcHw.take, hd] using h.fits d
  · by_cases hd : d = reg
    · subst hd
      simp [MmcHw.take]
    · simpa [MmcHw.take, hd] using h.sum d
  · -- either the statistic is the counter's own, or nothing is added
    have hstats : Function.update st.stats stat
        (st.stats stat + BitVec.ofNat 64 (st.hw.held reg)) d
          = if d = reg then BitVec.ofNat 64 (st.hw.counted reg)
            else st.stats d := by
      rcases hlisted with rfl | hexc
      · by_cases hd : d = stat
        · subst hd
          simp [hcounted]
        · simp [hd]
      · rw [hcounted, hok hexc, BitVec.add_zero, BitVec.add_zero,
          Function.update_eq_self]
        by_cases hd : d = reg
        · simp [hd]
        · simp [hd]
    refine hstats.trans ?_
    by_cases hd : d = reg
    · subst hd
      simp [MmcHw.take]
    · simpa [MmcHw.take, hd] using h.faithful d

/-- An act of a call keeps the tally. -/
theorem MmcState.Tallied.act {a : MmcAct} (h : st.Tallied)
    (hlisted : a.Listed) (hok : st.ActOk a) : (st.act a).Tallied := by
  cases a with
  | count c => exact h.count hok
  | collect stat reg => exact h.collect hlisted hok
  | setMcf on => exact ⟨h.fits, h.sum, h.faithful⟩

/-- A step keeps the tally. -/
theorem MmcState.Tallied.step {s : MmcStep} (h : st.Tallied)
    (hok : st.StepOk s) : (st.step s).Tallied := by
  have hboth : Run.Each MmcState.act
      (fun st a => a.Listed ∧ st.ActOk a) st s.acts :=
    (Run.each_of_forall_mem s.acts_listed st).and hok
  exact (hboth.always (fun _ _ ht ha => ht.act ha.1 ha.2) h).last

theorem MmcState.tallied_fresh (cr : U32) : (fresh cr).Tallied :=
  ⟨fun c => Nat.two_pow_pos c.width, fun _ => rfl, fun _ => rfl⟩

/-- In a run whose narrow counters never start over and whose counter of
all broadcast frames is empty whenever it is read, every statistic is
what its own counter had counted when it was last read. -/
theorem statistics_conserve (cr : U32) (steps : List MmcStep)
    (hok : Run.Each MmcState.step MmcState.StepOk (.fresh cr) steps) :
    Run.Always MmcState.step MmcState.Faithful (.fresh cr) steps := by
  have htallied : Run.Always MmcState.step MmcState.Tallied (.fresh cr)
      steps := hok.always (fun _ _ ht hs => ht.step hs) (MmcState.tallied_fresh cr)
  exact htallied.mono fun _ ht => ht.faithful

/-- A broadcast frame is received, and the interrupt reads its three
counters while the next one comes. -/
theorem statistics_conserve_one :
    Run.Always MmcState.step MmcState.Faithful (.fresh 4)
      [.event .rxframecountGb, .event .rxoctetcountGb,
        .event .rxbroadcastframesG,
        .rxMmcInt 0xb fun i => if i = 1 then [.rxframecountGb] else []] :=
  statistics_conserve 4 _ (by decide)

/-- A broadcast frame is sent, and the statistics are read. -/
def oneBroadcast : List MmcStep :=
  [.event .txbroadcastframesGb, .readMmcStats (fun _ => [])]

/-- The frame is in the statistic of the good broadcast frames, of which
none was counted, and not in its own. -/
theorem broadcast_miscounted :
    (Run.exec MmcState.step (.fresh 4) oneBroadcast).stats
        .txbroadcastframesG = 1
      ∧ (Run.exec MmcState.step (.fresh 4) oneBroadcast).stats
        .txbroadcastframesGb = 0
      ∧ ¬ Run.Always MmcState.step MmcState.Faithful (.fresh 4)
        oneBroadcast := by
  have hown : (Run.exec MmcState.step (.fresh 4) oneBroadcast).stats
      .txbroadcastframesGb = 0 := by decide +kernel
  refine ⟨by decide +kernel, hown, fun h => ?_⟩
  have hlast := h.last .txbroadcastframesGb
  rw [hown] at hlast
  exact absurd hlast (by decide +kernel)

end BxRnic.Mac
