/-
When the start of the Ethernet device can be relied on.

# The flush

The poll of a queue's flush bit looks at its register once, before the
loop that waits for it, and again at nothing. So the flush succeeds iff
every queue reads clear at the first poll (`flush_eq_zero_iff`), however
soon after a bit clears.

# Its result

`mac_start` drops the result of `mac_hw_init`. It succeeds iff the
interrupts are had, and starts the queues on rings that nobody has
initialised if the flush has failed.
-/
import BxRnic.Mac.StartUp

namespace BxRnic.Mac.StartEnv

variable {env : StartEnv}

-- ================================================================= flush

/-- A queue's flush bit, as it would read after `k` sleeps. -/
def Clear (env : StartEnv) (i k : Nat) : Prop :=
  Field.get (env.polled i k) 0 1 = 0

instance (i k : Nat) : Decidable (env.Clear i k) :=
  inferInstanceAs (Decidable (_ = _))

/-- The polls of a window: how often the loop comes to its condition
with `count` not yet 0. -/
def window : Nat := flushCount - 1

/-- Every queue's bit is clear at the first poll. -/
def ClearAtOnce (env : StartEnv) : Prop :=
  ∀ i < env.txQCount, env.Clear i 0

/-- Every queue's bit is clear at some poll of its window. -/
def ClearInWindow (env : StartEnv) : Prop :=
  ∀ i < env.txQCount, ∃ k < window, env.Clear i k

theorem ClearAtOnce.inWindow (h : env.ClearAtOnce) : env.ClearInWindow :=
  fun i hi => ⟨0, by decide, h i hi⟩

/-- The loop runs its count down unless the bit was clear before it. -/
theorem spin_succ (regval : U32) (count : Nat) :
    spin regval (count + 1) = if regval = 0 then count else 0 := by
  induction count with
  | zero => simp [spin]
  | succ count ih =>
      rw [spin]
      by_cases h : regval = 0
      · simp [h]
      · rw [if_pos ⟨Nat.succ_ne_zero count, h⟩, ih, if_neg h, if_neg h]

/-- The wait is for nothing. -/
theorem spin_flushCount (regval : U32) :
    spin regval flushCount = 0 ↔ regval ≠ 0 := by
  rw [show flushCount = 1999 + 1 from rfl, spin_succ]
  simp

theorem pollQueues_eq_zero_iff {left i : Nat} :
    env.pollQueues left i = 0
      ↔ ∀ j, i ≤ j → j < i + left → env.Clear j 0 := by
  induction left generalizing i with
  | zero =>
      refine ⟨fun _ j hlo hhi => ?_, fun _ => rfl⟩
      omega
  | succ left ih =>
      simp only [pollQueues, spin_flushCount]
      by_cases h : Field.get (env.polled i 0) 0 1 = 0
      · rw [if_neg (not_not_intro h), ih]
        constructor
        · intro hrest j hlo hhi
          rcases Nat.eq_or_lt_of_le hlo with rfl | hlt
          · exact h
          · exact hrest j hlt (by omega)
        · exact fun hall j hlo hhi => hall j (by omega) (by omega)
      · rw [if_pos h]
        constructor
        · intro hbusy
          exact absurd hbusy (by decide)
        · intro hall
          exact absurd (hall i (Nat.le_refl i) (by omega)) h

/-- The flush succeeds iff no queue has to be waited for. -/
theorem flush_eq_zero_iff :
    env.macFlushTxQueues.1 = 0 ↔ env.ClearAtOnce := by
  rw [macFlushTxQueues, pollQueues_eq_zero_iff]
  constructor
  · exact fun hall i hi => hall i (Nat.zero_le i) (by omega)
  · exact fun hall i _ hi => hall i (by omega)

-- =============================================================== callers

/-- `mac_hw_init` has run to its end. -/
def Initialised (env : StartEnv) : Prop :=
  env.macHwInit.2 = hwInitSteps

theorem initialised_iff : env.Initialised ↔ env.ClearAtOnce := by
  rw [← flush_eq_zero_iff, Initialised, macHwInit]
  by_cases h : env.macFlushTxQueues.1 = 0
  · simp [h]
  · simp [h, hwInitSteps]

theorem macStart_eq_zero_iff :
    env.macStart.1 = 0 ↔ env.requestIrqs = 0 := by
  rw [macStart]
  by_cases h : env.requestIrqs = 0
  · simp [h]
  · simp [h]

/-- The queues are started iff the start succeeds. -/
theorem startAllQueues_mem_iff :
    .startAllQueues ∈ env.macStart.2 ↔ env.requestIrqs = 0 := by
  rw [macStart]
  by_cases h : env.requestIrqs = 0
  · simp [h]
  · simp [h]

/-- A start initialises the rings iff it gets through `mac_hw_init`. -/
theorem hwInit_mem_iff {step : HwInitStep} (hstep : step ∈ hwInitSteps) :
    .hwInit step ∈ env.macStart.2 ↔ env.ClearAtOnce := by
  have hmem : .hwInit step ∈ env.macStart.2
      ↔ step ∈ env.macHwInit.2 := by
    rw [macStart]
    by_cases h : env.requestIrqs = 0
    · simp [h]
    · simp [h]
  rw [hmem, ← flush_eq_zero_iff, macHwInit]
  by_cases h : env.macFlushTxQueues.1 = 0
  · simp [h, hstep]
  · simp [h]

/-- `mac_open` succeeds only where `mac_start` does. -/
theorem requestIrqs_of_macOpen {h h' : Heap} {pdata pdata' : Pdata}
    (hopen : macOpen env.toOpenEnv h pdata = some (0, h', pdata')) :
    env.requestIrqs = 0 := by
  unfold macOpen at hopen
  split at hopen
  · simp [EINVAL] at hopen
  · split at hopen
    · cases hopen
    · rename_i ret heap chans _
      by_cases hret : ret = 0
      · by_cases hirq : env.requestIrqs = 0
        · exact hirq
        · simp [hret, startChannels, toOpenEnv, hirq] at hopen
      · simp [hret] at hopen

/-- A start that can be relied on: the flush tells whether the queues
have been flushed in time, and a device that is started or open, or
whose queues run, has been initialised. -/
structure Sound (env : StartEnv) (h : Heap) (pdata : Pdata) : Prop where
  flush : env.macFlushTxQueues.1 = 0 ↔ env.ClearInWindow
  started : env.macStart.1 = 0 → env.Initialised
  opened : ∀ h' pdata',
    macOpen env.toOpenEnv h pdata = some (0, h', pdata') →
      env.Initialised
  queues : .startAllQueues ∈ env.macStart.2 →
    .hwInit .txDescInit ∈ env.macStart.2
      ∧ .hwInit .rxDescInit ∈ env.macStart.2

/-- A start can be relied on iff no queue has to be waited for, or some
queue is never flushed and the interrupts cannot be had either. -/
theorem start_up_sound_iff (env : StartEnv) (h : Heap) (pdata : Pdata) :
    env.Sound h pdata
      ↔ env.ClearAtOnce
        ∨ (¬ env.ClearInWindow ∧ env.requestIrqs ≠ 0) := by
  constructor
  · intro hsound
    have hflush := flush_eq_zero_iff.symm.trans hsound.flush
    by_cases hclear : env.ClearAtOnce
    · exact Or.inl hclear
    · refine Or.inr ⟨fun hwin => hclear (hflush.2 hwin), fun hirq => ?_⟩
      have hdone := hsound.started (macStart_eq_zero_iff.2 hirq)
      exact hclear (initialised_iff.1 hdone)
  · rintro (hclear | ⟨hwin, hirq⟩)
    · have hdone : env.Initialised := initialised_iff.2 hclear
      exact
        { flush := ⟨fun _ => hclear.inWindow,
            fun _ => flush_eq_zero_iff.2 hclear⟩
          started := fun _ => hdone
          opened := fun _ _ _ => hdone
          queues := fun _ =>
            ⟨(hwInit_mem_iff (by decide)).2 hclear,
              (hwInit_mem_iff (by decide)).2 hclear⟩ }
    · exact
        { flush := ⟨fun hzero => (flush_eq_zero_iff.1 hzero).inWindow,
            fun hin => absurd hin hwin⟩
          started := fun hzero =>
            absurd (macStart_eq_zero_iff.1 hzero) hirq
          opened := fun _ _ hopen =>
            absurd (requestIrqs_of_macOpen hopen) hirq
          queues := fun hmem =>
            absurd (startAllQueues_mem_iff.1 hmem) hirq }

/-- One queue, flushed while the driver sleeps for the first time. -/
def flushedLater : StartEnv where
  txQCount := 1
  tqomr := fun _ => 0
  polled := fun _ k => if k = 0 then 1 else 0
  mtu := 1500
  ok := fun _ => true
  requestIrqs := 0

/-- A device with one ring each way. -/
def oneRing : ChannelConfig where
  txRingCount := 1
  rxRingCount := 1
  txDescCount := 256
  rxDescCount := 256
  perChannelIrq := false
  channelIrq := fun _ => 0

/-- The queue is flushed within its window, and the flush fails all the
same; the device starts and its queues run on rings that nobody has
initialised. -/
theorem flushed_later_starts_bare :
    flushedLater.ClearInWindow ∧ flushedLater.macFlushTxQueues.1 ≠ 0
      ∧ flushedLater.macStart.1 = 0 ∧ ¬ flushedLater.Initialised
      ∧ .hwInit .rxDescInit ∉ flushedLater.macStart.2
      ∧ ¬ flushedLater.Sound ⟨0, .empty⟩ (EthDev.probed oneRing).pdata := by
  have hset : ¬ flushedLater.ClearAtOnce := fun hclear =>
    absurd (hclear 0 (by decide)) (by decide)
  have hwin : flushedLater.ClearInWindow := fun i _ =>
    ⟨1, by decide, by simp [Clear, flushedLater, Field.get]⟩
  have hstart : flushedLater.macStart.1 = 0 :=
    macStart_eq_zero_iff.2 rfl
  refine ⟨hwin, mt flush_eq_zero_iff.1 hset, hstart,
    mt initialised_iff.1 hset, mt (hwInit_mem_iff (by decide)).1 hset,
    fun hsound => ?_⟩
  exact hset (initialised_iff.1 (hsound.started hstart))

end BxRnic.Mac.StartEnv
