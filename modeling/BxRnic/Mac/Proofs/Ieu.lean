/-
What masking does to a driver with legacy interrupts.

`mac_disable_rx_tx_ints` and `mac_enable_rx_tx_ints` are about different
registers. The one takes bits of `0x0c80` down; the other does not put
them back, and writes `0x0c84`, which the first never touched. So the
interrupt the handler is called for is enabled throughout, whatever is
scheduled, and what was once masked in `0x0c80` is masked for good.

The functions race with each other, so this is shown as what the
registers may hold, not as what the last call has written.
-/
import BxRnic.Bits
import BxRnic.Lib.Apart
import BxRnic.Mac.Ieu

namespace BxRnic.Mac

open Window Pcs

-- ============================================================ what is held

/-- What the registers may hold: `0x0c84` the one bit it is given, and
`0x0c80` no bit that is not in `mask`. -/
def ieuAllowed (mask reg value : U32) : Prop :=
  (reg = IEU_SBD_EN → value = 0x1)
    ∧ (reg = IEU_TX_RX_EN →
      ∀ i, value.getLsbD i = true → mask.getLsbD i = true)

/-- A field written with 0 has no bit that was not there. -/
theorem setBits_zero_sub {data : U32} {h l : Nat} (hh : h ≤ 31)
    (hl : l ≤ h) {i : Nat}
    (hi : (setBits data h l 0).getLsbD i = true) :
    data.getLsbD i = true := by
  have hlt : i < 32 := BitVec.lt_of_getLsbD hi
  rw [setBits_eq_field hh (Nat.le_trans hl hh),
    Field.getLsbD_set (by omega) hlt] at hi
  split at hi
  · simp at hi
  · exact hi

theorem keeps_disableBits {mask : U32} {h l : Nat} (hh : h ≤ 31)
    (hl : l ≤ h) {next : IeuSeq} (hnext : next.Keeps (ieuAllowed mask)) :
    (ieuDisableBits h l next).Keeps (ieuAllowed mask) := by
  intro data hdata
  refine ⟨⟨fun hreg => ?_, fun _ i hi => ?_⟩, hnext⟩
  · exact absurd hreg (by decide)
  · exact hdata.2 rfl i (setBits_zero_sub hh hl hi)

theorem keeps_clearIntrAll {mask : U32} {next : IeuSeq}
    (hnext : next.Keeps (ieuAllowed mask)) :
    (ieuClearIntrAll next).Keeps (ieuAllowed mask) := by
  refine ⟨⟨fun hreg => ?_, fun hreg => ?_⟩, hnext⟩
  · exact absurd hreg (by decide)
  · exact absurd hreg (by decide)

theorem keeps_enableTxRxAll {mask : U32} {next : IeuSeq}
    (hnext : next.Keeps (ieuAllowed mask)) :
    (ieuEnableIntrTxRxAll next).Keeps (ieuAllowed mask) := by
  refine keeps_clearIntrAll ⟨⟨fun _ => rfl, fun hreg => ?_⟩, hnext⟩
  exact absurd hreg (by decide)

/-- No call unmasks anything in `0x0c80` or masks anything in `0x0c84`. -/
theorem IeuCall.keeps (call : IeuCall) (mask : U32) :
    call.seq.Keeps (ieuAllowed mask) := by
  cases call with
  | disableRxTxInts =>
    exact keeps_disableBits (by omega) (by omega)
      (keeps_disableBits (by omega) (by omega) trivial)
  | lastChannel =>
    exact keeps_disableBits (by omega) (by omega)
      (keeps_disableBits (by omega) (by omega) trivial)
  | enableRxTxInts => exact keeps_enableTxRxAll trivial
  | clearIntrAllTimer => exact keeps_clearIntrAll trivial

-- ================================================================= the runs

/-- The runs of the unit are runs of the race. -/
theorem Ieu.always_iff (P : Ieu → Prop) (w : Ieu)
    (events : List IeuEvent) :
    Run.Always Ieu.step P w events
      ↔ Run.Always Race.step P w (events.map IeuEvent.event) := by
  induction events generalizing w with
  | nil => exact Iff.rfl
  | cons e events ih => exact and_congr_right fun _ => ih (w.step e)

/-- However the handler, the timers and the poll of any number of CPUs
race, from a state with none of them at it and the interrupt enabled: the
interrupt is enabled throughout, and no transmit or receive interrupt that
is masked in `0x0c80` is ever unmasked. -/
theorem ieu_never_unmasks {w : Ieu} (hquiet : w.Quiet)
    (hsbd : w.regs IEU_SBD_EN = 0x1) (events : List IeuEvent) :
    Run.Always Ieu.step
      (fun w' => w'.regs IEU_SBD_EN = 0x1
        ∧ ∀ i, (w'.regs IEU_TX_RX_EN).getLsbD i = true →
          (w.regs IEU_TX_RX_EN).getLsbD i = true) w events := by
  have hstart : ∀ reg,
      ieuAllowed (w.regs IEU_TX_RX_EN) reg (w.regs reg) := by
    intro reg
    constructor
    · intro hreg
      rw [hreg]
      exact hsbd
    · intro hreg i hi
      rw [hreg] at hi
      exact hi
  have hkeeps : ∀ e ∈ events.map IeuEvent.event,
      e.Keeps (ieuAllowed (w.regs IEU_TX_RX_EN)) := by
    intro e he
    obtain ⟨e', -, rfl⟩ := List.mem_map.1 he
    cases e' with
    | call cpu call => exact call.keeps _
    | access cpu => trivial
  rw [Ieu.always_iff]
  exact (Race.always_allowed hquiet hstart hkeeps).mono fun w' h =>
    ⟨(h IEU_SBD_EN).1 rfl, (h IEU_TX_RX_EN).2 rfl⟩

/-- What the runs start from: `ieu_init` enables the interrupt, and what
is masked in `0x0c80` stays so. -/
theorem ieuInit_exec (regs : U32 → U32) :
    (ieuInit .done).exec regs IEU_SBD_EN = 0x1
      ∧ (ieuInit .done).exec regs IEU_TX_RX_EN = regs IEU_TX_RX_EN := by
  constructor
  · simp [ieuInit, ieuEnableIntrTxRxAll, ieuClearIntrAll, Prog.writes,
      Prog.exec, IEU_SBD_EN]
  · simp [ieuInit, ieuEnableIntrTxRxAll, ieuClearIntrAll, Prog.writes,
      Prog.exec, IEU_TX_RX_EN, IEU_SBD_EN, IEU_CLEAR]

/-- After `ieu_init` of a unit that has everything in `0x0c80` enabled. -/
def Ieu.reset : Ieu where
  regs reg := if reg = IEU_SBD_EN then 0x1 else 0xffffffff
  thread _ := .done

/-- The poll is scheduled and done. -/
theorem ieu_never_unmasks_reset :
    Run.Always Ieu.step
      (fun w' => w'.regs IEU_SBD_EN = 0x1
        ∧ ∀ i, (w'.regs IEU_TX_RX_EN).getLsbD i = true →
          (Ieu.reset.regs IEU_TX_RX_EN).getLsbD i = true) Ieu.reset
      [.call 0 .disableRxTxInts, .access 0, .access 0, .access 0,
        .access 0, .call 0 .enableRxTxInts, .access 0, .access 0] :=
  ieu_never_unmasks (fun _ => rfl) rfl _

end BxRnic.Mac
