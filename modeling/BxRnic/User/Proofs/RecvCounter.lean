/-
The receive batches of `bxroce_poll_hwcq` against a counter of the
hardware.

The hardware counts completed receives: each moves the counter of a
`bth_64_87_lo` by a fixed step, modulo 2^16, and a CQE carries the
counter after the receives it stands for. The library takes the
difference to the CQE before, in 32 bits, and divides by `phase`, which
it sets to 1 at a CQE whose counter is 0 and nowhere else.

# Where it goes wrong

Before the first such CQE the division is by zero. The counter 0 also
stands for "no CQE yet", and the CQE after one with counter 0 is counted
one too high. A difference taken over the wrap is negative. `CountsOk`
says what is left; with a step of 1 it is runs of one CQE
(`unit_step_fails`).
-/
import BxRnic.User.Proofs.PollCq

namespace BxRnic.User

-- ============================================================== the hardware

/-- A receive CQE: the receives it stands for, and those that are posted
and not completed when it is written. The counter in the entry is
overwritten. -/
structure Batch where
  receives : Nat
  spare : Nat
  cqe : Rxcqe

/-- The counter after `completed` receives. -/
def counter (start step completed : Nat) : U16 :=
  BitVec.ofNat 16 (start + step * completed)

/-- The CQE a batch is reported with. -/
def Batch.reportedAt (b : Batch) (lo : U16) : Rxcqe :=
  { b.cqe with bth6487Lo := lo }

/-- The CQEs of a run, from `completed` receives on. -/
def hwCqes (start step : Nat) : Nat → List Batch → List Rxcqe
  | _, [] => []
  | completed, b :: bs =>
      let completed := completed + b.receives
      b.reportedAt (counter start step completed)
        :: hwCqes start step completed bs

-- ============================================================== the property

/-- The receives some batches stand for. -/
def received (bs : List Batch) : Nat := (bs.map Batch.receives).sum

/-- The completions some rounds report. -/
def reported (ks : List (Option Nat)) : Nat := (ks.map (·.getD 0)).sum

/-- What a new completion queue and queue pair make of a run. -/
def libraryCounts (start step : Nat) (bs : List Batch) :
    List (Option Nat) :=
  rxBatches 0 0 (hwCqes start step 0 bs)

/-- No round divides by zero, each reports what its CQE stands for, they
report as many receives as completed, and at no time more than are
posted. -/
structure CountsRight (start step : Nat) (bs : List Batch) : Prop where
  exact : libraryCounts start step bs = bs.map fun b => some b.receives
  total : reported (libraryCounts start step bs) = received bs
  outstanding : ∀ (pre : List Batch) (b : Batch) (post : List Batch),
    bs = pre ++ b :: post →
    reported ((libraryCounts start step bs).take (pre.length + 1))
      ≤ received (pre ++ [b]) + b.spare

-- ============================================================= the condition

/-- The condition on a CQE of counter `lo`, `prev` being that of the one
before (0 for none) and `seen` whether one of counter 0 was seen. The
last case takes more than 2^32 - 2^16 receives. -/
def BatchOk (seen : Bool) (prev lo : U16) (receives : Nat) : Prop :=
  if lo = 0 then receives = 1
  else
    seen = true
      ∧ if prev = 0 then receives = lo.toNat + 1
        else
          prev.toNat ≤ lo.toNat ∧ receives = lo.toNat - prev.toNat
            ∨ lo.toNat < prev.toNat
              ∧ receives + prev.toNat = lo.toNat + 2 ^ 32

/-- The condition on a run. -/
def CountsOk (start step : Nat) : Bool → U16 → Nat → List Batch → Prop
  | _, _, _, [] => True
  | seen, prev, completed, b :: bs =>
      let completed := completed + b.receives
      let lo := counter start step completed
      BatchOk seen prev lo b.receives
        ∧ CountsOk start step (seen || decide (lo = 0)) lo completed bs

-- ================================================================ one batch

/-- `phase` is 0 until a counter of 0 is seen, and 1 then. -/
def phaseOf (seen : Bool) : U32 := if seen then 1 else 0

private theorem toNat_widen (x : U16) :
    (x.setWidth 32 : U32).toNat = x.toNat := by
  have hlt := x.isLt
  rw [BitVec.toNat_setWidth]
  exact Nat.mod_eq_of_lt (by omega)

private theorem widen_eq_zero (x : U16) :
    (x.setWidth 32 : U32) = 0 ↔ x = 0 := by
  constructor
  · intro h
    apply BitVec.eq_of_toNat_eq
    rw [← toNat_widen, h]
    rfl
  · rintro rfl
    rfl

/-- The difference of two counters, taken in 32 bits. -/
private theorem batchCount (prev lo : U16) (receives : Nat) :
    (lo.setWidth 32 - prev.setWidth 32 : U32).toNat = receives
      ↔ prev.toNat ≤ lo.toNat ∧ receives = lo.toNat - prev.toNat
        ∨ lo.toNat < prev.toNat
          ∧ receives + prev.toNat = lo.toNat + 2 ^ 32 := by
  have hlo := lo.isLt
  have hp := prev.isLt
  rw [BitVec.toNat_sub, toNat_widen, toNat_widen]
  omega

/-- A batch is reported as what it stands for exactly when it is in
order, and `phase` is known from then on if it was or if the counter is
0. -/
theorem rxBatch_iff {seen : Bool} {prev lo : U16} {b : Batch} :
    BatchOk seen prev lo b.receives
      ↔ rxBatch (prev.setWidth 32) (phaseOf seen) (b.reportedAt lo)
        = some (b.receives, phaseOf (seen || decide (lo = 0))) := by
  have hone : (1 : U32) ≠ 0 := by decide
  have hdiv : ∀ x : U32, x / 1 = x := fun x => BitVec.udiv_one
  unfold rxBatch BatchOk Batch.reportedAt
  dsimp only
  by_cases hlo : lo = 0
  · subst hlo
    simp [phaseOf, eq_comm]
  have hlo32 : ¬ (lo.setWidth 32 : U32) = 0 := mt (widen_eq_zero lo).1 hlo
  rw [if_neg hlo, if_neg hlo32]
  cases seen with
  | false => simp [phaseOf]
  | true =>
      simp only [phaseOf, if_true, if_neg hone, Bool.true_or, true_and,
        hdiv, Option.some.injEq, Prod.mk.injEq, and_true, widen_eq_zero]
      by_cases hprev : prev = 0
      · subst hprev
        have hlt := lo.isLt
        have hzero : (lo.setWidth 32 - (0 : U16).setWidth 32 : U32)
            = lo.setWidth 32 := BitVec.sub_zero _
        have hone' : (1 : U32).toNat = 1 := rfl
        rw [if_pos rfl, if_pos rfl, hzero, BitVec.toNat_add, toNat_widen,
          hone']
        omega
      · rw [if_neg hprev, if_neg hprev]
        exact (batchCount prev lo b.receives).symm

-- ==================================================================== runs

/-- A run counts right from some state on. -/
private theorem rxBatches_iff (start step : Nat) (bs : List Batch) :
    ∀ (seen : Bool) (prev : U16) (completed : Nat),
      rxBatches (prev.setWidth 32) (phaseOf seen)
          (hwCqes start step completed bs)
        = bs.map (fun b => some b.receives)
      ↔ CountsOk start step seen prev completed bs := by
  induction bs with
  | nil =>
      intro seen prev completed
      simp [hwCqes, rxBatches, CountsOk]
  | cons b bs ih =>
      intro seen prev completed
      rw [hwCqes, CountsOk]
      generalize hlo : counter start step (completed + b.receives) = lo
      rw [rxBatches, rxBatch_iff, List.map_cons]
      have hrest := ih (seen || decide (lo = 0)) lo
        (completed + b.receives)
      cases hbatch : rxBatch (prev.setWidth 32) (phaseOf seen)
          (b.reportedAt lo) with
      | none => simp
      | some found =>
          obtain ⟨k, phase⟩ := found
          simp only [List.cons.injEq, Option.some.injEq, Prod.mk.injEq]
          constructor
          · rintro ⟨rfl, htail⟩
            -- the phase is the one of a batch in order
            have hphase : phase = phaseOf (seen || decide (lo = 0)) := by
              have hcount := hbatch
              unfold rxBatch at hcount
              dsimp only [Batch.reportedAt] at hcount
              by_cases h0 : lo = 0
              · subst h0
                have hp := (Option.some.inj hcount).symm
                rw [Prod.mk.injEq] at hp
                simp [hp.2, phaseOf]
              · rw [if_neg (mt (widen_eq_zero lo).1 h0)] at hcount
                cases seen with
                | false => simp [phaseOf] at hcount
                | true =>
                    simp only [phaseOf, if_true] at hcount
                    rw [if_neg (by decide)] at hcount
                    have hp := (Option.some.inj hcount).symm
                    rw [Prod.mk.injEq] at hp
                    simp [hp.2, phaseOf]
            refine ⟨⟨rfl, hphase⟩, hrest.1 ?_⟩
            rw [← hphase]
            exact htail
          · rintro ⟨⟨rfl, rfl⟩, hok⟩
            exact ⟨rfl, hrest.2 hok⟩

/-- For every start and step of the counter and every run: the library
counts right exactly when every CQE is in order. -/
theorem counts_right_iff (start step : Nat) (bs : List Batch) :
    CountsRight start step bs ↔ CountsOk start step false 0 0 bs := by
  have hiff := rxBatches_iff start step bs false 0 0
  constructor
  · intro h
    exact hiff.1 h.exact
  · intro h
    have hexact : libraryCounts start step bs
        = bs.map fun b => some b.receives := hiff.2 h
    have hsum : ∀ l : List Batch,
        reported (l.map fun b => some b.receives) = received l := by
      intro l
      simp [reported, received, Function.comp_def]
    refine ⟨hexact, ?_, ?_⟩
    · rw [hexact, hsum]
    · rintro pre b post rfl
      have htake : (pre ++ b :: post).take (pre.length + 1)
          = pre ++ [b] := by
        simp [List.take_append]
      rw [hexact, ← List.map_take, htake, hsum]
      exact Nat.le_add_right _ _

/-- A counter that counts receives one by one is counted right for one
CQE at most. -/
theorem unit_step_fails (start : Nat) (b b' : Batch) (bs : List Batch) :
    ¬ CountsOk start 1 false 0 0 (b :: b' :: bs) := by
  rintro ⟨hfirst, hsecond, -⟩
  unfold BatchOk at hfirst hsecond
  -- the first CQE has counter 0 and stands for one receive
  by_cases h0 : counter start 1 (0 + b.receives) = 0
  · rw [if_pos h0] at hfirst
    rw [h0, if_pos rfl] at hsecond
    have hzero : (start + 1) % 2 ^ 16 = 0 := by
      have hnat := congrArg BitVec.toNat h0
      rw [hfirst] at hnat
      simpa [counter] using hnat
    have hnext : (counter start 1 (0 + b.receives + b'.receives)).toNat
        = b'.receives % 2 ^ 16 := by
      unfold counter
      rw [hfirst, BitVec.toNat_ofNat]
      omega
    by_cases h1 : counter start 1 (0 + b.receives + b'.receives) = 0
    · rw [if_pos h1] at hsecond
      rw [h1, hsecond] at hnext
      exact absurd hnext (by decide)
    · rw [if_neg h1] at hsecond
      rw [hnext] at hsecond
      omega
  · rw [if_neg h0] at hfirst
    exact Bool.noConfusion hfirst.1

-- =============================================================== two receives

/-- The counters 0 and 1, one receive each: two are reported for the
second. -/
theorem second_receive_counted_twice :
    let bs : List Batch := [⟨1, 255, .zero⟩, ⟨1, 254, .zero⟩]
    libraryCounts 0xffff 1 bs = [some 1, some 2]
      ∧ ¬ CountsRight 0xffff 1 bs := by
  intro bs
  have hcounts : libraryCounts 0xffff 1 bs = [some 1, some 2] := by
    decide
  refine ⟨hcounts, fun h => ?_⟩
  have hexact := h.exact
  rw [hcounts] at hexact
  exact absurd hexact (by decide)

end BxRnic.User
