/-
Machine words and their bytes: the fixed-width types of the C sources,
the conversions the sources rely on without naming them, and words that
are overwritten byte by byte.

# Conversions

`int offset = a - b` with 64-bit operands keeps the low 32 bits of the
difference and, added back to a 64-bit address, extends their sign:
`intOffset`. `be32toh` swaps bytes on the little-endian hosts the
drivers run on.

# Overlaid bytes

A copy that stops in the middle of a word leaves the word's low bytes
new and its high bytes old (little-endian): `overlay`. The lemma to use
is `overlay_eq_iff`, which says when the mixture spells a given word.

# Packed fields

A setter masks its field out of the word, shifts the new value to the
field's place and adds the two: `low_add_shift` and `high_add` say that
nothing carries, so that the word is the two parts side by side.
-/
import Mathlib.Data.BitVec

namespace BxRnic

abbrev U8 := BitVec 8
abbrev U16 := BitVec 16
abbrev U32 := BitVec 32
abbrev U64 := BitVec 64

namespace Word

variable {w : Nat}

-- ============================================================ conversions

/-- A 64-bit difference stored in an `int` and added back to a 64-bit
address. -/
def intOffset (d : U64) : U64 := (d.setWidth 32).signExtend 64

/-- Byte swap of a 32-bit word. -/
def be32toh (x : U32) : U32 :=
  (x.extractLsb' 0 8) ++ (x.extractLsb' 8 8) ++ (x.extractLsb' 16 8)
    ++ (x.extractLsb' 24 8)

/-- Swapped twice, the bytes are back in order. -/
theorem be32toh_be32toh (x : U32) : be32toh (be32toh x) = x := by
  apply BitVec.eq_of_getLsbD_eq
  intro i hi
  unfold be32toh
  simp only [BitVec.getLsbD_append, BitVec.getLsbD_extractLsb']
  grind

theorem be32toh_eq_zero {x : U32} : be32toh x = 0 ↔ x = 0 := by
  constructor
  · intro h
    rw [← be32toh_be32toh x, h]
    decide
  · rintro rfl
    decide

/-- What the `int` costs a difference of less than 4 GiB: nothing below
2 GiB, and 4 GiB from there on. -/
theorem intOffset_eq {d : U64} (hd : d.toNat < 2 ^ 32) :
    intOffset d = d - if 2 ^ 31 ≤ d.toNat then 0x100000000#64 else 0#64 := by
  apply BitVec.eq_of_toNat_eq
  have hmsb : (d.setWidth 32).msb = decide (2 ^ 31 ≤ d.toNat) := by
    rw [BitVec.msb_eq_decide, BitVec.toNat_setWidth,
      Nat.mod_eq_of_lt hd]
  unfold intOffset
  rw [BitVec.toNat_signExtend, hmsb, BitVec.toNat_setWidth,
    BitVec.toNat_setWidth]
  by_cases hbig : 2 ^ 31 ≤ d.toNat
  · simp only [hbig, decide_true, if_true, BitVec.toNat_sub,
      BitVec.toNat_ofNat]
    omega
  · simp only [hbig, decide_false, if_false, Bool.false_eq_true,
      BitVec.sub_zero]
    omega

-- ======================================================== overlaid bytes

/-- The word whose first `k` bytes in memory are those of `new` and
whose other bytes are those of `old`. -/
def overlay (k : Nat) (new old : BitVec w) : BitVec w :=
  BitVec.ofNat w (new.toNat % 256 ^ k + old.toNat / 256 ^ k * 256 ^ k)

/-- The first `k` bytes of two words agree. -/
def SameFirst (k : Nat) (x y : BitVec w) : Prop :=
  x.toNat % 256 ^ k = y.toNat % 256 ^ k

/-- The bytes of two words from the `k`-th on agree. -/
def SameRest (k : Nat) (x y : BitVec w) : Prop :=
  x.toNat / 256 ^ k = y.toNat / 256 ^ k

instance (k : Nat) (x y : BitVec w) : Decidable (SameFirst k x y) :=
  inferInstanceAs (Decidable (_ = _))

instance (k : Nat) (x y : BitVec w) : Decidable (SameRest k x y) :=
  inferInstanceAs (Decidable (_ = _))

/-- The mixture is a word: its bytes fit when its parts' bytes do. -/
theorem toNat_overlay (k : Nat) (hk : 8 * k ≤ w) (new old : BitVec w) :
    (overlay k new old).toNat
      = new.toNat % 256 ^ k + old.toNat / 256 ^ k * 256 ^ k := by
  have hpow : 256 ^ k = 2 ^ (8 * k) := by
    rw [show (256 : Nat) = 2 ^ 8 from rfl, ← Nat.pow_mul]
  have hsplit : 2 ^ w = 2 ^ (w - 8 * k) * 256 ^ k := by
    rw [hpow, ← Nat.pow_add]
    congr 1
    omega
  have hlow : new.toNat % 256 ^ k < 256 ^ k :=
    Nat.mod_lt _ (Nat.pow_pos (by decide))
  have hhigh : old.toNat / 256 ^ k < 2 ^ (w - 8 * k) := by
    rw [Nat.div_lt_iff_lt_mul (Nat.pow_pos (by decide)), ← hsplit]
    exact old.isLt
  have hfit : new.toNat % 256 ^ k + old.toNat / 256 ^ k * 256 ^ k
      < 2 ^ w := by
    calc new.toNat % 256 ^ k + old.toNat / 256 ^ k * 256 ^ k
        < 256 ^ k + old.toNat / 256 ^ k * 256 ^ k := by omega
      _ = (old.toNat / 256 ^ k + 1) * 256 ^ k := by
          rw [Nat.add_mul, Nat.one_mul, Nat.add_comm]
      _ ≤ 2 ^ (w - 8 * k) * 256 ^ k := Nat.mul_le_mul_right _ hhigh
      _ = 2 ^ w := hsplit.symm
  rw [overlay, BitVec.toNat_ofNat, Nat.mod_eq_of_lt hfit]

/-- The mixture spells `y` iff the new bytes spell its first part and
the old bytes its rest. -/
theorem overlay_eq_iff {k : Nat} (hk : 8 * k ≤ w) {new old y : BitVec w} :
    overlay k new old = y ↔ SameFirst k new y ∧ SameRest k old y := by
  have hpos : 0 < 256 ^ k := Nat.pow_pos (by decide)
  rw [← BitVec.toNat_inj, toNat_overlay k hk]
  constructor
  · intro h
    constructor
    · unfold SameFirst
      rw [← h, Nat.add_mul_mod_self_right, Nat.mod_mod]
    · unfold SameRest
      rw [← h, Nat.add_mul_div_right _ _ hpos,
        Nat.div_eq_of_lt (Nat.mod_lt _ hpos), Nat.zero_add]
  · rintro ⟨hfirst, hrest⟩
    unfold SameFirst at hfirst
    unfold SameRest at hrest
    rw [hfirst, hrest, Nat.mul_comm]
    exact Nat.mod_add_div _ _

@[simp] theorem overlay_zero (new old : BitVec w) :
    overlay 0 new old = old :=
  (overlay_eq_iff (by omega)).2
    ⟨by simp [SameFirst, Nat.mod_one], rfl⟩

/-- Overlaying every byte is a plain copy. -/
theorem overlay_full {k : Nat} (hk : 8 * k = w) (new old : BitVec w) :
    overlay k new old = new := by
  have hpow : 2 ^ w = 256 ^ k := by
    rw [← hk, Nat.pow_mul]
  have hlt : ∀ x : BitVec w, x.toNat / 256 ^ k = 0 := fun x =>
    Nat.div_eq_of_lt (hpow ▸ x.isLt)
  exact (overlay_eq_iff (by omega)).2
    ⟨rfl, by unfold SameRest; rw [hlt, hlt]⟩

-- ========================================================== packed fields

section Packed

variable {m n : Nat}

/-- Two parts side by side, as a sum. -/
theorem toNat_append_eq_add (x : BitVec m) (y : BitVec n) :
    (x ++ y).toNat = x.toNat * 2 ^ n + y.toNat := by
  rw [BitVec.toNat_append, ← Nat.shiftLeft_add_eq_or_of_lt y.isLt,
    Nat.shiftLeft_eq]

/-- The low `n` bits, as a mask takes them. -/
theorem toNat_and_low (x : BitVec (m + n)) :
    (x &&& BitVec.ofNat (m + n) (2 ^ n - 1)).toNat = x.toNat % 2 ^ n := by
  have hfit : 2 ^ n - 1 < 2 ^ (m + n) :=
    calc 2 ^ n - 1 < 2 ^ n := Nat.sub_lt (Nat.two_pow_pos n) Nat.one_pos
      _ ≤ 2 ^ (m + n) := Nat.pow_le_pow_right (by decide) (by omega)
  rw [BitVec.toNat_and, BitVec.toNat_ofNat, Nat.mod_eq_of_lt hfit,
    Nat.and_two_pow_sub_one_eq_mod]

/-- Everything but the low `n` bits, as a mask takes it. -/
theorem toNat_and_high (x : BitVec (m + n)) :
    (x &&& BitVec.ofNat (m + n) ((2 ^ m - 1) * 2 ^ n)).toNat
      = x.toNat / 2 ^ n * 2 ^ n := by
  have hbits : ∀ i : Nat,
      (x.toNat &&& (2 ^ m - 1) * 2 ^ n).testBit i
        = (x.toNat / 2 ^ n * 2 ^ n).testBit i := by
    intro i
    rw [Nat.testBit_and, Nat.testBit_mul_two_pow, Nat.testBit_mul_two_pow,
      Nat.testBit_div_two_pow, Nat.testBit_two_pow_sub_one]
    by_cases hi : n ≤ i
    · by_cases hm : i - n < m
      · simp [hi, hm]
      · have htop : x.toNat.testBit i = false :=
          Nat.testBit_lt_two_pow (Nat.lt_of_lt_of_le x.isLt
            (Nat.pow_le_pow_right (by decide) (by omega)))
        simp [hi, hm, htop]
    · simp [hi]
  have hfit : (2 ^ m - 1) * 2 ^ n < 2 ^ (m + n) := by
    rw [Nat.pow_add]
    exact Nat.mul_lt_mul_of_pos_right
      (Nat.sub_lt (Nat.two_pow_pos m) Nat.one_pos) (Nat.two_pow_pos n)
  rw [BitVec.toNat_and, BitVec.toNat_ofNat, Nat.mod_eq_of_lt hfit]
  exact Nat.eq_of_testBit_eq hbits

/-- Masking the high bits out only when there are some is masking them
out. -/
theorem guard_low (x : BitVec (m + n)) :
    (if x >>> n ≠ 0 then x &&& BitVec.ofNat (m + n) (2 ^ n - 1) else x)
      = x &&& BitVec.ofNat (m + n) (2 ^ n - 1) := by
  by_cases hx : x >>> n = 0
  · rw [if_neg (not_not_intro hx)]
    apply BitVec.eq_of_toNat_eq
    have hdiv : x.toNat / 2 ^ n = 0 := by
      rw [← Nat.shiftRight_eq_div_pow, ← BitVec.toNat_ushiftRight, hx]
      rfl
    have hlt : x.toNat < 2 ^ n :=
      Nat.lt_of_div_eq_zero (Nat.two_pow_pos n) hdiv
    rw [toNat_and_low, Nat.mod_eq_of_lt hlt]
  · rw [if_pos hx]

/-- Masking a word only when it is not zero is masking it. -/
theorem guard_and (x mask : BitVec w) :
    (if x ≠ 0 then x &&& mask else x) = x &&& mask := by
  by_cases hx : x = 0
  · rw [if_neg (not_not_intro hx), hx]
    simp
  · rw [if_pos hx]

/-- A field added above the low `n` bits. -/
theorem low_add_shift (x y : BitVec (m + n)) :
    (x &&& BitVec.ofNat (m + n) (2 ^ n - 1)) + y <<< n
      = y.extractLsb' 0 m ++ x.extractLsb' 0 n := by
  apply BitVec.eq_of_toNat_eq
  have hy : y.toNat <<< n % 2 ^ (m + n) = y.toNat % 2 ^ m * 2 ^ n := by
    rw [Nat.shiftLeft_eq, Nat.pow_add, Nat.mul_mod_mul_right]
  have hparts : (y.extractLsb' 0 m ++ x.extractLsb' 0 n).toNat
      = y.toNat % 2 ^ m * 2 ^ n + x.toNat % 2 ^ n := by
    rw [toNat_append_eq_add]
    simp
  have hfit := (y.extractLsb' 0 m ++ x.extractLsb' 0 n).isLt
  rw [hparts] at hfit
  rw [BitVec.toNat_add, toNat_and_low, BitVec.toNat_shiftLeft, hy,
    Nat.add_comm, Nat.mod_eq_of_lt hfit, hparts]

/-- A field added below the high bits. -/
theorem high_add (x y : BitVec (m + n)) (hy : y.toNat < 2 ^ n) :
    (x &&& BitVec.ofNat (m + n) ((2 ^ m - 1) * 2 ^ n)) + y
      = x.extractLsb' n m ++ y.extractLsb' 0 n := by
  apply BitVec.eq_of_toNat_eq
  have hx : x.toNat / 2 ^ n < 2 ^ m :=
    Nat.div_lt_of_lt_mul (by
      rw [Nat.mul_comm, ← Nat.pow_add]
      exact x.isLt)
  have hparts : (x.extractLsb' n m ++ y.extractLsb' 0 n).toNat
      = x.toNat / 2 ^ n * 2 ^ n + y.toNat := by
    rw [toNat_append_eq_add, BitVec.extractLsb'_toNat,
      BitVec.extractLsb'_toNat, Nat.shiftRight_eq_div_pow,
      Nat.mod_eq_of_lt hx, Nat.shiftRight_zero, Nat.mod_eq_of_lt hy]
  have hfit := (x.extractLsb' n m ++ y.extractLsb' 0 n).isLt
  rw [hparts] at hfit
  rw [BitVec.toNat_add, toNat_and_high, Nat.mod_eq_of_lt hfit, hparts]

/-- `low_add_shift` behind a test for high bits. -/
theorem guarded_low_add_shift (x y : BitVec (m + n)) :
    (if x >>> n ≠ 0 then x &&& BitVec.ofNat (m + n) (2 ^ n - 1) else x)
        + y <<< n
      = y.extractLsb' 0 m ++ x.extractLsb' 0 n := by
  rw [guard_low, low_add_shift]

/-- `high_add` behind a test for zero. -/
theorem guarded_high_add (x y : BitVec (m + n)) (hy : y.toNat < 2 ^ n) :
    (if x ≠ 0 then x &&& BitVec.ofNat (m + n) ((2 ^ m - 1) * 2 ^ n)
        else x) + y
      = x.extractLsb' n m ++ y.extractLsb' 0 n := by
  rw [guard_and, high_add x y hy]

end Packed

end Word

end BxRnic
