/-
Fields of a word: the `len` bits from bit `pos` on, read and written with
a mask.

A field that was just written reads back (`get_set`), writing one field
leaves the others alone (`get_set_of_apart`), and fields apart can be
written in any order (`set_set_of_apart`). All of it is read off the bits
(`getLsbD_get`, `getLsbD_set`).
-/
import Mathlib.Algebra.Group.Nat.Defs

namespace BxRnic.Field

variable {w : Nat}

/-- The bits from `pos` to `pos + len - 1`. -/
def mask (w pos len : Nat) : BitVec w :=
  (BitVec.allOnes w <<< pos) &&& (BitVec.allOnes w >>> (w - (pos + len)))

/-- The field, moved down to bit 0. -/
def get (v : BitVec w) (pos len : Nat) : BitVec w :=
  (v &&& mask w pos len) >>> pos

/-- The word with the field replaced by the low bits of `x`. -/
def set (v : BitVec w) (pos len : Nat) (x : BitVec w) : BitVec w :=
  (v &&& ~~~mask w pos len) ||| ((x <<< pos) &&& mask w pos len)

variable {v x : BitVec w} {pos len i : Nat}

theorem getLsbD_mask (h : pos + len ≤ w) :
    (mask w pos len).getLsbD i = decide (pos ≤ i ∧ i < pos + len) := by
  rw [mask, BitVec.getLsbD_and, BitVec.getLsbD_shiftLeft,
    BitVec.getLsbD_ushiftRight, BitVec.getLsbD_allOnes,
    BitVec.getLsbD_allOnes]
  by_cases hlo : pos ≤ i <;> by_cases hhi : i < pos + len
  · have hi : i < w := by omega
    have hw : i - pos < w := by omega
    have htop : w - (pos + len) + i < w := by omega
    have hnlo : ¬ i < pos := by omega
    simp [hlo, hhi, hi, hw, htop, hnlo]
  · have htop : ¬ w - (pos + len) + i < w := by omega
    simp [hhi, htop]
  · have hnlo : i < pos := by omega
    simp [hlo, hnlo]
  · simp [hlo, hhi]

theorem getLsbD_get (h : pos + len ≤ w) :
    (get v pos len).getLsbD i
      = (decide (i < len) && v.getLsbD (pos + i)) := by
  rw [get, BitVec.getLsbD_ushiftRight, BitVec.getLsbD_and, getLsbD_mask h]
  by_cases hi : i < len
  · simp [hi]
  · simp [hi]

theorem getLsbD_set (h : pos + len ≤ w) (hi : i < w) :
    (set v pos len x).getLsbD i
      = if pos ≤ i ∧ i < pos + len then x.getLsbD (i - pos)
        else v.getLsbD i := by
  rw [set, BitVec.getLsbD_or, BitVec.getLsbD_and, BitVec.getLsbD_and,
    BitVec.getLsbD_not, getLsbD_mask h, BitVec.getLsbD_shiftLeft]
  by_cases hin : pos ≤ i ∧ i < pos + len
  · have hlo : ¬ i < pos := by omega
    simp [hin, hi, hlo]
  · simp [hin, hi]

/-- A field reads back as it was written, cut to its length. -/
theorem get_set (h : pos + len ≤ w) :
    get (set v pos len x) pos len = get x 0 len := by
  refine BitVec.eq_of_getLsbD_eq fun i hi => ?_
  have hlen : 0 + len ≤ w := by omega
  rw [getLsbD_get h, getLsbD_get hlen]
  by_cases hin : i < len
  · rw [getLsbD_set h (by omega), if_pos (by omega)]
    simp [hin]
  · simp [hin]

/-- A field apart from the one that is written is left alone. -/
theorem get_set_of_apart {pos' len' : Nat} (h : pos + len ≤ w)
    (h' : pos' + len' ≤ w) (hap : pos + len ≤ pos' ∨ pos' + len' ≤ pos) :
    get (set v pos len x) pos' len' = get v pos' len' := by
  refine BitVec.eq_of_getLsbD_eq fun i hi => ?_
  rw [getLsbD_get h', getLsbD_get h']
  by_cases hin : i < len'
  · rw [getLsbD_set h (by omega), if_neg (by omega)]
  · simp [hin]

/-- Fields apart are written in any order. -/
theorem set_set_of_apart {pos' len' : Nat} {y : BitVec w}
    (h : pos + len ≤ w) (h' : pos' + len' ≤ w)
    (hap : pos + len ≤ pos' ∨ pos' + len' ≤ pos) :
    set (set v pos len x) pos' len' y
      = set (set v pos' len' y) pos len x := by
  refine BitVec.eq_of_getLsbD_eq fun i hi => ?_
  rw [getLsbD_set h' hi, getLsbD_set h hi, getLsbD_set h hi,
    getLsbD_set h' hi]
  by_cases hin : pos ≤ i ∧ i < pos + len
  · rw [if_pos hin, if_pos hin, if_neg (by omega)]
  · rw [if_neg hin, if_neg hin]

/-- A field as a number. -/
theorem toNat_get (h : pos + len ≤ w) :
    (get x pos len).toNat = x.toNat / 2 ^ pos % 2 ^ len := by
  refine Nat.eq_of_testBit_eq fun i => ?_
  rw [Nat.testBit_mod_two_pow, Nat.testBit_div_two_pow,
    BitVec.testBit_toNat, BitVec.testBit_toNat, getLsbD_get h,
    Nat.add_comm]

/-- What a field is read as fits into it. -/
theorem get_get (h : pos + len ≤ w) :
    get (get v pos len) 0 len = get v pos len := by
  refine BitVec.eq_of_getLsbD_eq fun i hi => ?_
  rw [getLsbD_get (by omega), getLsbD_get (by omega),
    getLsbD_get (by omega)]
  rw [Nat.zero_add, ← Bool.and_assoc, Bool.and_self]

/-- The low bits of a number that has no others. -/
theorem get_zero_of_lt (h : len ≤ w) (hx : x.toNat < 2 ^ len) :
    get x 0 len = x := by
  refine BitVec.eq_of_getLsbD_eq fun i hi => ?_
  rw [getLsbD_get (by omega)]
  by_cases hin : i < len
  · simp [hin]
  · have hle : 2 ^ len ≤ 2 ^ i := Nat.pow_le_pow_right (by omega) (by omega)
    have hbit : x.getLsbD i = false := by
      rw [BitVec.getLsbD]
      exact Nat.testBit_lt_two_pow (by omega)
    simp [hin, hbit]

end BxRnic.Field
