/-
Addresses of twice the width of a register: they are written and read as
two words, the low half and the high half.

The halves put together are the address (`join_halves`), and what is
added to the low half alone is added to the address, as long as nothing
is carried (`toNat_join_add`). Nothing is carried inside a block that is
aligned to its own size, a power of two (`mod_add_le_of_block`): such a
block lies between two multiples of any power of two, or covers whole
ones and begins at one.
-/
import Mathlib.Data.Nat.ModEq
import Mathlib.Data.Nat.Basic

namespace BxRnic.Halves

variable {w n : Nat}

-- ============================================================= the halves

/-- The low word. -/
def low (w : Nat) (x : BitVec n) : BitVec w := x.setWidth w

/-- The high word. -/
def high (w : Nat) (x : BitVec n) : BitVec w := (x >>> w).setWidth w

/-- Two words put together. -/
def join (n : Nat) (lo hi : BitVec w) : BitVec n :=
  (hi.setWidth n <<< w) + lo.setWidth n

theorem toNat_low (x : BitVec n) : (low w x).toNat = x.toNat % 2 ^ w :=
  BitVec.toNat_setWidth _ _

theorem toNat_high (h : n ≤ 2 * w) (x : BitVec n) :
    (high w x).toNat = x.toNat / 2 ^ w := by
  have hx : x.toNat / 2 ^ w < 2 ^ w := by
    refine Nat.div_lt_of_lt_mul ?_
    rw [← pow_add, ← two_mul]
    exact x.isLt.trans_le (Nat.pow_le_pow_right (by decide) h)
  rw [high, BitVec.toNat_setWidth, BitVec.toNat_ushiftRight,
    Nat.shiftRight_eq_div_pow, Nat.mod_eq_of_lt hx]

theorem toNat_join (h : 2 * w ≤ n) (lo hi : BitVec w) :
    (join n lo hi).toNat = hi.toNat * 2 ^ w + lo.toNat := by
  have hpow : 2 ^ w * 2 ^ w ≤ 2 ^ n := by
    rw [← pow_add, ← two_mul]
    exact Nat.pow_le_pow_right (by decide) h
  have hle : 2 ^ w ≤ 2 ^ w * 2 ^ w := Nat.le_mul_self _
  have hlo := lo.isLt
  -- the high word leaves room for the low one
  have hhi : hi.toNat * 2 ^ w + 2 ^ w ≤ 2 ^ w * 2 ^ w := by
    rw [← Nat.succ_mul]
    exact Nat.mul_le_mul_right _ hi.isLt
  have hlt := hi.isLt
  rw [join, BitVec.toNat_add, BitVec.toNat_shiftLeft,
    BitVec.toNat_setWidth, BitVec.toNat_setWidth, Nat.shiftLeft_eq,
    Nat.mod_eq_of_lt (show hi.toNat < 2 ^ n by omega),
    Nat.mod_eq_of_lt (show lo.toNat < 2 ^ n by omega),
    Nat.mod_eq_of_lt (show hi.toNat * 2 ^ w < 2 ^ n by omega),
    Nat.mod_eq_of_lt (by omega)]

/-- The halves put together again. -/
theorem join_halves (h : n = 2 * w) (x : BitVec n) :
    join n (low w x) (high w x) = x := by
  apply BitVec.eq_of_toNat_eq
  rw [toNat_join h.ge, toNat_high h.le, toNat_low, Nat.div_add_mod']

/-- What is added to the low half is added to the address, if nothing is
carried. -/
theorem toNat_join_add (h : n = 2 * w) {x : BitVec n} {d : BitVec w}
    (hcarry : x.toNat % 2 ^ w + d.toNat < 2 ^ w) :
    (join n (low w x + d) (high w x)).toNat = x.toNat + d.toNat := by
  rw [toNat_join h.ge, toNat_high h.le, BitVec.toNat_add, toNat_low,
    Nat.mod_eq_of_lt hcarry, ← Nat.add_assoc, Nat.div_add_mod']

-- ========================================================= aligned blocks

/-- An aligned block ends before the next multiple of what its size
divides. -/
theorem mod_add_le_of_dvd {block start m : Nat} (hm : 0 < m)
    (hblock : block ∣ m) (hstart : block ∣ start) :
    start % m + block ≤ m := by
  have hmod : block ∣ start % m := (Nat.dvd_mod_iff hblock).2 hstart
  refine Nat.ModEq.add_le_of_lt ?_ (Nat.mod_lt start hm)
  exact ((Nat.modEq_zero_iff_dvd).2 hmod).trans
    ((Nat.modEq_zero_iff_dvd).2 hblock).symm

/-- Part of an aligned block, no longer than a power of two, at the
beginning of the block: nothing is carried past that power. -/
theorem mod_add_le_of_block {order start size : Nat}
    (hstart : 2 ^ order ∣ start) (hin : size ≤ 2 ^ order)
    (hsize : size ≤ 2 ^ w) : start % 2 ^ w + size ≤ 2 ^ w := by
  by_cases hle : order ≤ w
  · have hfits := mod_add_le_of_dvd (Nat.two_pow_pos w)
      (Nat.pow_dvd_pow 2 hle) hstart
    exact (Nat.add_le_add_left hin _).trans hfits
  · have hwhole : 2 ^ w ∣ start :=
      (Nat.pow_dvd_pow 2 (Nat.le_of_not_le hle)).trans hstart
    rw [Nat.mod_eq_zero_of_dvd hwhole, Nat.zero_add]
    exact hsize

end BxRnic.Halves
