/-
Free-running counters of a machine word: a position in a stream, cut to
`w` bits.

Two counters that are less than `2 ^ w` apart tell their distance
(`sub_toNat`), and a table of `2 ^ k` entries is indexed by the low bits
(`and_mask`). A window of `n` positions has no entry of a table of `n`
twice (`mod_inj`).
-/
import Mathlib.Data.Nat.Bitwise
import Mathlib.Data.Nat.ModEq

namespace BxRnic.Counter

variable {w a b k : Nat}

/-- The distance of two counters. -/
theorem sub_toNat (hle : a ≤ b) (hlt : b - a < 2 ^ w) :
    (BitVec.ofNat w b - BitVec.ofNat w a).toNat = b - a := by
  obtain ⟨d, rfl⟩ := Nat.exists_eq_add_of_le hle
  have hd : a + d - a = d := by omega
  rw [hd] at hlt ⊢
  have hsub : BitVec.ofNat w (a + d) - BitVec.ofNat w a
      = BitVec.ofNat w d := by
    rw [BitVec.ofNat_add, BitVec.add_comm, BitVec.add_sub_cancel]
  rw [hsub, BitVec.toNat_ofNat, Nat.mod_eq_of_lt hlt]

/-- A counter moves on. -/
theorem add_one : BitVec.ofNat w a + 1 = BitVec.ofNat w (a + 1) := by
  rw [BitVec.ofNat_add]
  rfl

/-- The entry of a counter in a table of `2 ^ k` entries. -/
theorem and_mask (hk : k ≤ w) :
    (BitVec.ofNat w a).toNat &&& (2 ^ k - 1) = a % 2 ^ k := by
  rw [Nat.and_two_pow_sub_one_eq_mod, BitVec.toNat_ofNat,
    Nat.mod_mod_of_dvd _ (Nat.pow_dvd_pow 2 hk)]

-- ------------------------------------------------------------- windows

variable {n lo : Nat}

/-- Positions of one window of `n` have entries of their own. -/
theorem mod_inj (ha : lo ≤ a) (ha' : a < lo + n) (hb : lo ≤ b)
    (hb' : b < lo + n) (heq : a % n = b % n) : a = b := by
  have hmod : a ≡ b [MOD n] := heq
  rcases Nat.le_total a b with hle | hle
  · have hdvd := (Nat.modEq_iff_dvd' hle).1 hmod
    have hzero := Nat.eq_zero_of_dvd_of_lt hdvd (by omega)
    omega
  · have hdvd := (Nat.modEq_iff_dvd' hle).1 hmod.symm
    have hzero := Nat.eq_zero_of_dvd_of_lt hdvd (by omega)
    omega

end BxRnic.Counter
