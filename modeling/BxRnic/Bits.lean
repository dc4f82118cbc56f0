/-
The bit-field helpers of the two drivers: `set_bits` and `get_bits`
(bx_rnic_com.c) and their copies `rdma_set_bits` and `rdma_get_bits`
(bx_roce_driver/bxroce_hw.c).

They cut a field out of a word by shifting it up and down again. That is
the field of the library with its mask (`setBits_eq_field`,
`getBits_eq_field`), so what holds of fields holds of the helpers.

# Shifts

C leaves a shift by the width of the word or more undefined, and the
index arithmetic is that of `unsigned int`. The copies are given with
both: an undefined shift has no value. For indices of a word they have
one, which is that of the helpers (`rdmaSetBits_eq`, `rdmaGetBits_eq`).
-/
import BxRnic.Lib.Field
import BxRnic.Pcs.Port

namespace BxRnic

-- ============================================================ the copies

/-- `x << n` -/
def shl (x n : U32) : Option U32 :=
  if n.toNat < 32 then some (x <<< n.toNat) else none

/-- `x >> n` -/
def shr (x n : U32) : Option U32 :=
  if n.toNat < 32 then some (x >>> n.toNat) else none

/-- The higher index first. -/
def swapIndices (indexH indexL : U32) : U32 × U32 :=
  if indexH < indexL then (indexL, indexH) else (indexH, indexL)

/-- `data_l`: what is below the field. -/
def dataL (data indexL : U32) : Option U32 :=
  -- gcc reason: data<<32 = data
  if indexL = 0 then some 0
  else (shl data (32 - indexL)).bind fun x => shr x (32 - indexL)

/-- `data_m`: the new value in its place. -/
def dataM (newVal indexH indexL : U32) : Option U32 :=
  (shl newVal (31 + indexL - indexH)).bind fun x => shr x (31 - indexH)

/-- `data_h`: what is above the field. -/
def dataH (data indexH : U32) : Option U32 :=
  -- gcc reason: data>>32 = data
  if indexH = 31 then some 0
  else (shr data (indexH + 1)).bind fun x => shl x (indexH + 1)

/-- `rdma_set_bits` -/
def rdmaSetBits (data indexH indexL newVal : U32) : Option U32 := do
  let (indexH, indexL) := swapIndices indexH indexL
  let low ← dataL data indexL
  let mid ← dataM newVal indexH indexL
  let high ← dataH data indexH
  some (high ||| mid ||| low)

/-- `rdma_get_bits` -/
def rdmaGetBits (data indexH indexL : U32) : Option U32 :=
  let (indexH, indexL) := swapIndices indexH indexL
  (shl data (31 - indexH)).bind fun x => shr x (31 + indexL - indexH)

-- ============================================================ the fields

section Field

open Pcs

variable {data v : U32} {h l : Nat}

theorem getLsbD_low {i : Nat} (hi : i < 32) :
    (if l = 0 then 0 else (data <<< (32 - l)) >>> (32 - l)).getLsbD i
      = (decide (i < l) && data.getLsbD i) := by
  split
  · next hzero =>
    have hnot : ¬ i < l := by omega
    rw [decide_eq_false hnot, Bool.false_and]
    exact BitVec.getLsbD_zero
  · rw [BitVec.getLsbD_ushiftRight, BitVec.getLsbD_shiftLeft]
    by_cases hin : i < l
    · have htop : 32 - l + i < 32 := by omega
      simp [hin, htop]
    · have htop : ¬ 32 - l + i < 32 := by omega
      simp [hin, htop]

theorem getLsbD_mid {i : Nat} (hh : h ≤ 31) :
    ((v <<< (31 + l - h)) >>> (31 - h)).getLsbD i
      = (decide (l ≤ i ∧ i ≤ h) && v.getLsbD (i - l)) := by
  have hindex : 31 - h + i - (31 + l - h) = i - l := by omega
  rw [BitVec.getLsbD_ushiftRight, BitVec.getLsbD_shiftLeft, hindex]
  by_cases hlo : l ≤ i
  · have hlo' : ¬ 31 - h + i < 31 + l - h := by omega
    by_cases hhi : i ≤ h
    · have hhi' : 31 - h + i < 32 := by omega
      simp [hlo, hhi, hlo', hhi']
    · have hhi' : ¬ 31 - h + i < 32 := by omega
      simp [hhi, hhi']
  · have hlo' : 31 - h + i < 31 + l - h := by omega
    simp [hlo, hlo']

theorem getLsbD_high {i : Nat} (hi : i < 32) :
    (if h = 31 then 0 else (data >>> (h + 1)) <<< (h + 1)).getLsbD i
      = (decide (h < i) && data.getLsbD i) := by
  split
  · next htop =>
    have hnot : ¬ h < i := by omega
    rw [decide_eq_false hnot, Bool.false_and]
    exact BitVec.getLsbD_zero
  · rw [BitVec.getLsbD_shiftLeft, BitVec.getLsbD_ushiftRight]
    by_cases hin : h < i
    · have hle : ¬ i < h + 1 := by omega
      have hindex : h + 1 + (i - (h + 1)) = i := by omega
      simp only [hin, hle, hi, hindex, decide_true, decide_false,
        Bool.not_false, Bool.true_and]
    · have hle : i < h + 1 := by omega
      simp [hin, hle]

/-- Writing the bits between the indices is writing a field. -/
theorem setBits_eq_field (hh : h ≤ 31) (hl : l ≤ 31) :
    setBits data h l v
      = Field.set data (min h l) (max h l - min h l + 1) v := by
  have hle : min h l ≤ max h l := min_le_max
  have hmax : max h l ≤ 31 := max_le hh hl
  unfold setBits
  generalize max h l = top at *
  generalize min h l = low at *
  refine BitVec.eq_of_getLsbD_eq fun i hi => ?_
  rw [Field.getLsbD_set (by omega) hi, BitVec.getLsbD_or,
    BitVec.getLsbD_or, getLsbD_low hi, getLsbD_mid hmax,
    getLsbD_high hi]
  by_cases hlo : low ≤ i
  · have hlo' : ¬ i < low := by omega
    by_cases hhi : i ≤ top
    · have hhi' : ¬ top < i := by omega
      rw [if_pos (by omega)]
      simp [hlo, hhi, hlo', hhi']
    · have hhi' : top < i := by omega
      rw [if_neg (by omega)]
      simp [hhi, hlo', hhi']
  · have hlo' : i < low := by omega
    have hhi' : ¬ top < i := by omega
    rw [if_neg (by omega)]
    simp [hlo, hlo', hhi']

/-- Reading the bits between the indices is reading a field. -/
theorem getBits_eq_field (hh : h ≤ 31) (hl : l ≤ 31) :
    getBits data h l
      = Field.get data (min h l) (max h l - min h l + 1) := by
  have hle : min h l ≤ max h l := min_le_max
  have hmax : max h l ≤ 31 := max_le hh hl
  unfold getBits
  generalize max h l = top at *
  generalize min h l = low at *
  refine BitVec.eq_of_getLsbD_eq fun i hi => ?_
  rw [Field.getLsbD_get (by omega), BitVec.getLsbD_ushiftRight,
    BitVec.getLsbD_shiftLeft]
  have hindex : 31 + low - top + i - (31 - top) = low + i := by omega
  have hge : ¬ 31 + low - top + i < 31 - top := by omega
  rw [hindex]
  by_cases hin : i < top - low + 1
  · have htop : 31 + low - top + i < 32 := by omega
    simp [hin, hge, htop]
  · have htop : ¬ 31 + low - top + i < 32 := by omega
    simp [hin, htop]

end Field

-- ============================================================= the same

section Same

open Pcs

variable {data v : U32} {h l : Nat}

theorem shl_ofNat {x : U32} {n : Nat} (hn : n < 32) {m : U32}
    (hm : m.toNat = n) : shl x m = some (x <<< n) := by
  rw [shl, hm, if_pos hn]

theorem shr_ofNat {x : U32} {n : Nat} (hn : n < 32) {m : U32}
    (hm : m.toNat = n) : shr x m = some (x >>> n) := by
  rw [shr, hm, if_pos hn]

/-- The index arithmetic does not wrap. -/
theorem index_toNat (hh : h ≤ 31) (hl : l ≤ h) :
    (32 - BitVec.ofNat 32 l : U32).toNat = 32 - l
      ∧ (31 - BitVec.ofNat 32 h : U32).toNat = 31 - h
      ∧ (31 + BitVec.ofNat 32 l - BitVec.ofNat 32 h : U32).toNat
        = 31 + l - h
      ∧ (BitVec.ofNat 32 h + 1 : U32).toNat = h + 1 := by
  refine ⟨?_, ?_, ?_, ?_⟩ <;> bv_omega

theorem swapIndices_eq (hh : h ≤ 31) (hl : l ≤ 31) :
    swapIndices (BitVec.ofNat 32 h) (BitVec.ofNat 32 l)
      = (BitVec.ofNat 32 (max h l), BitVec.ofNat 32 (min h l)) := by
  unfold swapIndices
  by_cases hlt : h < l
  · rw [if_pos (by bv_omega), max_eq_right hlt.le, min_eq_left hlt.le]
  · have hle := Nat.le_of_not_lt hlt
    rw [if_neg (by bv_omega), max_eq_left hle, min_eq_right hle]

theorem ofNat_eq_iff {n m : Nat} (hn : n ≤ 31) (hm : m ≤ 31) :
    (BitVec.ofNat 32 n : U32) = BitVec.ofNat 32 m ↔ n = m := by
  constructor
  · intro heq
    bv_omega
  · rintro rfl
    rfl

theorem dataL_eq (hl : l ≤ 31) :
    dataL data (BitVec.ofNat 32 l)
      = some (if l = 0 then 0 else (data <<< (32 - l)) >>> (32 - l)) := by
  obtain ⟨hlow, -⟩ := index_toNat hl le_rfl
  have hiff : BitVec.ofNat 32 l = (0 : U32) ↔ l = 0 :=
    ofNat_eq_iff hl (Nat.zero_le 31)
  unfold dataL
  by_cases hzero : l = 0
  · rw [if_pos (hiff.2 hzero), if_pos hzero]
  · rw [if_neg (mt hiff.1 hzero), if_neg hzero,
      shl_ofNat (by omega) hlow]
    exact shr_ofNat (by omega) hlow

theorem dataM_eq (hh : h ≤ 31) (hl : l ≤ h) :
    dataM v (BitVec.ofNat 32 h) (BitVec.ofNat 32 l)
      = some ((v <<< (31 + l - h)) >>> (31 - h)) := by
  obtain ⟨-, hup, hdiff, -⟩ := index_toNat hh hl
  rw [dataM, shl_ofNat (by omega) hdiff]
  exact shr_ofNat (by omega) hup

theorem dataH_eq (hh : h ≤ 31) :
    dataH data (BitVec.ofNat 32 h)
      = some (if h = 31 then 0
        else (data >>> (h + 1)) <<< (h + 1)) := by
  obtain ⟨-, -, -, htop⟩ := index_toNat hh le_rfl
  have hiff : BitVec.ofNat 32 h = (31 : U32) ↔ h = 31 :=
    ofNat_eq_iff hh (Nat.le_refl 31)
  unfold dataH
  by_cases hfull : h = 31
  · rw [if_pos (hiff.2 hfull), if_pos hfull]
  · rw [if_neg (mt hiff.1 hfull), if_neg hfull,
      shr_ofNat (by omega) htop]
    exact shl_ofNat (by omega) htop

/-- No shift of `rdma_set_bits` is undefined, and it writes what
`set_bits` does. -/
theorem rdmaSetBits_eq (hh : h ≤ 31) (hl : l ≤ 31) :
    rdmaSetBits data (BitVec.ofNat 32 h) (BitVec.ofNat 32 l) v
      = some (setBits data h l v) := by
  have hle : min h l ≤ max h l := min_le_max
  have hmax : max h l ≤ 31 := max_le hh hl
  unfold rdmaSetBits setBits
  rw [swapIndices_eq hh hl]
  dsimp only
  rw [dataL_eq (hle.trans hmax), dataM_eq hmax hle, dataH_eq hmax]
  rfl

/-- The same of `rdma_get_bits`. -/
theorem rdmaGetBits_eq (hh : h ≤ 31) (hl : l ≤ 31) :
    rdmaGetBits data (BitVec.ofNat 32 h) (BitVec.ofNat 32 l)
      = some (getBits data h l) := by
  have hle : min h l ≤ max h l := min_le_max
  have hmax : max h l ≤ 31 := max_le hh hl
  unfold rdmaGetBits getBits
  rw [swapIndices_eq hh hl]
  generalize max h l = top at *
  generalize min h l = low at *
  obtain ⟨-, hup, hdiff, -⟩ := index_toNat hmax hle
  dsimp only
  rw [shl_ofNat (by omega) hup]
  exact shr_ofNat (by omega) hdiff

end Same

-- =========================================================== the helpers

/-- What is meant to hold of the helpers at two positions. -/
structure HelpersRight (data v : U32) (h l : Nat) : Prop where
  /-- The field reads back as it was written, cut to its length. -/
  reads : (Pcs.getBits (Pcs.setBits data h l v) h l).toNat
    = v.toNat % 2 ^ (max h l - min h l + 1)
  /-- The positions may come in either order. -/
  either : Pcs.setBits data l h v = Pcs.setBits data h l v
    ∧ Pcs.getBits data l h = Pcs.getBits data h l
  /-- The bits outside the field stay. -/
  keeps : ∀ i, i < min h l ∨ max h l < i →
    (Pcs.setBits data h l v).getLsbD i = data.getLsbD i
  /-- Fields that are disjoint are written in any order. -/
  commutes : ∀ (h' l' : Nat) (v' : U32), h' ≤ 31 → l' ≤ 31 →
    max h l < min h' l' ∨ max h' l' < min h l →
    Pcs.setBits (Pcs.setBits data h l v) h' l' v'
      = Pcs.setBits (Pcs.setBits data h' l' v') h l v
  /-- The other driver's copies write and read the same. -/
  sameSet : rdmaSetBits data (BitVec.ofNat 32 h) (BitVec.ofNat 32 l) v
    = some (Pcs.setBits data h l v)
  sameGet : rdmaGetBits data (BitVec.ofNat 32 h) (BitVec.ofNat 32 l)
    = some (Pcs.getBits data h l)

/-- The helpers write and read fields, whatever the word, the value and
the positions, and those of both drivers are the same. -/
theorem bit_helpers_right (data v : U32) {h l : Nat} (hh : h ≤ 31)
    (hl : l ≤ 31) : HelpersRight data v h l := by
  have hmax : max h l ≤ 31 := max_le hh hl
  have hle : min h l ≤ max h l := min_le_max
  have hfits : min h l + (max h l - min h l + 1) ≤ 32 := by omega
  refine ⟨?_, ?_, ?_, ?_, rdmaSetBits_eq hh hl, rdmaGetBits_eq hh hl⟩
  · rw [getBits_eq_field hh hl, setBits_eq_field hh hl,
      Field.get_set hfits, Field.toNat_get (by omega), pow_zero,
      Nat.div_one]
  · unfold Pcs.setBits Pcs.getBits
    rw [max_comm l h, min_comm l h]
    exact ⟨rfl, rfl⟩
  · intro i hout
    by_cases hi : i < 32
    · rw [setBits_eq_field hh hl, Field.getLsbD_set hfits hi,
        if_neg (by omega)]
    · rw [BitVec.getLsbD_of_ge _ _ (by omega),
        BitVec.getLsbD_of_ge _ _ (by omega)]
  · intro h' l' v' hh' hl' hap
    have hmax' : max h' l' ≤ 31 := max_le hh' hl'
    have hle' : min h' l' ≤ max h' l' := min_le_max
    rw [setBits_eq_field hh' hl', setBits_eq_field hh hl,
      setBits_eq_field hh hl, setBits_eq_field hh' hl']
    exact Field.set_set_of_apart hfits (by omega) (by omega)

theorem bit_helpers_right_swapped :
    HelpersRight 0xffffffff 0x5a 4 31 :=
  bit_helpers_right 0xffffffff 0x5a (by decide) (by decide)

end BxRnic
