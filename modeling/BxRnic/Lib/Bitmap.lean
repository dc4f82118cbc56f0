/-
Allocation bitmaps: bits indexed from 0, of which an allocator looks for
the next clear one and sets it.
-/
import Mathlib.Logic.Basic
import Mathlib.Data.List.Basic

namespace BxRnic

/-- A bit array, as far as anyone looks at it. -/
abbrev Bitmap := Nat → Bool

namespace Bitmap

-- =========================================================== single bits

/-- `set_bit` -/
def setBit (bits : Bitmap) (n : Nat) : Bitmap :=
  fun i => if i = n then true else bits i

/-- `clear_bit` -/
def clearBit (bits : Bitmap) (n : Nat) : Bitmap :=
  fun i => if i = n then false else bits i

theorem setBit_iff {bits : Bitmap} {n i : Nat} :
    setBit bits n i = true ↔ i = n ∨ bits i = true := by
  unfold setBit
  by_cases h : i = n
  · simp [h]
  · simp [h]

theorem clearBit_iff {bits : Bitmap} {n i : Nat} :
    clearBit bits n i = true ↔ i ≠ n ∧ bits i = true := by
  unfold clearBit
  by_cases h : i = n
  · simp [h]
  · simp [h]

/-- Bits that are set stay set when another one is. -/
theorem setBit_mono {bits : Bitmap} {n i : Nat} (h : bits i = true) :
    setBit bits n i = true :=
  setBit_iff.2 (Or.inr h)

-- ============================================================ the search

/-- `find_next_zero_bit`: the first clear bit from `offset` on, `size`
if there is none below it. -/
def findNextZeroBit (bits : Bitmap) (size offset : Nat) : Nat :=
  ((List.range' offset (size - offset)).find? fun i => !bits i).getD size

/-- `find_first_zero_bit` -/
def findFirstZeroBit (bits : Bitmap) (size : Nat) : Nat :=
  findNextZeroBit bits size 0

/-- What the search finds below its limit is a clear bit. -/
theorem findNextZeroBit_clear {bits : Bitmap} {size offset : Nat}
    (h : findNextZeroBit bits size offset < size) :
    bits (findNextZeroBit bits size offset) = false := by
  unfold findNextZeroBit at h ⊢
  cases hfind : (List.range' offset (size - offset)).find?
      fun i => !bits i with
  | none =>
      rw [hfind] at h
      exact absurd h (Nat.lt_irrefl size)
  | some i =>
      have hclear := List.find?_some hfind
      simpa using hclear

/-- When the search fails, every bit from the offset on is set. -/
theorem findNextZeroBit_full {bits : Bitmap} {size offset : Nat}
    (h : size ≤ findNextZeroBit bits size offset) {i : Nat}
    (hoff : offset ≤ i) (hsize : i < size) : bits i = true := by
  unfold findNextZeroBit at h
  cases hfind : (List.range' offset (size - offset)).find?
      fun i => !bits i with
  | none =>
      have hmem : i ∈ List.range' offset (size - offset) :=
        List.mem_range'_1.2 ⟨hoff, by omega⟩
      simpa using List.find?_eq_none.1 hfind i hmem
  | some j =>
      rw [hfind] at h
      have hmem := List.mem_of_find?_eq_some hfind
      have hlt := (List.mem_range'_1.1 hmem).2
      simp only [Option.getD_some] at h
      omega

end Bitmap

end BxRnic
