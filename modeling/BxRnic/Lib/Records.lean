/-
Records of one size on a stream of bytes.

A stream says nothing about where a record ends: `records` cuts it every
`n` bytes, and what is left over is no record yet. A reader that takes
whole records (`records_append`) reads what was written, in order
(`records_flatten`, `records_mono`).
-/
import Mathlib.Data.List.Induction
import Mathlib.Data.Nat.Basic

namespace BxRnic.Records

variable {α β : Type*} {n : Nat} {decode : List β → α}

-- =============================================================== records

/-- The records of a stream. -/
def records (n : Nat) (decode : List β → α) (bs : List β) : List α :=
  (List.range (bs.length / n)).map fun i =>
    decode ((bs.drop (n * i)).take n)

@[simp] theorem length_records (bs : List β) :
    (records n decode bs).length = bs.length / n := by
  simp [records]

theorem records_nil : records n decode [] = [] := by
  simp [records]

/-- One more record, behind whole ones. -/
theorem records_append (hn : 0 < n) {pre rec : List β} (hpre : n ∣ pre.length)
    (hrec : rec.length = n) :
    records n decode (pre ++ rec) = records n decode pre ++ [decode rec] := by
  obtain ⟨k, hk⟩ := hpre
  have hlen : (pre ++ rec).length / n = k + 1 := by
    rw [List.length_append, hk, hrec, ← Nat.mul_succ,
      Nat.mul_div_cancel_left _ hn]
  have hold : pre.length / n = k := by
    rw [hk, Nat.mul_div_cancel_left _ hn]
  unfold records
  rw [hlen, hold, List.range_succ, List.map_append]
  congr 1
  · apply List.map_congr_left
    intro i hi
    rw [List.mem_range] at hi
    have hi' : n * i + n ≤ pre.length := by
      rw [hk, ← Nat.mul_succ]
      exact Nat.mul_le_mul_left n hi
    rw [List.drop_append_of_le_length (by omega),
      List.take_append_of_le_length (by rw [List.length_drop]; omega)]
  · rw [List.map_singleton, ← hk, List.drop_left, ← hrec, List.take_length]

/-- What was written one after the other is read so. -/
theorem records_flatten (hn : 0 < n) {encode : α → List β}
    (hlen : ∀ a, (encode a).length = n)
    (hdecode : ∀ a, decode (encode a) = a) (as : List α) :
    n ∣ (as.map encode).flatten.length
      ∧ records n decode (as.map encode).flatten = as := by
  induction as using List.reverseRecOn with
  | nil => exact ⟨Nat.dvd_zero n, records_nil⟩
  | append_singleton as a ih =>
    obtain ⟨hdvd, hrecords⟩ := ih
    rw [List.map_append, List.flatten_append, List.map_singleton,
      List.flatten_singleton]
    constructor
    · rw [List.length_append, hlen]
      exact (Nat.dvd_add_right hdvd).2 (Nat.dvd_refl n)
    · rw [records_append hn hdvd (hlen a), hrecords, hdecode]

-- ============================================================== prefixes

/-- The records of a prefix come first. -/
theorem records_mono (hn : 0 < n) {pre bs : List β} (h : pre <+: bs) :
    records n decode pre <+: records n decode bs := by
  obtain ⟨rest, rfl⟩ := h
  have hle : pre.length / n ≤ (pre ++ rest).length / n := by
    apply Nat.div_le_div_right
    rw [List.length_append]
    exact Nat.le_add_right _ _
  have hsame : records n decode pre
      = (records n decode (pre ++ rest)).take (pre.length / n) := by
    unfold records
    rw [← List.map_take, List.take_range, Nat.min_eq_left hle]
    apply List.map_congr_left
    intro i hi
    rw [List.mem_range] at hi
    have hi' : n * i + n ≤ pre.length := by
      rw [← Nat.mul_succ, Nat.mul_comm]
      exact (Nat.le_div_iff_mul_le hn).1 hi
    rw [List.drop_append_of_le_length (by omega),
      List.take_append_of_le_length (by rw [List.length_drop]; omega)]
  rw [hsame]
  exact List.take_prefix _ _

end BxRnic.Records
