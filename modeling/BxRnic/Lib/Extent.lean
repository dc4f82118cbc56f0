/-
Extents: stretches of an address space given by where they start and how
long they are, and lists of them that are read one after the other.

A list of extents describes a buffer when the addresses it goes through
are the buffer's, byte by byte and in order (`bytes`). Two lists may cut
the same buffer at different places; `run_add` is what joins and splits.
Addresses are machine words and wrap.
-/
import BxRnic.Lib.Word

namespace BxRnic

/-- A stretch of memory. -/
structure Extent (w : Nat) where
  addr : BitVec w
  len : Nat

namespace Extent

variable {w : Nat}

-- ================================================================== runs

/-- `n` addresses from `a` on. -/
def run (a : BitVec w) (n : Nat) : List (BitVec w) :=
  (List.range n).map fun i => a + BitVec.ofNat w i

@[simp] theorem length_run (a : BitVec w) (n : Nat) :
    (run a n).length = n := by
  simp [run]

@[simp] theorem run_zero (a : BitVec w) : run a 0 = [] := rfl

/-- A run is its first part and then the rest. -/
theorem run_add (a : BitVec w) (m n : Nat) :
    run a (m + n) = run a m ++ run (a + BitVec.ofNat w m) n := by
  have hshift : ∀ i : Nat, a + BitVec.ofNat w (m + i)
      = a + BitVec.ofNat w m + BitVec.ofNat w i := by
    intro i
    rw [BitVec.ofNat_add, BitVec.add_assoc]
  simp [run, List.range_add, hshift]

/-- Part of a run is a run. -/
theorem take_drop_run (a : BitVec w) {k m n : Nat} (h : k + m ≤ n) :
    ((run a n).drop k).take m = run (a + BitVec.ofNat w k) m := by
  obtain ⟨r, rfl⟩ := Nat.exists_eq_add_of_le h
  rw [Nat.add_assoc, run_add, List.drop_left' (length_run a k), run_add,
    List.take_left' (length_run _ m)]

-- ============================================================== extents

/-- The addresses a list of extents goes through. -/
def bytes (es : List (Extent w)) : List (BitVec w) :=
  es.flatMap fun e => run e.addr e.len

/-- How many addresses that is. -/
def total (es : List (Extent w)) : Nat :=
  (es.map Extent.len).sum

@[simp] theorem bytes_nil : bytes ([] : List (Extent w)) = [] := rfl

@[simp] theorem bytes_cons (e : Extent w) (es : List (Extent w)) :
    bytes (e :: es) = run e.addr e.len ++ bytes es := rfl

@[simp] theorem bytes_append (es fs : List (Extent w)) :
    bytes (es ++ fs) = bytes es ++ bytes fs := by
  simp [bytes]

@[simp] theorem total_nil : total ([] : List (Extent w)) = 0 := rfl

@[simp] theorem total_cons (e : Extent w) (es : List (Extent w)) :
    total (e :: es) = e.len + total es := by
  simp [total]

theorem length_bytes (es : List (Extent w)) :
    (bytes es).length = total es := by
  induction es with
  | nil => rfl
  | cons e es ih => simp [ih]

end Extent

end BxRnic
