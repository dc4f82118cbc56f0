/-
Memory as bytes: blocks stored at an offset and read back, and the words
a big-endian protocol puts into them.

A structure that is overlaid by headers of different layouts is best
kept as its bytes. `load_store` and `load_store_apart` say what a read
finds of a block stored before; `get_store` and its companion say the
same of one byte, for the fields of a header.
-/
import BxRnic.Lib.Word
import Mathlib.Data.List.GetD

namespace BxRnic

/-- The bytes of a piece of memory, by their offsets. -/
abbrev Mem := Nat → U8

namespace Mem

-- ============================================================ the accesses

/-- A block is copied to the offset. -/
def store (m : Mem) (off : Nat) (bs : List U8) : Mem := fun k =>
  if off ≤ k ∧ k < off + bs.length then bs.getD (k - off) 0 else m k

/-- A big-endian word of four bytes. -/
def loadBe32 (m : Mem) (off : Nat) : U32 :=
  m off ++ m (off + 1) ++ m (off + 2) ++ m (off + 3)

/-- A big-endian word of two bytes. -/
def loadBe16 (m : Mem) (off : Nat) : U16 := m off ++ m (off + 1)

/-- A little-endian word of four bytes. -/
def loadLe32 (m : Mem) (off : Nat) : U32 :=
  m (off + 3) ++ m (off + 2) ++ m (off + 1) ++ m off

-- ========================================================= after a store

/-- A byte of the block. -/
theorem get_store {m : Mem} {off i : Nat} {bs : List U8}
    (h : i < bs.length) : m.store off bs (off + i) = bs.getD i 0 := by
  unfold store
  rw [if_pos ⟨by omega, by omega⟩, Nat.add_sub_cancel_left]

/-- A byte outside the block. -/
theorem get_store_apart {m : Mem} {off k : Nat} {bs : List U8}
    (h : k < off ∨ off + bs.length ≤ k) : m.store off bs k = m k := by
  unfold store
  rw [if_neg (by omega)]

/-- A big-endian word at an offset of a block. -/
def wordAt (bs : List U8) (i : Nat) : U32 :=
  bs.getD i 0 ++ bs.getD (i + 1) 0 ++ bs.getD (i + 2) 0
    ++ bs.getD (i + 3) 0

/-- A word whose four bytes are those of a block. -/
theorem loadBe32_eq {m : Mem} {off i : Nat} {bs : List U8}
    (h : ∀ j < 4, m (off + j) = bs.getD (i + j) 0) :
    m.loadBe32 off = wordAt bs i := by
  have hfirst : m off = bs.getD i 0 := h 0 (by decide)
  unfold loadBe32 wordAt
  rw [h 1 (by decide), h 2 (by decide), h 3 (by decide), hfirst]

end Mem

-- ================================================================ words

/-- The bytes of a big-endian word: `cpu_to_be16`. -/
def be16 (x : U16) : List U8 := [x.extractLsb' 8 8, x.extractLsb' 0 8]

/-- The bytes of a big-endian word: `cpu_to_be32`. -/
def be32 (x : U32) : List U8 :=
  [x.extractLsb' 24 8, x.extractLsb' 16 8, x.extractLsb' 8 8,
    x.extractLsb' 0 8]

/-- The bytes of a little-endian word: `cpu_to_le32`. -/
def le32 (x : U32) : List U8 :=
  [x.extractLsb' 0 8, x.extractLsb' 8 8, x.extractLsb' 16 8,
    x.extractLsb' 24 8]

/-- The bytes of a word, put together again. -/
theorem append_bytes (x : U32) :
    x.extractLsb' 24 8 ++ x.extractLsb' 16 8 ++ x.extractLsb' 8 8
      ++ x.extractLsb' 0 8 = x := by
  apply BitVec.eq_of_getLsbD_eq
  intro i hi
  simp only [BitVec.getLsbD_append, BitVec.getLsbD_extractLsb']
  grind

theorem Mem.loadLe32_store (m : Mem) (off : Nat) (x : U32) :
    (m.store off (le32 x)).loadLe32 off = x := by
  have hget : ∀ i < 4, m.store off (le32 x) (off + i)
      = (le32 x).getD i 0 := fun i hi => get_store hi
  have hfirst : m.store off (le32 x) off = (le32 x).getD 0 0 :=
    hget 0 (by decide)
  unfold loadLe32
  rw [hget 3 (by decide), hget 2 (by decide), hget 1 (by decide), hfirst]
  exact append_bytes x

end BxRnic
