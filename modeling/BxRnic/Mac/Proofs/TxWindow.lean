/-
A transmit ring seen from a position of its stream.

Positions count descriptors without wrapping; `cur` and `dirty` are
positions cut to 32 bits, and position `k` is at entry `k % 4096`. From a
position `c` on, the 4096 next positions are the 4096 entries, each once:
`ring.descs c j` is the descriptor `j` behind `c`, `ring.datas c j` the
entry. A rewrite at a position changes the view at that position only.
-/
import BxRnic.Lib.Counter
import BxRnic.Mac.TxRing

namespace BxRnic.Mac

variable {ring : TxRing} {c j : Nat}

-- ============================================================ positions

/-- The ring has its 4096 entries. -/
def TxRing.Sized (ring : TxRing) : Prop := ring.dmaDescCount = txDescCnt

theorem tx_entry_ofNat (h : ring.Sized) (k : Nat) :
    ring.entry (BitVec.ofNat 32 k) = k % 4096 := by
  have hmask : ring.dmaDescCount - 1 = BitVec.ofNat 32 (2 ^ 12 - 1) := by
    rw [h]
    rfl
  have hand : (BitVec.ofNat 32 k).toNat &&& (2 ^ 12 - 1) = k % 2 ^ 12 :=
    Counter.and_mask (by decide)
  rw [TxRing.entry, hmask, BitVec.toNat_and]
  exact hand

/-- The descriptors from position `c` on. -/
def TxRing.descs (ring : TxRing) (c : Nat) : Nat → DmaDesc :=
  fun j => ring.dmaDescs ((c + j) % 4096)

/-- The entries from position `c` on. -/
def TxRing.datas (ring : TxRing) (c : Nat) : Nat → TxDescData :=
  fun j => ring.descDataHead ((c + j) % 4096)

theorem window_inj {j' : Nat} (hj : j < 4096) (hj' : j' < 4096)
    (h : (c + j) % 4096 = (c + j') % 4096) : j = j' := by
  have heq := Counter.mod_inj (Nat.le_add_right c j)
    (Nat.add_lt_add_left hj c) (Nat.le_add_right c j')
    (Nat.add_lt_add_left hj' c) h
  omega

-- ============================================================= rewrites

section Rewrites

variable {a : Nat} (f : DmaDesc → DmaDesc) (g : TxDescData → TxDescData)

theorem descs_updDesc (h : ring.Sized) (ha : a < 4096) (hj : j < 4096) :
    (ring.updDesc (BitVec.ofNat 32 (c + a)) f).descs c j
      = if j = a then f (ring.descs c a) else ring.descs c j := by
  show Function.update ring.dmaDescs
      (ring.entry (BitVec.ofNat 32 (c + a))) _ _ = _
  rw [tx_entry_ofNat h]
  by_cases hja : j = a
  · rw [hja, if_pos rfl, Function.update_self]
    rfl
  · rw [if_neg hja, Function.update_of_ne]
    · rfl
    · exact fun heq => hja (window_inj hj ha heq)

theorem datas_updData (h : ring.Sized) (ha : a < 4096) (hj : j < 4096) :
    (ring.updData (BitVec.ofNat 32 (c + a)) g).datas c j
      = if j = a then g (ring.datas c a) else ring.datas c j := by
  show Function.update ring.descDataHead
      (ring.entry (BitVec.ofNat 32 (c + a))) _ _ = _
  rw [tx_entry_ofNat h]
  by_cases hja : j = a
  · rw [hja, if_pos rfl, Function.update_self]
    rfl
  · rw [if_neg hja, Function.update_of_ne]
    · rfl
    · exact fun heq => hja (window_inj hj ha heq)

/-- A ring without its descriptors. -/
def TxRing.besideDescs (ring : TxRing) : TxRing :=
  { ring with dmaDescs := fun _ => .zero, writes := [] }

/-- A ring without its entries. -/
def TxRing.besideDatas (ring : TxRing) : TxRing :=
  { ring with descDataHead := fun _ => .zero }

@[simp] theorem besideDescs_updDesc (idx : U32) :
    (ring.updDesc idx f).besideDescs = ring.besideDescs := rfl

@[simp] theorem besideDatas_updData (idx : U32) :
    (ring.updData idx g).besideDatas = ring.besideDatas := rfl

end Rewrites

/-- The writes of a run of rewrites all meet `P`. -/
def TxRing.WroteOnly (P : Nat × DmaDesc → Prop) (ring ring' : TxRing) :
    Prop :=
  ∃ new, ring'.writes = ring.writes ++ new ∧ ∀ w ∈ new, P w

section WroteOnly

variable {P : Nat × DmaDesc → Prop} {ring' ring'' : TxRing}

theorem TxRing.WroteOnly.refl : ring.WroteOnly P ring :=
  ⟨[], (List.append_nil _).symm, fun _ hw => absurd hw (by simp)⟩

theorem TxRing.WroteOnly.trans (h : ring.WroteOnly P ring')
    (h' : ring'.WroteOnly P ring'') : ring.WroteOnly P ring'' := by
  obtain ⟨new, heq, hnew⟩ := h
  obtain ⟨new', heq', hnew'⟩ := h'
  refine ⟨new ++ new', by rw [heq', heq, List.append_assoc], ?_⟩
  intro w hw
  rcases List.mem_append.1 hw with hw | hw
  · exact hnew w hw
  · exact hnew' w hw

end WroteOnly

-- ============================================================= the loop

section Loop

/-- The descriptors behind the first, from position `c + a + 1` on. -/
theorem xmitFrom_spec (left : Nat) {a : Nat} (h : ring.Sized)
    (hroom : a + left < 4096) :
    (ring.xmitFrom left (BitVec.ofNat 32 (c + a))).1
        = BitVec.ofNat 32 (c + (a + left))
      ∧ (ring.xmitFrom left (BitVec.ofNat 32 (c + a))).2.besideDescs
        = ring.besideDescs
      ∧ ∀ j, j < 4096 →
        (ring.xmitFrom left (BitVec.ofNat 32 (c + a))).2.descs c j
          = if a < j ∧ j ≤ a + left then
              ring.pktInfo.nextDesc (ring.datas c j) (ring.descs c j)
            else ring.descs c j := by
  induction left generalizing ring a with
  | zero =>
    refine ⟨rfl, rfl, fun j _ => ?_⟩
    rw [if_neg (by omega)]
    rfl
  | succ left ih =>
    have hnext : BitVec.ofNat 32 (c + a) + 1
        = BitVec.ofNat 32 (c + (a + 1)) := Counter.add_one
    have hunfold : ring.xmitFrom (left + 1) (BitVec.ofNat 32 (c + a))
        = (ring.updDesc (BitVec.ofNat 32 (c + (a + 1)))
            (ring.pktInfo.nextDesc (ring.datas c (a + 1)))).xmitFrom left
            (BitVec.ofNat 32 (c + (a + 1))) := by
      rw [TxRing.xmitFrom, hnext, tx_entry_ofNat h]
      rfl
    have hsized : (ring.updDesc (BitVec.ofNat 32 (c + (a + 1)))
        (ring.pktInfo.nextDesc (ring.datas c (a + 1)))).Sized := h
    obtain ⟨hidx, hrest, hdescs⟩ := ih (a := a + 1) hsized (by omega)
    rw [hunfold]
    refine ⟨?_, ?_, fun j hj => ?_⟩
    · rw [hidx, Nat.add_right_comm a 1 left]
      rfl
    · rw [hrest, besideDescs_updDesc]
    · rw [hdescs j hj, descs_updDesc _ h (by omega) hj]
      by_cases hja : j = a + 1
      · rw [if_neg (by omega), if_pos hja, if_pos (by omega), hja]
      · rw [if_neg hja]
        by_cases hin : a + 1 < j ∧ j ≤ a + 1 + left
        · rw [if_pos hin, if_pos (by omega)]
          rfl
        · rw [if_neg hin, if_neg (by omega)]

end Loop

end BxRnic.Mac
