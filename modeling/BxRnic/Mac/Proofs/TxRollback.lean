/-
What a packet that cannot be mapped leaves behind.

The mappings made before one fails are those of the first pieces of the
packet (`newMaps`), each in the entry of its piece (`mapAll_spec`). The
rollback unmaps entry after entry (`unmapFrom_spec`), from `start_index`
as long as that is less than `cur_index`. What the entries hold and what
was unmapped stay the same together (`unmapFrom_held`), also where the
rollback comes round the ring.
-/
import BxRnic.Lib.Held
import BxRnic.Mac.Proofs.TxLayout
import BxRnic.Mac.Proofs.TxWindow

namespace BxRnic.Mac

open Held

-- ========================================================= the way forward

section Forward

variable {dma : Nat → Option U64} {skb : Skb} {c : Nat}

/-- The mappings made of a list of pieces, from answer `calls` on. -/
def newMaps (dma : Nat → Option U64) (skb : Skb) :
    (calls : Nat) → List Piece → List TxMapping
  | _, [] => []
  | calls, piece :: rest =>
      match dma calls with
      | none => []
      | some addr => ⟨skb.id, piece, addr⟩ :: newMaps dma skb (calls + 1) rest

/-- An entry that holds a mapping. -/
def TxDescData.holding (d : TxDescData) (n : Nat) (m : TxMapping) :
    TxDescData :=
  { d with
    skbDma := m.dma
    skbDmaLen := m.piece.len
    mappedAsPage := match m.piece.src with
      | .linear => d.mappedAsPage
      | .frag _ => true
    mapping := some n }

/-- Entry `j` after mappings from entry `a` on, the first of number
`n`. -/
def TxDescData.after (d : TxDescData) (a n : Nat) (maps : List TxMapping)
    (j : Nat) : TxDescData :=
  if a ≤ j then
    match maps[j - a]? with
    | some m => d.holding (n + (j - a)) m
    | none => d
  else d

theorem after_nil (d : TxDescData) (a n j : Nat) :
    d.after a n [] j = d := by
  unfold TxDescData.after
  split
  · rfl
  · rfl

/-- Behind the mappings. -/
theorem after_behind (d : TxDescData) (n : Nat) {a j : Nat}
    {maps : List TxMapping} (h : a + maps.length ≤ j) :
    d.after a n maps j = d := by
  rw [TxDescData.after, if_pos (by omega),
    List.getElem?_eq_none (by omega)]

/-- In front of the mappings. -/
theorem after_before (d : TxDescData) (n : Nat) {a j : Nat}
    (maps : List TxMapping) (h : j < a) : d.after a n maps j = d := by
  rw [TxDescData.after, if_neg (by omega)]

/-- At the mappings. -/
theorem after_at (d : TxDescData) (a n : Nat) {i : Nat}
    {maps : List TxMapping} (h : i < maps.length) :
    d.after a n maps (a + i) = d.holding (n + i) maps[i] := by
  rw [TxDescData.after, if_pos (by omega), Nat.add_sub_cancel_left,
    List.getElem?_eq_getElem h]

theorem after_cons (d : TxDescData) (a n : Nat) (m : TxMapping)
    (maps : List TxMapping) (j : Nat) :
    (if j = a then d.holding n m else d).after (a + 1) (n + 1) maps j
      = d.after a n (m :: maps) j := by
  unfold TxDescData.after
  rcases Nat.lt_trichotomy j a with hlt | rfl | hgt
  · rw [if_neg (by omega), if_neg (by omega), if_neg (by omega)]
  · rw [if_neg (by omega), if_pos rfl, if_pos (Nat.le_refl j),
      Nat.sub_self]
    rfl
  · obtain ⟨i, rfl⟩ : ∃ i, j = a + 1 + i := ⟨j - (a + 1), by omega⟩
    have hsub : a + 1 + i - a = i + 1 := by omega
    have hsum : n + 1 + i = n + (i + 1) := by omega
    have hne : a + 1 + i ≠ a := by omega
    have hle : a ≤ a + 1 + i := by omega
    rw [if_neg hne, if_pos (Nat.le_add_right _ _), if_pos hle,
      Nat.add_sub_cancel_left, hsub, List.getElem?_cons_succ, hsum]

/-- The walk over the pieces changes the entries only. -/
theorem mapAll_kept (dma : Nat → Option U64) (skb : Skb)
    (ps : List Piece) (st : MapState) :
    (st.mapAll dma skb ps).1.ring.besideDatas = st.ring.besideDatas := by
  induction ps generalizing st with
  | nil => rfl
  | cons piece ps ih =>
    rw [MapState.mapAll, MapState.mapPiece]
    cases dma st.calls with
    | none => rfl
    | some addr => exact ih _

/-- How far it gets. -/
theorem mapAll_made (dma : Nat → Option U64) (skb : Skb) (ps : List Piece)
    (st : MapState) (a : Nat)
    (hcur : st.curIndex = BitVec.ofNat 32 (c + a)) :
    (st.mapAll dma skb ps).1.maps
        = st.maps ++ newMaps dma skb st.calls ps
      ∧ (st.mapAll dma skb ps).1.curIndex
        = BitVec.ofNat 32
          (c + (a + (newMaps dma skb st.calls ps).length)) := by
  induction ps generalizing st a with
  | nil => exact ⟨(List.append_nil _).symm, hcur⟩
  | cons piece ps ih =>
    rw [MapState.mapAll, MapState.mapPiece, newMaps]
    cases hdma : dma st.calls with
    | none => exact ⟨(List.append_nil _).symm, hcur⟩
    | some addr =>
      dsimp only
      obtain ⟨hmaps, hidx⟩ :=
        ih ⟨st.ring.updData st.curIndex fun d =>
            d.holding st.maps.length ⟨skb.id, piece, addr⟩,
            st.curIndex + 1, st.length + piece.len, st.calls + 1,
            st.maps ++ [⟨skb.id, piece, addr⟩]⟩ (a + 1)
          (by rw [hcur]; exact Counter.add_one)
      constructor
      · refine hmaps.trans ?_
        rw [List.append_assoc]
        rfl
      · refine hidx.trans ?_
        rw [List.length_cons, Nat.add_right_comm a 1, Nat.add_assoc]

/-- What it leaves in the entries, if it does not come round. -/
theorem mapAll_spec (dma : Nat → Option U64) (skb : Skb) (ps : List Piece)
    (st : MapState) (a : Nat)
    (hsized : st.ring.Sized) (hcur : st.curIndex = BitVec.ofNat 32 (c + a))
    (hroom : a + (newMaps dma skb st.calls ps).length ≤ 4096) {j : Nat}
    (hj : j < 4096) :
    (st.mapAll dma skb ps).1.ring.datas c j
      = (st.ring.datas c j).after a st.maps.length
        (newMaps dma skb st.calls ps) j := by
  induction ps generalizing st a with
  | nil => exact (after_nil _ _ _ _).symm
  | cons piece ps ih =>
    rw [newMaps] at hroom
    rw [MapState.mapAll, MapState.mapPiece, newMaps]
    cases hdma : dma st.calls with
    | none => exact (after_nil _ _ _ _).symm
    | some addr =>
      rw [hdma] at hroom
      dsimp only at hroom ⊢
      rw [List.length_cons] at hroom
      have hrest := ih ⟨st.ring.updData st.curIndex fun d =>
          d.holding st.maps.length ⟨skb.id, piece, addr⟩,
          st.curIndex + 1, st.length + piece.len, st.calls + 1,
          st.maps ++ [⟨skb.id, piece, addr⟩]⟩ (a + 1)
        hsized (by rw [hcur]; exact Counter.add_one)
        (by dsimp only; omega)
      refine hrest.trans ?_
      rw [← after_cons, List.length_append, List.length_singleton,
        hcur, datas_updData _ hsized (by omega) hj]
      by_cases hja : j = a
      · rw [if_pos hja, if_pos hja, hja]
      · rw [if_neg hja, if_neg hja]

/-- A mapping is the kernel's answer for its piece. -/
theorem newMaps_get {calls i : Nat} {ps : List Piece} {m : TxMapping}
    (h : (newMaps dma skb calls ps)[i]? = some m) :
    ps[i]? = some m.piece ∧ dma (calls + i) = some m.dma := by
  induction ps generalizing calls i with
  | nil => cases h
  | cons piece ps ih =>
    rw [newMaps] at h
    cases hdma : dma calls with
    | none =>
      rw [hdma] at h
      cases h
    | some addr =>
      rw [hdma] at h
      cases i with
      | zero =>
        cases h
        exact ⟨rfl, hdma⟩
      | succ i =>
        obtain ⟨hpiece, hanswer⟩ := ih h
        rw [Nat.add_assoc, Nat.add_comm 1 i] at hanswer
        exact ⟨hpiece, hanswer⟩

theorem length_newMaps_le (dma : Nat → Option U64) (skb : Skb)
    (calls : Nat) (ps : List Piece) :
    (newMaps dma skb calls ps).length ≤ ps.length := by
  induction ps generalizing calls with
  | nil => exact Nat.le_refl 0
  | cons piece ps ih =>
    rw [newMaps]
    cases dma calls with
    | none => exact Nat.zero_le _
    | some addr => exact Nat.succ_le_succ (ih (calls + 1))

/-- Where the kernel stops mapping. -/
theorem newMaps_length {k calls : Nat} {ps : List Piece}
    (hk : k < ps.length) (hok : ∀ i, i < k → (dma (calls + i)).isSome)
    (hfail : dma (calls + k) = none) :
    (newMaps dma skb calls ps).length = k := by
  induction k generalizing calls ps with
  | zero =>
    cases ps with
    | nil => rfl
    | cons piece ps =>
      rw [newMaps, show dma calls = none from hfail]
      rfl
  | succ k ih =>
    cases ps with
    | nil => exact absurd hk (Nat.not_lt_zero _)
    | cons piece ps =>
      obtain ⟨addr, haddr⟩ :=
        Option.isSome_iff_exists.1 (hok 0 (Nat.succ_pos k))
      rw [newMaps, show dma calls = some addr from haddr]
      refine congrArg (· + 1) (ih (Nat.lt_of_succ_lt_succ hk) ?_ ?_)
      · intro i hi
        rw [Nat.add_assoc, Nat.add_comm 1 i]
        exact hok (i + 1) (Nat.succ_lt_succ hi)
      · rw [Nat.add_assoc, Nat.add_comm 1 k]
        exact hfail

theorem mapAll_fails {k : Nat} {ps : List Piece} {st : MapState}
    (hk : k < ps.length) (hfail : dma (st.calls + k) = none) :
    (st.mapAll dma skb ps).2 = false := by
  induction ps generalizing st k with
  | nil => exact absurd hk (Nat.not_lt_zero _)
  | cons piece ps ih =>
    rw [MapState.mapAll, MapState.mapPiece]
    cases hdma : dma st.calls with
    | none => rfl
    | some addr =>
      cases k with
      | zero =>
        rw [Nat.add_zero, hdma] at hfail
        cases hfail
      | succ k =>
        refine ih (Nat.lt_of_succ_lt_succ hk) ?_
        dsimp only
        rw [Nat.add_assoc, Nat.add_comm 1 k]
        exact hfail

/-- The addresses of the mappings are the kernel's answers. -/
theorem newMaps_nonzero_iff {k calls : Nat} {ps : List Piece}
    (hlen : (newMaps dma skb calls ps).length = k) :
    (∀ m ∈ newMaps dma skb calls ps, m.dma ≠ 0)
      ↔ ∀ i, i < k → dma (calls + i) ≠ some 0 := by
  constructor
  · intro hall i hi hzero
    have hget := List.getElem?_eq_getElem (hlen ▸ hi)
    have hanswer := (newMaps_get hget).2
    rw [hzero] at hanswer
    exact hall _ (List.getElem_mem _) (Option.some.inj hanswer).symm
  · intro hall m hm hzero
    obtain ⟨i, hi, rfl⟩ := List.mem_iff_getElem.1 hm
    have hanswer := (newMaps_get (List.getElem?_eq_getElem hi)).2
    rw [hzero] at hanswer
    exact hall i (hlen ▸ hi) hanswer

end Forward

-- ========================================================= the way back

section Back

variable {logs : TxLogs} {ring : TxRing} {c : Nat}

/-- The call that undoes an entry, if it has an address. -/
def TxDescData.unmapCalls (d : TxDescData) : List TxUnmap :=
  if d.skbDma ≠ 0 then
    [⟨d.mapping, d.mappedAsPage, d.skbDma, d.skbDmaLen⟩]
  else []

/-- An entry that was unmapped. -/
def TxDescData.cleared (d : TxDescData) : TxDescData :=
  { TxDescData.zero with
    skbDmaLen := if d.skbDma ≠ 0 then 0 else d.skbDmaLen
    mapping := if d.skbDma ≠ 0 then none else d.mapping }

theorem unmapTxDesc_eq (d : TxDescData) :
    logs.unmapDescData d
      = ({ logs with
            unmaps := logs.unmaps ++ d.unmapCalls
            freed := logs.freed ++ d.skb.toList }, d.cleared) := by
  unfold TxLogs.unmapDescData TxDescData.unmapCalls TxDescData.cleared
  by_cases h : d.skbDma ≠ 0
  · simp only [if_pos h]
  · simp only [if_neg h, List.append_nil]

/-- Logs after these entries were unmapped. -/
def TxLogs.unmapAll (logs : TxLogs) (ds : List TxDescData) : TxLogs :=
  { logs with
    unmaps := logs.unmaps ++ ds.flatMap (·.unmapCalls)
    freed := logs.freed ++ ds.flatMap (·.skb.toList) }

theorem unmapAll_nil (logs : TxLogs) : logs.unmapAll [] = logs := by
  unfold TxLogs.unmapAll
  rw [List.flatMap_nil, List.append_nil, List.flatMap_nil,
    List.append_nil]

/-- Logs without what a mapping changes. -/
def TxLogs.besideMap (logs : TxLogs) : TxLogs :=
  { logs with maps := [], unmaps := [], freed := [] }

theorem unmapFrom_kept (left : Nat) (idx : U32) (logs : TxLogs)
    (ring : TxRing) :
    (unmapFrom left idx logs ring).2.besideDatas = ring.besideDatas
      ∧ (unmapFrom left idx logs ring).1.besideMap = logs.besideMap := by
  induction left generalizing idx logs ring with
  | zero => exact ⟨rfl, rfl⟩
  | succ left ih =>
    rw [unmapFrom, unmapTxDesc_eq]
    exact ih _ _ _

/-- `while (start_index < cur_index)`, over `left` entries. -/
theorem unmapFrom_spec (left a : Nat) (logs : TxLogs) {ring : TxRing}
    (hsized : ring.Sized)
    (hroom : a + left ≤ 4096) :
    (unmapFrom left (BitVec.ofNat 32 (c + a)) logs ring).1
        = logs.unmapAll ((List.range' a left).map (ring.datas c))
      ∧ ∀ j, j < 4096 →
        (unmapFrom left (BitVec.ofNat 32 (c + a)) logs ring).2.datas c j
          = if a ≤ j ∧ j < a + left then (ring.datas c j).cleared
            else ring.datas c j := by
  induction left generalizing logs ring a with
  | zero =>
    refine ⟨(unmapAll_nil logs).symm, fun j _ => ?_⟩
    rw [if_neg (by omega)]
    rfl
  | succ left ih =>
    rw [unmapFrom, tx_entry_ofNat hsized, unmapTxDesc_eq,
      Counter.add_one]
    dsimp only
    obtain ⟨hlogs, hdatas⟩ :=
      ih (a + 1)
        { logs with
          unmaps := logs.unmaps ++ (ring.datas c a).unmapCalls
          freed := logs.freed ++ (ring.datas c a).skb.toList }
        (show (ring.updData (BitVec.ofNat 32 (c + a))
          fun _ => (ring.datas c a).cleared).Sized from hsized)
        (by omega)
    have hview : ∀ j, j < 4096 →
        (ring.updData (BitVec.ofNat 32 (c + a))
          fun _ => (ring.datas c a).cleared).datas c j
          = if j = a then (ring.datas c a).cleared
            else ring.datas c j := fun j hj =>
      datas_updData _ hsized (by omega) hj
    refine ⟨?_, fun j hj => ?_⟩
    · have hrest : (List.range' (a + 1) left).map
          ((ring.updData (BitVec.ofNat 32 (c + a))
            fun _ => (ring.datas c a).cleared).datas c)
          = (List.range' (a + 1) left).map (ring.datas c) := by
        refine List.map_congr_left fun j hj => ?_
        have hbound := List.mem_range'_1.1 hj
        rw [hview j (by omega), if_neg (by omega)]
      refine hlogs.trans ?_
      rw [hrest, List.range'_succ, List.map_cons]
      unfold TxLogs.unmapAll
      rw [List.flatMap_cons, List.flatMap_cons, List.append_assoc,
        List.append_assoc]
    · refine (hdatas j hj).trans ?_
      rw [hview j hj]
      by_cases hja : j = a
      · rw [if_neg (by omega), if_pos hja, if_pos (by omega), hja]
      · rw [if_neg hja]
        by_cases hin : a + 1 ≤ j ∧ j < a + 1 + left
        · rw [if_pos hin, if_pos (by omega)]
        · rw [if_neg hin, if_neg (by omega)]

theorem unmapCalls_cleared (d : TxDescData) : d.cleared.unmapCalls = [] :=
  if_neg fun h => h rfl

/-- The calls that are still to be made for the entries of a ring. -/
def TxRing.heldCalls (ring : TxRing) : List TxUnmap :=
  held ring.dmaDescCount.toNat fun i => (ring.descDataHead i).unmapCalls

/-- What a ring holds, read from any position on. -/
theorem held_datas {α : Type} (h : ring.Sized) (f : TxDescData → List α)
    (c : Nat) :
    (held ring.dmaDescCount.toNat fun i => f (ring.descDataHead i)).Perm
      (held 4096 fun j => f (ring.datas c j)) := by
  rw [h]
  exact (held_window (fun i => f (ring.descDataHead i)) 4096 c).symm

/-- An entry is one of the ring's. -/
theorem tx_entry_lt (h : ring.Sized) (idx : U32) :
    ring.entry idx < ring.dmaDescCount.toNat := by
  have hentry := tx_entry_ofNat h idx.toNat
  rw [BitVec.ofNat_toNat, BitVec.setWidth_eq] at hentry
  rw [hentry, h]
  exact Nat.mod_lt _ (by decide)

/-- What is unmapped and what is still held is what was held. -/
theorem unmapFrom_held (left : Nat) (idx : U32) (logs : TxLogs)
    {ring : TxRing} (hsized : ring.Sized) :
    ∃ unmaps, (unmapFrom left idx logs ring).1.unmaps
        = logs.unmaps ++ unmaps
      ∧ (unmaps ++ (unmapFrom left idx logs ring).2.heldCalls).Perm
        ring.heldCalls := by
  induction left generalizing idx logs ring with
  | zero => exact ⟨[], (List.append_nil _).symm, List.Perm.refl _⟩
  | succ left ih =>
    rw [unmapFrom, unmapTxDesc_eq]
    dsimp only
    let i := ring.entry idx
    let d := ring.descDataHead i
    let ring' := ring.updData idx fun _ => d.cleared
    obtain ⟨unmaps, hlogs, hheld⟩ := ih (idx + 1)
      { logs with
        unmaps := logs.unmaps ++ d.unmapCalls
        freed := logs.freed ++ d.skb.toList }
      (show ring'.Sized from hsized)
    have hupdate : (fun k => (ring'.descDataHead k).unmapCalls)
        = Function.update (fun k => (ring.descDataHead k).unmapCalls) i
          [] := by
      funext k
      show (Function.update ring.descDataHead i d.cleared k).unmapCalls = _
      by_cases hk : k = i
      · rw [hk, Function.update_self, Function.update_self,
          unmapCalls_cleared]
      · rw [Function.update_of_ne hk, Function.update_of_ne hk]
    have hone : (d.unmapCalls ++ ring'.heldCalls).Perm ring.heldCalls := by
      show (d.unmapCalls ++ held ring.dmaDescCount.toNat
        fun k => (ring'.descDataHead k).unmapCalls).Perm _
      rw [hupdate]
      exact held_update (tx_entry_lt hsized idx)
        (fun k => (ring.descDataHead k).unmapCalls) []
    refine ⟨d.unmapCalls ++ unmaps, ?_, ?_⟩
    · exact hlogs.trans (List.append_assoc _ _ _)
    · rw [List.append_assoc]
      exact (hheld.append_left _).trans hone

/-- An entry that is free. -/
structure TxDescData.Clean (d : TxDescData) : Prop where
  skb : d.skb = none
  skbDma : d.skbDma = 0
  mappedAsPage : d.mappedAsPage = false

theorem clean_cleared (d : TxDescData) : d.cleared.Clean :=
  ⟨rfl, rfl, rfl⟩

/-- The entries the loop goes over are free. -/
theorem unmapFrom_clean (left a : Nat) (logs : TxLogs) {ring : TxRing}
    (hsized : ring.Sized) {p : Nat}
    (hp : (ring.descDataHead p).Clean ∨ ∃ i < left, p = (a + i) % 4096) :
    ((unmapFrom left (BitVec.ofNat 32 a) logs ring).2.descDataHead
      p).Clean := by
  induction left generalizing a logs ring with
  | zero =>
    obtain hclean | ⟨i, hi, -⟩ := hp
    · exact hclean
    · exact absurd hi (Nat.not_lt_zero i)
  | succ left ih =>
    rw [unmapFrom, unmapTxDesc_eq, Counter.add_one]
    dsimp only
    let ring' := ring.updData (BitVec.ofNat 32 a) fun _ =>
      (ring.descDataHead (ring.entry (BitVec.ofNat 32 a))).cleared
    have hsized' : ring'.Sized := hsized
    apply ih (a + 1) _ hsized'
    · show (Function.update ring.descDataHead
        (ring.entry (BitVec.ofNat 32 a)) _ p).Clean ∨ _
      rw [tx_entry_ofNat hsized]
      by_cases hhere : p = a % 4096
      · rw [hhere, Function.update_self]
        exact Or.inl (clean_cleared _)
      · rw [Function.update_of_ne hhere]
        obtain hclean | ⟨i, hi, heq⟩ := hp
        · exact Or.inl hclean
        · cases i with
          | zero => exact absurd heq hhere
          | succ i =>
            refine Or.inr ⟨i, Nat.lt_of_succ_lt_succ hi, ?_⟩
            rw [heq, Nat.add_right_comm, Nat.add_assoc]

end Back

-- ============================================================ a failure

section Failure

variable {dma : Nat → Option U64} {skb : Skb} {logs : TxLogs}
  {ring : TxRing}

/-- The calls that undo mappings, the first of number `n`: each with the
length and the kind it was made with. -/
def undoing : (n : Nat) → List TxMapping → List TxUnmap
  | _, [] => []
  | n, m :: maps =>
      ⟨some n, m.piece.src ≠ .linear, m.dma, m.piece.len⟩
        :: undoing (n + 1) maps

theorem length_undoing (n : Nat) (maps : List TxMapping) :
    (undoing n maps).length = maps.length := by
  induction maps generalizing n with
  | nil => rfl
  | cons m maps ih => exact congrArg (· + 1) (ih (n + 1))

theorem undoing_nonzero_iff (n : Nat) (maps : List TxMapping) :
    (∀ u ∈ undoing n maps, u.dma ≠ 0) ↔ ∀ m ∈ maps, m.dma ≠ 0 := by
  induction maps generalizing n with
  | nil => exact ⟨fun _ m hm => absurd hm (by simp),
      fun _ u hu => absurd hu (by simp [undoing])⟩
  | cons m maps ih =>
    rw [undoing, List.forall_mem_cons, List.forall_mem_cons, ih]

/-- The kind that the call for an entry has is that of the piece. -/
theorem kind_iff {src : Source} {flag : Bool} :
    (decide (src ≠ .linear) || flag) = decide (src ≠ .linear)
      ↔ (src = .linear → flag = false) := by
  by_cases hsrc : src = .linear
  · simp [hsrc]
  · simp [hsrc]

/-- The call for an entry with a mapping, whatever was there before. -/
theorem unmapCalls_holding (d : TxDescData) (n : Nat) (m : TxMapping) :
    (d.holding n m).unmapCalls
      = if m.dma ≠ 0 then
          [⟨some n, m.piece.src ≠ .linear || d.mappedAsPage, m.dma,
            m.piece.len⟩]
        else [] := by
  have hkind : (d.holding n m).mappedAsPage
      = (decide (m.piece.src ≠ .linear) || d.mappedAsPage) := by
    unfold TxDescData.holding
    cases hsrc : m.piece.src with
    | linear => simp
    | frag i => simp
  rw [TxDescData.unmapCalls, hkind]
  rfl

/-- The calls for entries with these mappings, the first of number `n` in
entry `a`: an entry that is flagged stays so. -/
def unmapping (datas : Nat → TxDescData) :
    (a n : Nat) → List TxMapping → List TxUnmap
  | _, _, [] => []
  | a, n, m :: maps =>
      ⟨some n, m.piece.src ≠ .linear || (datas a).mappedAsPage, m.dma,
          m.piece.len⟩
        :: unmapping datas (a + 1) (n + 1) maps

theorem length_unmapping (datas : Nat → TxDescData) (a n : Nat)
    (maps : List TxMapping) :
    (unmapping datas a n maps).length = maps.length := by
  induction maps generalizing a n with
  | nil => rfl
  | cons m maps ih => exact congrArg (· + 1) (ih (a + 1) (n + 1))

/-- They are the right calls where no entry of a linear piece is
flagged. -/
theorem unmapping_eq_iff {datas : Nat → TxDescData} {a n : Nat}
    {maps : List TxMapping} :
    unmapping datas a n maps = undoing n maps
      ↔ ∀ i m, maps[i]? = some m → m.piece.src = .linear →
        (datas (a + i)).mappedAsPage = false := by
  induction maps generalizing a n with
  | nil => exact ⟨fun _ i m h => absurd h (by simp), fun _ => rfl⟩
  | cons m maps ih =>
    rw [unmapping, undoing, List.cons.injEq, ih, TxUnmap.mk.injEq]
    simp only [true_and, and_true]
    rw [kind_iff]
    constructor
    · rintro ⟨hhead, htail⟩ i m' hget
      cases i with
      | zero =>
        cases hget
        exact hhead
      | succ i =>
        rw [Nat.add_comm i 1, ← Nat.add_assoc]
        exact htail i m' hget
    · intro hall
      refine ⟨hall 0 m rfl, fun i m' hget => ?_⟩
      rw [Nat.add_assoc, Nat.add_comm 1 i]
      exact hall (i + 1) m' hget

/-- What the rollback undoes of mappings from entry `a` on. -/
theorem flatMap_unmapCalls (maps : List TxMapping) (a n : Nat)
    (datas : Nat → TxDescData) :
    ((List.range' a maps.length).flatMap
        fun j => ((datas j).after a n maps j).unmapCalls)
      = (unmapping datas a n maps).filter fun u => u.dma ≠ 0 := by
  induction maps generalizing a n with
  | nil => rfl
  | cons m maps ih =>
    have hfirst : (datas a).after a n (m :: maps) a
        = (datas a).holding n m := by
      unfold TxDescData.after
      rw [if_pos (Nat.le_refl a), Nat.sub_self]
      rfl
    have hrest : ((List.range' (a + 1) maps.length).flatMap
          fun j => ((datas j).after a n (m :: maps) j).unmapCalls)
        = (unmapping datas (a + 1) (n + 1) maps).filter
          fun u => u.dma ≠ 0 := by
      rw [← ih (a + 1) (n + 1)]
      refine List.flatMap_congr fun j hj => ?_
      have hbound := List.mem_range'_1.1 hj
      rw [← after_cons, if_neg (by omega)]
    rw [List.length_cons, List.range'_succ, List.flatMap_cons, hrest,
      hfirst, unmapCalls_holding, unmapping, List.filter_cons]
    by_cases hzero : m.dma ≠ 0
    · rw [if_pos hzero, if_pos (decide_eq_true hzero)]
      rfl
    · rw [if_neg hzero, if_neg (by simpa using hzero)]
      rfl

/-- How many entries the loop of `err_out` goes over. -/
theorem rollback_count {c used : Nat} (hc : c < 2 ^ 32)
    (hused : used < 2 ^ 32) :
    (if BitVec.ofNat 32 c < BitVec.ofNat 32 (c + used) then
        (BitVec.ofNat 32 (c + used) - BitVec.ofNat 32 c).toNat
      else 0)
      = if c + used < 2 ^ 32 then used else 0 := by
  have hlt : BitVec.ofNat 32 c < BitVec.ofNat 32 (c + used)
      ↔ c < (c + used) % 2 ^ 32 := by
    rw [BitVec.lt_def, BitVec.toNat_ofNat, BitVec.toNat_ofNat,
      Nat.mod_eq_of_lt hc]
  by_cases hwrap : c + used < 2 ^ 32
  · rw [if_pos hwrap]
    rw [Nat.mod_eq_of_lt hwrap] at hlt
    by_cases hzero : used = 0
    · rw [if_neg (fun hless => by have := hlt.1 hless; omega), hzero]
    · rw [if_pos (hlt.2 (by omega)),
        Counter.sub_toNat (by omega) (by omega)]
      omega
  · rw [if_neg hwrap, if_neg]
    intro hless
    have := hlt.1 hless
    omega

/-- How many entries a context descriptor takes. -/
def Skb.contextCount (skb : Skb) (ring : TxRing) : Nat :=
  if skb.needsContext ring.curMss ring.curVlanCtag then 1 else 0

theorem mapTxSkb_index :
    (if ({ ring with pktInfo := ring.prepared skb } : TxRing).needsContext
          (ring.prepared skb) then ring.cur + 1
      else ring.cur)
      = BitVec.ofNat 32 (ring.cur.toNat + skb.contextCount ring) := by
  rw [needsContext_prepared, Skb.contextCount]
  have hcur : ring.cur = BitVec.ofNat 32 ring.cur.toNat := by
    rw [BitVec.ofNat_toNat, BitVec.setWidth_eq]
  split
  · rw [← Counter.add_one, ← hcur]
  · rw [Nat.add_zero, ← hcur]

/-- The state the walk over the packet starts from. -/
def TxRing.mapStart (ring : TxRing) (skb : Skb) (logs : TxLogs) :
    MapState :=
  ⟨{ ring with pktInfo := ring.prepared skb },
    BitVec.ofNat 32 (ring.cur.toNat + skb.contextCount ring), 0, 0,
    logs.maps⟩

/-- A call that fails is a walk and a rollback. -/
theorem mapTxSkb_failed {st : MapState}
    (hwalk : (ring.mapStart skb logs).mapAll dma skb skb.layout
      = (st, false)) :
    ∃ pkt, TxRing.mapTxSkb dma skb logs
        { ring with pktInfo := ring.prepared skb }
      = ((unmapFrom
            (if ring.cur < st.curIndex then (st.curIndex - ring.cur).toNat
              else 0) ring.cur { logs with maps := st.maps } st.ring).1,
          { (unmapFrom
              (if ring.cur < st.curIndex then
                (st.curIndex - ring.cur).toNat
              else 0) ring.cur { logs with maps := st.maps } st.ring).2 with
            pktInfo := pkt }, false) := by
  rw [TxRing.mapTxSkb]
  dsimp only
  rw [mapTxSkb_index, mapSkb_eq]
  rw [TxRing.mapStart] at hwalk
  rw [hwalk]
  exact ⟨_, rfl⟩

/-- A piece that cannot be mapped makes the call fail. -/
theorem mapTxSkb_fails (logs : TxLogs) (ring : TxRing) {k : Nat}
    (hk : k < skb.layout.length) (hfail : dma k = none) :
    ∃ logs' ring', TxRing.mapTxSkb dma skb logs
      { ring with pktInfo := ring.prepared skb }
      = (logs', ring', false) := by
  have hflag : ((ring.mapStart skb logs).mapAll dma skb skb.layout).2
      = false :=
    mapAll_fails hk (show dma (0 + k) = none by rw [Nat.zero_add, hfail])
  cases hwalk : (ring.mapStart skb logs).mapAll dma skb skb.layout with
  | mk st ok =>
    rw [hwalk] at hflag
    obtain rfl : ok = false := hflag
    obtain ⟨pkt, heq⟩ := mapTxSkb_failed hwalk
    exact ⟨_, _, heq⟩

/-- What the rollback undoes over all entries of the packet. -/
theorem flatMap_used (datas : Nat → TxDescData) (ctx n : Nat)
    (maps : List TxMapping) :
    ((List.range' 0 (ctx + maps.length)).flatMap
        fun j => ((datas j).after ctx n maps j).unmapCalls)
      = ((List.range' 0 ctx).flatMap fun j => (datas j).unmapCalls)
        ++ (unmapping datas ctx n maps).filter fun u => u.dma ≠ 0 := by
  have hsplit : List.range' 0 (ctx + maps.length)
      = List.range' 0 ctx ++ List.range' ctx maps.length := by
    rw [← List.range'_append_1, Nat.zero_add]
  have hctx : ((List.range' 0 ctx).flatMap
      fun j => ((datas j).after ctx n maps j).unmapCalls)
      = (List.range' 0 ctx).flatMap fun j => (datas j).unmapCalls := by
    refine List.flatMap_congr fun j hj => ?_
    have hbound := List.mem_range'_1.1 hj
    rw [after_before _ _ _ (by omega)]
  rw [hsplit, List.flatMap_append, hctx, flatMap_unmapCalls]

theorem length_newMaps_layout {k : Nat} (hk : k < skb.layout.length)
    (hok : ∀ i, i < k → (dma i).isSome) (hfail : dma k = none) :
    (newMaps dma skb 0 skb.layout).length = k :=
  newMaps_length hk (fun i hi => by rw [Nat.zero_add]; exact hok i hi)
    (by rw [Nat.zero_add]; exact hfail)

/-- The entry at position `j` when the walk over the packet ends. -/
def TxRing.walked (ring : TxRing) (skb : Skb) (n : Nat)
    (maps : List TxMapping) (j : Nat) : TxDescData :=
  (ring.datas ring.cur.toNat j).after (skb.contextCount ring) n maps j

/-- How many entries the rollback goes over when so many are used. -/
def TxRing.rolled (ring : TxRing) (used : Nat) : Nat :=
  if ring.cur.toNat + used < 2 ^ 32 then used else 0

/-- The ring when the walk over the packet ends. -/
def TxRing.mapped (ring : TxRing) (dma : Nat → Option U64) (skb : Skb)
    (logs : TxLogs) : TxRing :=
  ((ring.mapStart skb logs).mapAll dma skb skb.layout).1.ring

theorem mapped_besideDatas (ring : TxRing) (dma : Nat → Option U64)
    (skb : Skb) (logs : TxLogs) :
    (ring.mapped dma skb logs).besideDatas
      = { ring with pktInfo := ring.prepared skb }.besideDatas :=
  mapAll_kept dma skb skb.layout (ring.mapStart skb logs)

theorem mapped_sized (dma : Nat → Option U64) (skb : Skb)
    (logs : TxLogs) (hsized : ring.Sized) :
    (ring.mapped dma skb logs).Sized :=
  (congrArg TxRing.dmaDescCount
    (mapped_besideDatas ring dma skb logs)).trans hsized

theorem mapped_cur (ring : TxRing) (dma : Nat → Option U64) (skb : Skb)
    (logs : TxLogs) : (ring.mapped dma skb logs).cur = ring.cur := by
  have hcur := congrArg TxRing.cur (mapped_besideDatas ring dma skb logs)
  exact hcur

/-- A failed call is the walk and the rollback, which goes over all
entries that the walk has used unless the index has passed 2^32. -/
theorem mapTxSkb_back {logs logs' : TxLogs} {ring ring' : TxRing}
    {maps : List TxMapping} (hmaps : newMaps dma skb 0 skb.layout = maps)
    (hmap : TxRing.mapTxSkb dma skb logs
      { ring with pktInfo := ring.prepared skb } = (logs', ring', false)) :
    ∃ pkt, (logs', ring')
      = ((unmapFrom (ring.rolled (skb.contextCount ring + maps.length))
            ring.cur { logs with maps := logs.maps ++ maps }
            (ring.mapped dma skb logs)).1,
          { (unmapFrom (ring.rolled (skb.contextCount ring + maps.length))
              ring.cur { logs with maps := logs.maps ++ maps }
              (ring.mapped dma skb logs)).2 with pktInfo := pkt }) := by
  obtain ⟨hstmaps, hidx⟩ := mapAll_made (c := ring.cur.toNat) dma skb
    skb.layout (ring.mapStart skb logs) (skb.contextCount ring) rfl
  rw [show (ring.mapStart skb logs).calls = 0 from rfl, hmaps]
    at hstmaps hidx
  have hfew : maps.length ≤ skb.layout.length := by
    rw [← hmaps]
    exact length_newMaps_le dma skb 0 skb.layout
  have hneeded := needed_lt skb ring.curMss ring.curVlanCtag
  change skb.contextCount ring + skb.layout.length < 2 ^ 20 at hneeded
  unfold TxRing.mapped
  cases hwalk : (ring.mapStart skb logs).mapAll dma skb skb.layout with
  | mk st ok =>
    rw [hwalk] at hstmaps hidx
    cases ok with
    | true =>
      rw [TxRing.mapTxSkb] at hmap
      dsimp only at hmap
      rw [mapTxSkb_index, mapSkb_eq] at hmap
      rw [TxRing.mapStart] at hwalk
      rw [hwalk] at hmap
      cases hmap
    | false =>
      obtain ⟨pkt, heq⟩ := mapTxSkb_failed hwalk
      rw [heq] at hmap
      have hstart : ring.cur = BitVec.ofNat 32 ring.cur.toNat := by
        rw [BitVec.ofNat_toNat, BitVec.setWidth_eq]
      have hcount := rollback_count ring.cur.isLt
        (show skb.contextCount ring + maps.length < 2 ^ 32 by omega)
      dsimp only at hidx hstmaps
      rw [← hidx, ← hstart] at hcount
      rw [hcount, hstmaps] at hmap
      exact ⟨pkt, congrArg (fun out => (out.1, out.2.1)) hmap.symm⟩

/-- Everything a failed call does on a ring that is large enough. -/
theorem mapTxSkb_rolled {logs logs' : TxLogs} {ring ring' : TxRing}
    {maps : List TxMapping} (hsized : ring.Sized)
    (hfits : skb.contextCount ring + maps.length ≤ 4096)
    (hmaps : newMaps dma skb 0 skb.layout = maps)
    (hmap : TxRing.mapTxSkb dma skb logs
      { ring with pktInfo := ring.prepared skb } = (logs', ring', false)) :
    ring'.cur = ring.cur
      ∧ logs' = { logs with maps := logs.maps ++ maps }.unmapAll
        ((List.range' 0
          (ring.rolled (skb.contextCount ring + maps.length))).map
          (ring.walked skb logs.maps.length maps))
      ∧ ∀ j, j < 4096 → ring'.datas ring.cur.toNat j
        = if j < ring.rolled (skb.contextCount ring + maps.length) then
            (ring.walked skb logs.maps.length maps j).cleared
          else ring.walked skb logs.maps.length maps j := by
  have hdatas : ∀ j, j < 4096 →
      (ring.mapped dma skb logs).datas ring.cur.toNat j
        = ring.walked skb logs.maps.length maps j := fun j hj => by
    rw [← hmaps] at hfits ⊢
    exact mapAll_spec dma skb skb.layout (ring.mapStart skb logs)
      (skb.contextCount ring) hsized rfl hfits hj
  have hleft : ring.rolled (skb.contextCount ring + maps.length)
      ≤ 4096 := by
    unfold TxRing.rolled
    split <;> omega
  obtain ⟨pkt, heq⟩ := mapTxSkb_back hmaps hmap
  obtain ⟨hlogs, hback⟩ := unmapFrom_spec (c := ring.cur.toNat)
    (ring.rolled (skb.contextCount ring + maps.length)) 0
    { logs with maps := logs.maps ++ maps }
    (mapped_sized dma skb logs hsized) (by omega)
  rw [Nat.add_zero, BitVec.ofNat_toNat, BitVec.setWidth_eq] at hlogs hback
  cases heq
  refine ⟨?_, ?_, fun j hj => ?_⟩
  · exact (congrArg TxRing.cur (unmapFrom_kept _ _ _ _).1).trans
      (mapped_cur ring dma skb logs)
  · rw [hlogs]
    refine congrArg _ (List.map_congr_left fun j hj => ?_)
    have hbound := List.mem_range'_1.1 hj
    exact hdatas j (by omega)
  · refine (hback j hj).trans ?_
    rw [hdatas j hj]
    refine if_congr ?_ rfl rfl
    omega

end Failure

end BxRnic.Mac
