/-
The initialisation of a receive ring.

`mac_rx_desc_init` fills the entries in order, and then gives all of them
to the NIC. A ring that gets buffers for every entry is in turn when that
is done (`Filling.descInit`). Filling ends at the first entry that gets
none; that one is given to the NIC as the others are (`descInit_stops`).
-/
import BxRnic.Mac.Proofs.RxOrder

namespace BxRnic.Mac

-- ======================================================== initialisation

/-- The entries before `j` have been filled, one after the other. -/
structure Filling (pg : Pages) (rings : Nat → RxRing) (r : Nat)
    (ring : RxRing) (j : Nat) : Prop where
  sound : Sound TurnPool pg (Function.update rings r ring)
  known : ∀ i, i < j → ring.Known i
  filled : ∀ i, i < j → ring.Filled i
  inOrder : ∀ part i i' c c', i < i' → i' < j →
    (ring.rxOf i part).slice = some c →
    (ring.rxOf i' part).slice = some c' → c.page = c'.page → c.off < c'.off
  clear : ∀ i, j ≤ i → ring.Clear i

section Init

variable {ans : Answers} {rxBufSize : Nat} {rings : Nat → RxRing}
  {r j left : Nat} {pg : Pages} {ring : RxRing}

theorem setDmaDesc_known (i : Nat) (h : i = j ∨ ring.Known i) :
    (ring.setDmaDesc j).Known i := by
  unfold RxRing.Known RxRing.setDmaDesc
  dsimp only
  by_cases hi : i = j
  · rw [hi, Function.update_self]
    exact ⟨rfl, rfl⟩
  · rw [Function.update_of_ne hi]
    exact h.resolve_left hi

/-- One more entry is filled. -/
theorem Filling.next (h : Filling pg rings r ring j)
    (hsize : SizeOk rxBufSize)
    (hok : ((ring.setDmaDesc j).mapRxBuffer ans rxBufSize pg j).1 = true) :
    Filling ((ring.setDmaDesc j).mapRxBuffer ans rxBufSize pg j).2.1 rings r
      ((ring.setDmaDesc j).mapRxBuffer ans rxBufSize pg j).2.2 (j + 1) := by
  have hset : Sound TurnPool pg
      (Function.update rings r (ring.setDmaDesc j)) :=
    h.sound.congr rfl (setDmaDesc_rx ring j)
  have hsound := hset.mapRxBuffer (grows_turnPool (partLen rxBufSize))
    hsize ans (fun part => by
      rw [setDmaDesc_rx]
      exact h.clear j le_rfl part)
  obtain ⟨rxPa, rx, hring, -, hcut⟩ :=
    mapRxBuffer_frame ans rxBufSize pg (ring.setDmaDesc j) j
  have hboth := hcut hok
  rw [hring] at hsound ⊢
  have hnew : ((ring.setDmaDesc j).withBuffers j rxPa rx).rxOf j = rx :=
    rxOf_withBuffers _ _ _ _
  have hold : ∀ i, i ≠ j →
      ((ring.setDmaDesc j).withBuffers j rxPa rx).rxOf i = ring.rxOf i :=
    fun i hi => (withBuffers_rxOf_other hi).trans (setDmaDesc_rx ring j i)
  refine ⟨hsound, fun i hi => ?_, fun i hi => ?_, ?_, fun i hi part => ?_⟩
  · refine (withBuffers_known i).2 (setDmaDesc_known i ?_)
    rcases Nat.lt_succ_iff_lt_or_eq.1 hi with hlt | heq
    · exact Or.inr (h.known i hlt)
    · exact Or.inl heq
  · unfold RxRing.Filled
    rcases Nat.lt_succ_iff_lt_or_eq.1 hi with hlt | rfl
    · rw [hold i (Nat.ne_of_lt hlt)]
      exact h.filled i hlt
    · rw [hnew]
      exact hboth.slices
  · intro part i i' c c' hii hi' h₁ h₂ hpage
    rw [hold i (by omega)] at h₁
    rcases Nat.lt_succ_iff_lt_or_eq.1 hi' with hlt | rfl
    · rw [hold i' (Nat.ne_of_lt hlt)] at h₂
      exact h.inOrder part i i' c c' hii hlt h₁ h₂ hpage
    · rw [hnew] at h₂
      exact hboth.after hsound.kept.after hsound.kept.cut_len
        (h.sound.cut_of_slice h₁) h₂ hpage
  · show ((ring.setDmaDesc j).withBuffers j rxPa rx).rxOf i part = .zero
    rw [hold i (by omega)]
    exact h.clear i (by omega) part

/-- A ring is filled to its end. -/
theorem Filling.fillFrom (h : Filling pg rings r ring j)
    (hsize : SizeOk rxBufSize)
    (hfills : RxRing.Fills ans rxBufSize left j pg ring) :
    Filling (ring.fillFrom ans rxBufSize left j pg).1 rings r
      (ring.fillFrom ans rxBufSize left j pg).2 (j + left) := by
  induction left generalizing j pg ring with
  | zero => exact h
  | succ left ih =>
    obtain ⟨hok, hrest⟩ := hfills
    have hend : j + (left + 1) = j + 1 + left := by omega
    rw [fillFrom_succ hok, hend]
    exact ih (h.next hsize hok) hrest

/-- An entry that knows a descriptor knows its own. -/
def RxRing.Told (ring : RxRing) (i : Nat) : Prop :=
  (ring.descDataHead i).dmaDesc = none
    ∨ (ring.descDataHead i).dmaDesc = some i

theorem setDmaDesc_told {i : Nat} (h : ring.Told i) :
    (ring.setDmaDesc j).Told i := by
  unfold RxRing.Told RxRing.setDmaDesc
  dsimp only
  by_cases hi : i = j
  · rw [hi, Function.update_self]
    exact Or.inr rfl
  · rw [Function.update_of_ne hi]
    exact h

theorem fillFrom_told {i : Nat} (h : ring.Told i) :
    (ring.fillFrom ans rxBufSize left j pg).2.Told i := by
  induction left generalizing j pg ring with
  | zero => exact h
  | succ left ih =>
    have hmap : ((ring.setDmaDesc j).mapRxBuffer ans rxBufSize pg
        j).2.2.Told i := by
      unfold RxRing.Told
      rw [(mapRxBuffer_dmaDesc i).1]
      exact setDmaDesc_told h
    rw [RxRing.fillFrom]
    rcases hout : (ring.setDmaDesc j).mapRxBuffer ans rxBufSize pg j with
      ⟨ok, pg', ring'⟩
    rw [hout] at hmap
    cases ok with
    | false => exact hmap
    | true => exact ih hmap

/-- Filling ends at an entry that knows its descriptor and has no
buffers. -/
theorem fillFrom_stops (hclear : ∀ i, j ≤ i → ring.Clear i)
    (hstops : ¬ RxRing.Fills ans rxBufSize left j pg ring) :
    ∃ n, j ≤ n ∧ n < j + left
      ∧ (∀ i, j ≤ i → i ≤ n → ((ring.fillFrom ans rxBufSize left j
          pg).2.descDataHead i).dmaDesc = some i)
      ∧ (ring.fillFrom ans rxBufSize left j pg).2.Clear n := by
  induction left generalizing j pg ring with
  | zero => exact absurd trivial hstops
  | succ left ih =>
    obtain ⟨rxPa, rx, hring, hsame, -⟩ :=
      mapRxBuffer_frame ans rxBufSize pg (ring.setDmaDesc j) j
    have hdesc : (((ring.setDmaDesc j).mapRxBuffer ans rxBufSize pg
        j).2.2.descDataHead j).dmaDesc = some j := by
      rw [(mapRxBuffer_dmaDesc j).1, RxRing.setDmaDesc]
      dsimp only
      rw [Function.update_self]
    by_cases hok : ((ring.setDmaDesc j).mapRxBuffer ans rxBufSize pg
      j).1 = true
    · have hrest := fun hrest => hstops ⟨hok, hrest⟩
      obtain ⟨n, hlo, hhi, hknown, hn⟩ := ih (fun i hi part => by
        show ((ring.setDmaDesc j).mapRxBuffer ans rxBufSize pg
          j).2.2.rxOf i part = .zero
        rw [hring, withBuffers_rxOf_other (by omega), setDmaDesc_rx]
        exact hclear i (by omega) part) hrest
      rw [fillFrom_succ hok]
      refine ⟨n, by omega, by omega, fun i hi hin => ?_, hn⟩
      rcases Nat.eq_or_lt_of_le hi with rfl | hlt
      · rw [fillFrom_before (Nat.lt_succ_self j)]
        exact hdesc
      · exact hknown i hlt hin
    · have hend : ring.fillFrom ans rxBufSize (left + 1) j pg
          = ((ring.setDmaDesc j).mapRxBuffer ans rxBufSize pg j).2 := by
        rw [RxRing.fillFrom]
        rcases hout : (ring.setDmaDesc j).mapRxBuffer ans rxBufSize pg j
          with ⟨ok, pg', ring'⟩
        rw [hout] at hok
        cases ok with
        | false => rfl
        | true => exact absurd rfl hok
      rw [hend]
      refine ⟨j, le_rfl, by omega, fun i hi hij => ?_, fun part => ?_⟩
      · obtain rfl : i = j := Nat.le_antisymm hij hi
        exact hdesc
      · show ((ring.setDmaDesc j).mapRxBuffer ans rxBufSize pg
          j).2.2.rxOf j part = .zero
        rw [hring, rxOf_withBuffers, hsame (Bool.eq_false_iff.2 hok),
          setDmaDesc_rx]
        exact hclear j le_rfl part

/-- Arming is about the descriptors. -/
theorem armFrom_frame (coal : Coalesce) (left i : Nat) (ring : RxRing) :
    ∃ dmaDescs stamp returned, (ring.armFrom coal left i).2
      = { ring with
          dmaDescs := dmaDescs
          stamp := stamp
          returned := returned } := by
  induction left generalizing i ring with
  | zero => exact ⟨ring.dmaDescs, ring.stamp, ring.returned, rfl⟩
  | succ left ih =>
    rw [RxRing.armFrom]
    cases hreset : ring.rxDescReset coal i (BitVec.ofNat 32 i) with
    | none => exact ⟨ring.dmaDescs, ring.stamp, ring.returned, rfl⟩
    | some ring' =>
      obtain ⟨dmaDescs, stamp, returned, hrest⟩ := ih (i + 1) ring'
      refine ⟨dmaDescs, stamp, returned, hrest.trans ?_⟩
      unfold RxRing.rxDescReset at hreset
      dsimp only at hreset
      split at hreset
      · cases hreset
      · cases hreset
        rfl

/-- The entries as far as all know their descriptors are armed with their
buffers. -/
theorem armFrom_armed (coal : Coalesce) {i : Nat}
    (htold : ∀ i', i ≤ i' → i' < i + left → ring.Told i') :
    (∀ i', i ≤ i' → i' < i + left →
        (∀ k, i ≤ k → k ≤ i' → (ring.descDataHead k).dmaDesc = some k) →
        (ring.armFrom coal left i).2.Armed i')
      ∧ ∀ i', i' < i →
        (ring.armFrom coal left i).2.dmaDescs i' = ring.dmaDescs i' := by
  induction left generalizing i ring with
  | zero => exact ⟨fun i' hlo hhi => absurd hhi (by omega), fun _ _ => rfl⟩
  | succ left ih =>
    rcases htold i le_rfl (by omega) with hnone | hfirst
    · have hreset : ring.rxDescReset coal i (BitVec.ofNat 32 i) = none := by
        unfold RxRing.rxDescReset
        dsimp only
        rw [hnone]
      rw [RxRing.armFrom, hreset]
      refine ⟨fun i' hlo _ hknown => ?_, fun _ _ => rfl⟩
      have hsome := hknown i le_rfl hlo
      rw [hnone] at hsome
      cases hsome
    · have hreset : ring.rxDescReset coal i (BitVec.ofNat 32 i)
          = some { ring with
              dmaDescs := Function.update ring.dmaDescs i
                (armedDesc (ring.rxOf i .hdr) (ring.rxOf i .buf)
                  (coal.inte (BitVec.ofNat 32 i)))
              stamp := Function.update ring.stamp i none
              returned := ring.returned ++ [ring.stamp i] } := by
        unfold RxRing.rxDescReset
        dsimp only
        rw [hfirst]
        rfl
      rw [RxRing.armFrom, hreset]
      dsimp only
      generalize hring : ({ ring with
        dmaDescs := Function.update ring.dmaDescs i
          (armedDesc (ring.rxOf i .hdr) (ring.rxOf i .buf)
            (coal.inte (BitVec.ofNat 32 i)))
        stamp := Function.update ring.stamp i none
        returned := ring.returned ++ [ring.stamp i] } : RxRing) = ring'
      have hdata : ring'.descDataHead = ring.descDataHead := by rw [← hring]
      have hdescs : ring'.dmaDescs = Function.update ring.dmaDescs i
          (armedDesc (ring.rxOf i .hdr) (ring.rxOf i .buf)
            (coal.inte (BitVec.ofNat 32 i))) := by rw [← hring]
      obtain ⟨harmed, hbefore⟩ := @ih ring' (i + 1) (fun i' hlo hhi => by
        unfold RxRing.Told
        rw [hdata]
        exact htold i' (by omega) (by omega))
      refine ⟨fun i' hlo hhi hknown => ?_, fun i' hi => ?_⟩
      · rcases Nat.eq_or_lt_of_le hlo with rfl | hlo'
        · refine ⟨coal.inte (BitVec.ofNat 32 i), ?_⟩
          have hrx : (ring'.armFrom coal left (i + 1)).2.rxOf i
              = ring.rxOf i := by
            unfold RxRing.rxOf
            rw [armFrom_buffers.2, hdata]
          rw [hbefore i (Nat.lt_succ_self i), hdescs, Function.update_self,
            hrx]
        · refine harmed i' (by omega) (by omega) fun k hk hki => ?_
          rw [hdata]
          exact hknown k (by omega) hki
      · rw [hbefore i' (by omega), hdescs,
          Function.update_of_ne (Nat.ne_of_lt hi)]

/-- The descriptors of a ring that was initialised are those its filled
entries were armed with, whether or not the kernel got through it. -/
theorem descInit_armed (coal : Coalesce) {i : Nat}
    (htold : ∀ i', i' < ring.dmaDescCount →
      (ring.fillFrom ans rxBufSize ring.dmaDescCount 0 pg).2.Told i')
    (hi : i < ring.dmaDescCount)
    (hknown : ∀ k, k ≤ i → ((ring.fillFrom ans rxBufSize ring.dmaDescCount
      0 pg).2.descDataHead k).dmaDesc = some k) :
    (ring.descInit ans coal rxBufSize pg).2.2.Armed i := by
  obtain ⟨rxPa, data, hframe⟩ :=
    @fillFrom_frame ans rxBufSize pg ring ring.dmaDescCount 0
  rw [RxRing.descInit]
  rcases hout : ring.fillFrom ans rxBufSize ring.dmaDescCount 0 pg with
    ⟨pg', ring'⟩
  rw [hout] at hknown htold hframe
  dsimp only at hknown htold hframe ⊢
  have hcount : ring'.dmaDescCount = ring.dmaDescCount := by rw [hframe]
  obtain ⟨harmed, -⟩ := @armFrom_armed ring'.dmaDescCount
    { ring' with cur := 0, dirty := 0 } coal 0
    (fun i' _ hi' => htold i' (by omega))
  have harmed' := harmed i (Nat.zero_le i) (by omega)
    (fun k _ hk => hknown k hk)
  rcases harm : RxRing.armFrom coal ring'.dmaDescCount 0
    { ring' with cur := 0, dirty := 0 } with ⟨ok, ring''⟩
  rw [harm] at harmed'
  cases ok with
  | false => exact harmed'
  | true => exact harmed'

/-- In a ring that was filled, that is all of them. -/
theorem descInit_armed_of_fills (coal : Coalesce) {i : Nat}
    (hfills : RxRing.Fills ans rxBufSize ring.dmaDescCount 0 pg ring)
    (hi : i < ring.dmaDescCount) :
    (ring.descInit ans coal rxBufSize pg).2.2.Armed i := by
  have hdesc : ∀ k, k < ring.dmaDescCount → ((ring.fillFrom ans rxBufSize
      ring.dmaDescCount 0 pg).2.descDataHead k).dmaDesc = some k :=
    fun k hk => fillFrom_dmaDesc hfills (Nat.zero_le k) (by omega)
  exact descInit_armed coal (fun k hk => Or.inr (hdesc k hk)) hi
    fun k hk => hdesc k (by omega)

theorem RxRing.Armed.own {i : Nat} (h : ring.Armed i) :
    (ring.dmaDescs i).own = true := by
  obtain ⟨inte, hdesc⟩ := h
  rw [hdesc]
  exact armedDesc_own _ _ inte

/-- A ring that is not filled has a descriptor that the NIC owns and that
has no buffers. -/
theorem descInit_stops (coal : Coalesce) (hclear : ∀ i, ring.Clear i)
    (htold : ∀ i, i < ring.dmaDescCount → ring.Told i)
    (hstops : ¬ RxRing.Fills ans rxBufSize ring.dmaDescCount 0 pg ring) :
    ∃ i, i < ring.dmaDescCount
      ∧ ((ring.descInit ans coal rxBufSize pg).2.2.dmaDescs i).own = true
      ∧ (ring.descInit ans coal rxBufSize pg).2.2.Clear i := by
  obtain ⟨n, -, hn, hknown, hzero⟩ :=
    fillFrom_stops (fun i _ => hclear i) hstops
  rw [Nat.zero_add] at hn
  have harmed := descInit_armed coal
    (fun i hi => fillFrom_told (htold i hi)) hn
    fun k hk => hknown k (Nat.zero_le k) hk
  refine ⟨n, hn, harmed.own, fun part => ?_⟩
  rw [(descInit_buffers coal).2.2]
  exact hzero part

/-- A ring that is filled is in turn when it has been initialised. -/
theorem Filling.descInit (h : Filling pg rings r ring 0)
    (hsize : SizeOk rxBufSize) (hsized : ring.dmaDescCount = rxDescCnt)
    (coal : Coalesce)
    (hfills : RxRing.Fills ans rxBufSize ring.dmaDescCount 0 pg ring) :
    (ring.descInit ans coal rxBufSize pg).1 = true
      ∧ Turning (ring.descInit ans coal rxBufSize pg).2.1 rings r
        (ring.descInit ans coal rxBufSize pg).2.2 0 0 := by
  have halive := descInit_alive coal hfills
  refine ⟨halive, ?_⟩
  have hfull := h.fillFrom hsize hfills
  have harmed : ∀ i, i < ring.dmaDescCount →
      (ring.descInit ans coal rxBufSize pg).2.2.Armed i :=
    fun i hi => descInit_armed_of_fills coal hfills hi
  obtain ⟨rxPa, data, hframe⟩ :=
    @fillFrom_frame ans rxBufSize pg ring ring.dmaDescCount 0
  rw [RxRing.descInit] at halive harmed ⊢
  rcases hout : ring.fillFrom ans rxBufSize ring.dmaDescCount 0 pg with
    ⟨pg', ring'⟩
  rw [hout] at hfull hframe halive harmed
  dsimp only at hfull hframe halive harmed ⊢
  rw [hsized] at hfull harmed
  rw [Nat.zero_add] at hfull
  have hsized' : ring'.dmaDescCount = rxDescCnt := by
    rw [hframe]
    exact hsized
  obtain ⟨descs, stamp, returned, hring⟩ := armFrom_frame coal
    ring'.dmaDescCount 0 { ring' with cur := 0, dirty := 0 }
  rcases harm : RxRing.armFrom coal ring'.dmaDescCount 0
    { ring' with cur := 0, dirty := 0 } with ⟨ok, ring''⟩
  rw [harm] at harmed hring halive
  dsimp only at hring
  subst hring
  cases ok with
  | false => cases halive
  | true =>
    have hmod : ∀ j, j < 0 + rxDescCnt → j % rxDescCnt = j := fun j hj =>
      Nat.mod_eq_of_lt (by omega)
    refine ⟨hfull.sound.congr rfl fun _ => rfl, ?_, ?_⟩
    · exact
        { sized := hsized'
          dirty := rfl
          cur := rfl
          returned_le := le_rfl
          consumed_le := Nat.zero_le _
          room := Nat.zero_le _
          head := rx_entry_ofNat hsized' 0
          returned := rfl
          consumed := rfl
          own := fun j hlo hhi => by
            rw [hmod j hhi]
            exact (harmed j (by omega)).own
          stamp := fun j _ hj => absurd hj (Nat.not_lt_zero j) }
    · refine ⟨hfull.known, fun j hlo hhi => ?_, fun j hlo hhi => ?_, ?_,
        hfull.clear⟩
      · rw [hmod j hhi]
        exact hfull.filled j (by omega)
      · rw [hmod j hhi]
        exact harmed j (by omega)
      · intro part j j' c c' hlo hjj hhi h₁ h₂ hpage
        rw [hmod j (by omega)] at h₁
        rw [hmod j' hhi] at h₂
        exact hfull.inOrder part j j' c c' hjj (by omega) h₁ h₂ hpage

end Init

end BxRnic.Mac
