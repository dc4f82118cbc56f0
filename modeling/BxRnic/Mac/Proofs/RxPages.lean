/-
The pages of the receive rings over whole runs: of an open device that
is restarted, whose MTU changes, whose rings are read and refilled.

# What holds always

The slices of a page are apart, and a page is unmapped once, when the
slice cut from it last is released.

# What holds while leftovers have room

A slice lies inside its page as long as every change of the MTU finds
room for a slice of the new length in every leftover
(`RxPdata.KeepsRoom`). The rings keep their leftovers when the device is
restarted, so a change can break it (`raised_mtu_outside`).
-/
import BxRnic.Mac.Proofs.Slices

namespace BxRnic.Mac

/-- The pool of the device. -/
def RxPdata.pool (p : RxPdata) : SlicePool (Nat × Part) Slot :=
  slicePool p.pages p.rxRings

/-- Slices are inside their pages, and will be. -/
def InsidePool (rxBufSize : Nat) (pool : SlicePool (Nat × Part) Slot) :
    Prop :=
  pool.Fits (partLen rxBufSize) ∧ pool.Inside

theorem steady_insidePool (rxBufSize : Nat) :
    SlicePool.Steady slotKey (partLen rxBufSize) (InsidePool rxBufSize) :=
  SlicePool.steady_inside slotKey (partLen rxBufSize)

theorem insidePool_empty (rxBufSize : Nat) :
    InsidePool rxBufSize SlicePool.empty := by
  constructor
  · intro k a ha
    exact absurd ha (by simp [SlicePool.empty])
  · intro c hc
    exact absurd hc (by simp [SlicePool.empty])

/-- The invariant of the device, with what else is asked of the pool. -/
structure RxPdata.Inv (Q : SlicePool (Nat × Part) Slot → Prop)
    (p : RxPdata) : Prop where
  sound : Sound Q p.pages p.rxRings
  size : SizeOk p.rxBufSize
  /-- The rings that are not there hold nothing. -/
  absent : ∀ r, p.rxRingCount ≤ r → (p.rxRings r).rxPa = fun _ => .zero

-- ============================================================ the device

section Device

variable {Q : SlicePool (Nat × Part) Slot → Prop} {ans : Answers}
  {p : RxPdata}

theorem RxPdata.Inv.at (h : p.Inv Q) (r : Nat) :
    Sound Q p.pages (Function.update p.rxRings r (p.rxRings r)) := by
  rw [Function.update_eq_self]
  exact h.sound

theorem setRing_self (p : RxPdata) (r : Nat) (out : Bool × Pages × RxRing) :
    (p.setRing r out).rxRings r = out.2.2 := Function.update_self _ _ _

theorem setRing_other (p : RxPdata) {r r' : Nat}
    (out : Bool × Pages × RxRing) (hne : r' ≠ r) :
    (p.setRing r out).rxRings r' = p.rxRings r' :=
  Function.update_of_ne hne _ _

/-- A call on one ring. -/
theorem RxPdata.Inv.setRing (h : p.Inv Q) {r : Nat}
    (hr : r < p.rxRingCount) {out : Bool × Pages × RxRing}
    (hout : Sound Q out.2.1 (Function.update p.rxRings r out.2.2)) :
    (p.setRing r out).Inv Q where
  sound := hout
  size := h.size
  absent r' hr' := by
    have hne : r' ≠ r := by
      rintro rfl
      exact absurd hr (Nat.not_lt.2 hr')
    rw [setRing_other p out hne]
    exact h.absent r' hr'

/-- Initialising the rings does not change the length. -/
theorem descInitFrom_rxBufSize {left r : Nat} :
    (p.descInitFrom ans left r).rxBufSize = p.rxBufSize := by
  induction left generalizing r p with
  | zero => rfl
  | succ left ih =>
      rw [RxPdata.descInitFrom]
      split
      · rfl
      · rw [ih]
        rfl

theorem descInitFrom_rxRingCount {left r : Nat} :
    (p.descInitFrom ans left r).rxRingCount = p.rxRingCount := by
  induction left generalizing r p with
  | zero => rfl
  | succ left ih =>
      rw [RxPdata.descInitFrom]
      split
      · rfl
      · rw [ih]
        rfl

/-- Rings that were initialised before are left alone. -/
theorem descInitFrom_before {left r r' : Nat} (hr : r' < r) :
    (p.descInitFrom ans left r).rxRings r' = p.rxRings r' := by
  induction left generalizing r p with
  | zero => rfl
  | succ left ih =>
      rw [RxPdata.descInitFrom]
      split
      · exact setRing_other p _ (Nat.ne_of_lt hr)
      · rw [ih (Nat.lt_succ_of_lt hr)]
        exact setRing_other p _ (Nat.ne_of_lt hr)

theorem descInitFrom_self {left r : Nat} :
    (p.descInitFrom ans (left + 1) r).rxRings r
      = ((p.rxRings r).descInit ans p.coal p.rxBufSize p.pages).2.2 := by
  rw [RxPdata.descInitFrom]
  split
  · exact setRing_self p r _
  · rw [descInitFrom_before (Nat.lt_succ_self r)]
    exact setRing_self p r _

/-- Initialising rings without buffers keeps the invariant. -/
theorem RxPdata.Inv.descInitFrom (h : p.Inv Q)
    (hQ : SlicePool.Grows slotKey (partLen p.rxBufSize) Q) {left r : Nat}
    (hr : r + left ≤ p.rxRingCount)
    (hclear : ∀ r', r ≤ r' → r' < r + left → ∀ i, i < (p.rxRings r').dmaDescCount →
      ∀ part, (p.rxRings r').rxOf i part = .zero) (ans : Answers) :
    (p.descInitFrom ans left r).Inv Q := by
  induction left generalizing r p with
  | zero => exact h
  | succ left ih =>
      rw [RxPdata.descInitFrom]
      have hinit := (h.at r).descInit hQ h.size ans p.coal
        (hclear r (Nat.le_refl r) (by omega))
      have hset := h.setRing (by omega) hinit
      split
      · exact hset
      · refine ih hset hQ (by show r + 1 + left ≤ p.rxRingCount; omega) ?_
        intro r' hlo hhi
        rw [setRing_other p _ (by omega)]
        exact hclear r' (by omega) (by omega)

/-- Freeing the rings keeps the invariant. -/
theorem RxPdata.Inv.freeRxDataFrom (h : p.Inv Q)
    (hQ : SlicePool.Steady slotKey (partLen p.rxBufSize) Q) {left r : Nat}
    (hr : r + left ≤ p.rxRingCount) :
    (p.freeRxDataFrom left r).Inv Q := by
  induction left generalizing r p with
  | zero => exact h
  | succ left ih =>
      rw [RxPdata.freeRxDataFrom]
      have hset : (p.setRing r (true,
          (p.rxRings r).freeFrom (p.rxRings r).dmaDescCount 0 p.pages)).Inv Q :=
        h.setRing (by omega) ((h.at r).freeFrom hQ)
      exact ih hset hQ (by show r + 1 + left ≤ p.rxRingCount; omega)

/-- What freeing the rings leaves as it is, and the entries it clears. -/
theorem freeRxDataFrom_frame {left r : Nat} :
    (p.freeRxDataFrom left r).rxBufSize = p.rxBufSize
      ∧ (p.freeRxDataFrom left r).rxRingCount = p.rxRingCount
      ∧ ∀ r', ((p.freeRxDataFrom left r).rxRings r').rxPa
          = (p.rxRings r').rxPa
        ∧ (r ≤ r' → r' < r + left → ∀ i,
          i < ((p.freeRxDataFrom left r).rxRings r').dmaDescCount →
          ∀ part, ((p.freeRxDataFrom left r).rxRings r').rxOf i part
            = .zero)
        ∧ (r' < r → (p.freeRxDataFrom left r).rxRings r'
          = p.rxRings r') := by
  induction left generalizing r p with
  | zero =>
      refine ⟨rfl, rfl, fun r' => ⟨rfl, fun hlo hhi => ?_, fun _ => rfl⟩⟩
      omega
  | succ left ih =>
      rw [RxPdata.freeRxDataFrom]
      generalize hout : ((true, (p.rxRings r).freeFrom
        (p.rxRings r).dmaDescCount 0 p.pages) : Bool × Pages × RxRing) = out
      obtain ⟨hsize, hcount, hrings⟩ := @ih (p.setRing r out) (r + 1)
      refine ⟨hsize, hcount, fun r' => ?_⟩
      obtain ⟨hpa, hclear, hbelow⟩ := hrings r'
      by_cases hr : r' = r
      · subst hr
        have hring := hbelow (Nat.lt_succ_self r')
        rw [hring, setRing_self, ← hout]
        refine ⟨freeFrom_rxPa, fun _ _ i hi part => ?_,
          fun hlt => absurd hlt (Nat.lt_irrefl r')⟩
        dsimp only at hi ⊢
        rw [freeFrom_dmaDescCount] at hi
        rw [freeFrom_rxOf, if_pos (by omega)]
      · refine ⟨hpa.trans (by rw [setRing_other p out hr]),
          fun hlo hhi => hclear (by omega) (by omega), fun hlt => ?_⟩
        rw [hbelow (by omega), setRing_other p out hr]

theorem freeRxDataFrom_dmaDescCount {left r : Nat} (r' : Nat) :
    ((p.freeRxDataFrom left r).rxRings r').dmaDescCount
      = (p.rxRings r').dmaDescCount := by
  induction left generalizing r p with
  | zero => rfl
  | succ left ih =>
      rw [RxPdata.freeRxDataFrom, ih]
      by_cases hr : r' = r
      · rw [hr, setRing_self]
        exact freeFrom_dmaDescCount
      · rw [setRing_other p _ hr]

/-- `mac_restart_dev` keeps the invariant. -/
theorem RxPdata.Inv.restartDev (h : p.Inv Q)
    (hQ : SlicePool.Steady slotKey (partLen p.rxBufSize) Q) (ans : Answers) :
    (p.restartDev ans).Inv Q
      ∧ (p.restartDev ans).rxBufSize = p.rxBufSize := by
  have hfree := h.freeRxDataFrom hQ (Nat.le_of_eq (Nat.zero_add _))
  obtain ⟨hsize, hcount, hrings⟩ := @freeRxDataFrom_frame p p.rxRingCount 0
  have hgrows : SlicePool.Grows slotKey
      (partLen (p.freeRxDataFrom p.rxRingCount 0).rxBufSize) Q := by
    rw [hsize]
    exact hQ.toGrows
  have hle : 0 + (p.freeRxDataFrom p.rxRingCount 0).rxRingCount
      ≤ (p.freeRxDataFrom p.rxRingCount 0).rxRingCount :=
    Nat.le_of_eq (Nat.zero_add _)
  have hinit := hfree.descInitFrom hgrows hle (fun r' hlo hhi => by
    rw [hcount] at hhi
    exact (hrings r').2.1 hlo hhi) ans
  exact ⟨hinit, descInitFrom_rxBufSize.trans hsize⟩

end Device

-- =============================================================== the runs

section Runs

variable {ans : Answers} {p : RxPdata}

/-- Every ring has room for a slice of `rxBufSize` in what is left of its
pages for data buffers. -/
def RxPdata.Room (p : RxPdata) (rxBufSize : Nat) : Prop :=
  ∀ r, r < p.rxRingCount → ∀ page,
    ((p.rxRings r).rxPa .buf).pages = some page →
    ((p.rxRings r).rxPa .buf).pagesOffset + rxBufSize
      ≤ ((p.rxRings r).rxPa .buf).pagesLen

/-- The invariant, for the length the device is set to. -/
def RxPdata.Roomy (p : RxPdata) : Prop :=
  p.Inv (InsidePool p.rxBufSize)

/-- A change of the MTU finds room for the new length. -/
def RxPdata.KeepsRoom (p : RxPdata) : RxAct → Prop
  | .changeMtu mtu => ∀ rxBufSize, calcRxBufSize mtu = some rxBufSize →
      p.Room rxBufSize
  | _ => True

/-- What is meant to hold of the slices of the rings. -/
structure RxPdata.SlicesRight (p : RxPdata) : Prop where
  /-- A slice that is handed to the NIC is inside its mapping. -/
  inside : ∀ r, r < p.rxRingCount → ∀ i part c,
    ((p.rxRings r).rxOf i part).slice = some c →
    ∃ m, p.pages.maps[c.page]? = some m
      ∧ ((p.rxRings r).rxOf i part).dmaBase = m.dma
      ∧ ((p.rxRings r).rxOf i part).dmaOff
          + ((p.rxRings r).rxOf i part).dmaLen ≤ m.len
  /-- The pages a buffer unmaps are given back as they were mapped. -/
  unmaps : ∀ r, r < p.rxRingCount → ∀ i part,
    ((p.rxRings r).rxOf i part).paUnmap.Right p.pages.maps
  /-- No two slices of a page overlap, in whatever order they were cut
  and whether or not they are still in use. -/
  apart : p.pages.cuts.Pairwise Slice.Apart
  /-- Every buffer has a slice of its own. -/
  own : ∀ s s' : Slot, s ≠ s' → ∀ c c',
    ((p.rxRings s.1).rxOf s.2.1 s.2.2).slice = some c →
    ((p.rxRings s'.1).rxOf s'.2.1 s'.2.2).slice = some c' →
    c ∈ p.pages.cuts ∧ c' ∈ p.pages.cuts ∧ c ≠ c'
  /-- A page is unmapped once, and it has been when no ring cuts from it
  any more and the slice that was cut from it last is released. -/
  unmapped : ∀ page, page < p.pages.maps.length →
    p.pages.unmaps.count page ≤ 1
      ∧ (p.pages.unmaps.count page = 1
        ↔ (∀ r part, ((p.rxRings r).rxPa part).pages ≠ some page)
          ∧ ∃ c ∈ p.pages.released,
            p.pages.cuts.find? (fun c => c.page = page) = some c)

theorem calcRxBufSize_ok {mtu : U32} {rxBufSize : Nat}
    (h : calcRxBufSize mtu = some rxBufSize) : SizeOk rxBufSize := by
  rw [calcRxBufSize] at h
  split at h
  · exact absurd h (by simp)
  · obtain rfl := Option.some.inj h
    constructor
    · show 0 < (min (max (mtu.toNat + 14 + 4 + 4) 1522) 4096 + 63) / 64 * 64
      omega
    · show (min (max (mtu.toNat + 14 + 4 + 4) 1522) 4096 + 63) / 64 * 64
        ≤ 4096
      omega

/-- What the length is set to fits. -/
theorem RxPdata.Roomy.room (h : p.Roomy) : p.Room p.rxBufSize := by
  intro r _ page hpage
  refine h.sound.also.1 (r, .buf) ⟨page, ((p.rxRings r).rxPa .buf).pagesLen,
    ((p.rxRings r).rxPa .buf).pagesOffset⟩ ?_
  show ((p.rxRings r).rxPa .buf).leftover = _
  rw [PageAlloc.leftover, hpage]
  rfl

/-- A change of the length that finds room keeps the invariant. -/
theorem RxPdata.Roomy.withSize (h : p.Roomy)
    {rxBufSize : Nat} (hsize : SizeOk rxBufSize)
    (hroom : p.Room rxBufSize) :
    ({ p with rxBufSize := rxBufSize } : RxPdata).Inv
      (InsidePool rxBufSize) := by
  refine ⟨⟨h.sound.kept, h.sound.right, ?_, h.sound.also.2⟩, hsize,
    h.absent⟩
  rintro ⟨r, part⟩ a ha
  cases part with
  | hdr => exact h.sound.also.1 (r, .hdr) a ha
  | buf =>
      cases hpages : ((p.rxRings r).rxPa .buf).pages with
      | none =>
          simp [slicePool, PageAlloc.leftover, hpages] at ha
      | some page =>
          simp only [slicePool, PageAlloc.leftover, hpages, Option.map_some,
            Option.some.injEq] at ha
          subst ha
          by_cases hr : r < p.rxRingCount
          · exact hroom r hr page hpages
          · have hzero := h.absent r (Nat.le_of_not_lt hr)
            rw [hzero] at hpages
            exact absurd hpages (by simp [PageAlloc.zero])

/-- Every action keeps the invariant, a change of the MTU if it finds
room. -/
theorem RxPdata.Roomy.step (h : p.Roomy) {act : RxAct}
    (hact : p.KeepsRoom act) (ans : Answers) :
    (p.step ans act).Roomy := by
  have hQ := steady_insidePool p.rxBufSize
  unfold RxPdata.step
  split
  · exact h
  · cases act with
    | restart =>
        obtain ⟨hinv, hsize⟩ := h.restartDev hQ ans
        dsimp only
        rw [RxPdata.Roomy, hsize]
        exact hinv
    | changeMtu mtu =>
        dsimp only
        rw [RxPdata.changeMtu]
        cases hcalc : calcRxBufSize mtu with
        | none => exact h
        | some rxBufSize =>
            have hroom := hact rxBufSize hcalc
            have hwith := h.withSize (calcRxBufSize_ok hcalc) hroom
            obtain ⟨hinv, hsize⟩ :=
              hwith.restartDev (steady_insidePool rxBufSize) ans
            dsimp only
            rw [RxPdata.Roomy, hsize]
            exact hinv
    | read r =>
        dsimp only
        split
        · next hr => exact h.setRing hr ((h.at r).pollRead hQ h.size ans _)
        · exact h
    | refresh r =>
        dsimp only
        split
        · next hr => exact h.setRing hr ((h.at r).refresh hQ h.size ans _)
        · exact h
    | complete r back =>
        dsimp only
        split
        · next hr => exact h.setRing hr ((h.at r).complete back)
        · exact h

/-- The rings before `mac_start` meet any invariant that is true of the
empty pool. -/
theorem allocated_inv {Q : SlicePool (Nat × Part) Slot → Prop}
    (hQ : Q SlicePool.empty) {rxRingCount : Nat} {heads : Nat → U64}
    {coal : Coalesce} {rxBufSize : Nat} (hsize : SizeOk rxBufSize) :
    (RxPdata.allocated rxRingCount heads coal rxBufSize).Inv Q := by
  have hpool : slicePool
      (RxPdata.allocated rxRingCount heads coal rxBufSize).pages
      (RxPdata.allocated rxRingCount heads coal rxBufSize).rxRings
        = SlicePool.empty := rfl
  refine ⟨⟨?_, fun r => ⟨fun i part => ?_, fun part => ?_⟩, ?_⟩, hsize,
    fun _ _ => rfl⟩
  · rw [hpool]
    exact SlicePool.kept_empty
  · exact BufferData.right_zero _
  · exact PageAlloc.right_zero _
  · rw [hpool]
    exact hQ

/-- A device that was just opened meets the invariant. -/
theorem RxPdata.roomy_opened {rxRingCount : Nat} {heads : Nat → U64}
    {coal : Coalesce} {mtu : U32}
    (hopen : RxPdata.opened ans rxRingCount heads coal mtu = some p) :
    p.Roomy := by
  rw [RxPdata.opened, Option.map_eq_some_iff] at hopen
  obtain ⟨rxBufSize, hcalc, rfl⟩ := hopen
  have hstart : (RxPdata.allocated rxRingCount heads coal rxBufSize).Inv
      (InsidePool rxBufSize) :=
    allocated_inv (insidePool_empty rxBufSize) (calcRxBufSize_ok hcalc)
  have hle : 0 + rxRingCount ≤ rxRingCount := Nat.le_of_eq (Nat.zero_add _)
  have hinv := hstart.descInitFrom
    (steady_insidePool rxBufSize).toGrows hle
    (fun _ _ _ _ _ _ => rfl) ans
  have hkeep : ((RxPdata.allocated rxRingCount heads coal
      rxBufSize).start ans).rxBufSize = rxBufSize := descInitFrom_rxBufSize
  rw [RxPdata.Roomy, hkeep]
  exact hinv

theorem slicePool_held_of_slice (p : RxPdata) (s : Slot) {c : Slice}
    (hc : ((p.rxRings s.1).rxOf s.2.1 s.2.2).slice = some c) :
    ∃ own, (slicePool p.pages p.rxRings).held s = some (c, own) := by
  refine ⟨((p.rxRings s.1).rxOf s.2.1 s.2.2).paUnmap.pages.isSome, ?_⟩
  show ((p.rxRings s.1).rxOf s.2.1 s.2.2).slice.map _ = _
  rw [hc]
  rfl

/-- What the invariant says of the slices. -/
theorem RxPdata.Roomy.slicesRight (h : p.Roomy) :
    p.SlicesRight := by
  obtain ⟨⟨hkept, hright, -, hinside⟩, -, -⟩ := h
  refine ⟨?_, fun r _ i part => ((hright r).buffer i part).pages, ?_, ?_,
    ?_⟩
  · intro r _ i part c hc
    obtain ⟨m, hm, hdma, hoff, hlen⟩ := ((hright r).buffer i part).mapped c hc
    obtain ⟨own, hheld⟩ := slicePool_held_of_slice p (r, i, part) hc
    obtain ⟨size, hsize, hle⟩ :=
      hinside c (hkept.held_cut (r, i, part) c own hheld)
    have hlen' : m.len = size := by
      have hget : (p.pages.maps.map Mapping.len)[c.page]? = some size :=
        hsize
      rw [List.getElem?_map, hm] at hget
      exact Option.some.inj hget
    refine ⟨m, hm, hdma, ?_⟩
    show ((p.rxRings r).rxOf i part).dmaOff
      + ((p.rxRings r).rxOf i part).dmaLen ≤ m.len
    rw [RxRing.rxOf, hoff, hlen, hlen']
    exact hle
  · exact hkept.after.imp fun hafter heq => Or.inr (hafter heq)
  · intro s s' hne c c' hc hc'
    obtain ⟨own, hs⟩ := slicePool_held_of_slice p s hc
    obtain ⟨own', hs'⟩ := slicePool_held_of_slice p s' hc'
    refine ⟨hkept.held_cut s c own hs, hkept.held_cut s' c' own' hs', ?_⟩
    rintro rfl
    exact hne (hkept.held_inj s s' c own own' hs hs')
  · intro page hpage
    have hlt : page < (slicePool p.pages p.rxRings).sizes.length := by
      show page < (p.pages.maps.map Mapping.len).length
      rwa [List.length_map]
    obtain ⟨hle, hiff⟩ := hkept.count_unmapped hlt
    refine ⟨hle, hiff.trans (and_congr ?_ Iff.rfl)⟩
    constructor
    · intro hclosed r part hpages
      refine hclosed ⟨(r, part), ⟨page, ((p.rxRings r).rxPa part).pagesLen,
        ((p.rxRings r).rxPa part).pagesOffset⟩, ?_, rfl⟩
      show ((p.rxRings r).rxPa part).leftover = _
      rw [PageAlloc.leftover, hpages]
      rfl
    · rintro hnone ⟨⟨r, part⟩, a, ha, rfl⟩
      refine hnone r part ?_
      have hleft : ((p.rxRings r).rxPa part).leftover = some a := ha
      rw [PageAlloc.leftover, Option.map_eq_some_iff] at hleft
      obtain ⟨page, hpages, rfl⟩ := hleft
      exact hpages

/-- In every run of an open device whose changes of the MTU find room for
the new length, the slices are right throughout. -/
theorem slices_right (ans : Answers) (rxRingCount : Nat)
    (heads : Nat → U64) (coal : Coalesce) (mtu : U32) (p : RxPdata)
    (hopen : RxPdata.opened ans rxRingCount heads coal mtu = some p)
    (acts : List RxAct)
    (hroom : Run.Each (RxPdata.step ans) RxPdata.KeepsRoom p acts) :
    Run.Always (RxPdata.step ans) RxPdata.SlicesRight p acts := by
  have hinv : Run.Always (RxPdata.step ans) RxPdata.Roomy p acts :=
    hroom.always (fun _ _ h hact => h.step hact ans)
      (RxPdata.roomy_opened hopen)
  exact hinv.mono fun _ h => h.slicesRight

/-- A device with one ring, opened at an MTU of 1500. -/
def RxPdata.one (ans : Answers) : RxPdata :=
  (allocated 1 (fun _ => 0x100000) ⟨0, 0⟩ 1536).start ans

theorem opened_one (ans : Answers) :
    RxPdata.opened ans 1 (fun _ => 0x100000) ⟨0, 0⟩ 1500
      = some (RxPdata.one ans) := by
  have hcalc : calcRxBufSize 1500 = some 1536 := by decide
  rw [RxPdata.opened, hcalc]
  rfl

/-- There is always memory. -/
def plenty : Answers where
  available _ _ := true
  mapPage n := some (BitVec.ofNat 64 (0x4000 * n))

theorem slices_right_run :
    Run.Always (RxPdata.step plenty) RxPdata.SlicesRight
      (RxPdata.one plenty) [.changeMtu 1400, .read 0, .restart] := by
  refine slices_right plenty 1 (fun _ => 0x100000) ⟨0, 0⟩ 1500
    (RxPdata.one plenty) (opened_one plenty) _
    ⟨?_, trivial, trivial, trivial⟩
  intro rxBufSize hcalc
  obtain rfl : 1536 = rxBufSize := by
    have hsize : calcRxBufSize 1400 = some 1536 := by decide
    rw [hsize] at hcalc
    exact Option.some.inj hcalc
  have hroom := (RxPdata.roomy_opened (opened_one plenty)).room
  have hkeep : (RxPdata.one plenty).rxBufSize = 1536 :=
    descInitFrom_rxBufSize
  rw [hkeep] at hroom
  exact hroom

end Runs

-- ===================================================== a raised MTU

section Raised

/-- Memory is short: there are single pages, and two together once, for
the second call. -/
def scarce : Answers where
  available n order := decide (order = 0 ∨ (order = 1 ∧ n = 1))
  mapPage n := some (BitVec.ofNat 64 (0x2000 * n))

/-- The length and the offset of what is left of a page. -/
def PageAlloc.span (pa : PageAlloc) : Option (Nat × Nat) :=
  pa.pages.map fun _ => (pa.pagesLen, pa.pagesOffset)

/-- What cutting a slice of 1536 leaves. -/
def cutSpan : Nat × Nat → Option (Nat × Nat)
  | (len, off) =>
      if off + 1536 + 1536 > len then none else some (len, off + 1536)

/-- What `mac_alloc_pages` finds at a call for a data buffer. -/
def scarceSpan (call : Nat) : Nat × Nat :=
  (if call = 1 then 8192 else 4096, 0)

/-- What is left for data buffers when `j` entries have been filled. -/
def spanAfter (j : Nat) : Option (Nat × Nat) :=
  if j = 0 then none
  else if j < 5 then some (8192, 1536 * j)
  else if j % 2 = 1 then none
  else some (4096, 1536)

theorem spanAfter_succ {j call : Nat} (h₀ : j = 0 → call = 1)
    (h₁ : 0 < j → 2 ≤ call) :
    cutSpan ((spanAfter j).getD (scarceSpan call)) = spanAfter (j + 1) := by
  by_cases hj : j = 0
  · obtain rfl := h₀ hj
    subst hj
    rfl
  · have hcall : call ≠ 1 := by
      have := h₁ (by omega)
      omega
    by_cases hlow : j < 5
    · by_cases hfour : j < 4
      · rw [spanAfter, if_neg hj, if_pos hlow, Option.getD_some, cutSpan,
          if_neg (by omega), spanAfter, if_neg (by omega),
          if_pos (by omega), Nat.mul_succ]
      · obtain rfl : j = 4 := by omega
        rfl
    · by_cases hodd : j % 2 = 1
      · have hnext : ¬ (j + 1) % 2 = 1 := by omega
        have hhigh : ¬ j + 1 < 5 := by omega
        simp [spanAfter, hj, hlow, hodd, hnext, hhigh, cutSpan, scarceSpan,
          hcall]
      · have hnext : (j + 1) % 2 = 1 := by omega
        have hhigh : ¬ j + 1 < 5 := by omega
        simp [spanAfter, hj, hlow, hodd, hnext, hhigh, cutSpan]

/-- There is always a page for a header buffer, and some pages for a data
buffer. -/
theorem scarce_allocPages (pg : Pages) {order : Nat}
    (horder : order = 0 ∨ order = bufOrder) :
    ∃ m : Mapping, allocPages scarce pg order
        = ({ pg with calls := pg.calls + 1, maps := pg.maps ++ [m] },
            some ⟨some pg.maps.length, m.len, 0, m.dma⟩)
      ∧ (order = bufOrder → m.len = (scarceSpan pg.calls).1) := by
  rcases horder with rfl | rfl
  · exact ⟨⟨_, pageSize <<< 0⟩, rfl, fun h => absurd h (by decide)⟩
  · by_cases hcall : pg.calls = 1
    · have htry : tryOrders (scarce.available pg.calls) bufOrder
          = some 1 := by
        simp [bufOrder, tryOrders, scarce, hcall]
      refine ⟨⟨BitVec.ofNat 64 (0x2000 * pg.calls), 8192⟩, ?_, fun _ => ?_⟩
      · rw [allocPages]
        dsimp only
        rw [htry]
        rfl
      · rw [scarceSpan, if_pos hcall]
    · have htry : tryOrders (scarce.available pg.calls) bufOrder
          = some 0 := by
        simp [bufOrder, tryOrders, scarce, hcall]
      refine ⟨⟨BitVec.ofNat 64 (0x2000 * pg.calls), 4096⟩, ?_, fun _ => ?_⟩
      · rw [allocPages]
        dsimp only
        rw [htry]
        rfl
      · rw [scarceSpan, if_neg hcall]

variable {pg : Pages} {ring : RxRing}

/-- `ensurePages` always succeeds. -/
theorem scarce_ensurePages (pg : Pages) (ring : RxRing) {part : Part}
    {order : Nat} (horder : order = 0 ∨ order = bufOrder) :
    ∃ pg' pa, ring.ensurePages scarce pg part order
        = (true, pg', { ring with
            rxPa := Function.update ring.rxPa part pa })
      ∧ (∃ page, pa.pages = some page)
      ∧ (ring.rxPa part = pa ∧ pg' = pg ∨ (ring.rxPa part).pages = none
        ∧ pg'.calls = pg.calls + 1
        ∧ (order = bufOrder → pa.span = some (scarceSpan pg.calls))) := by
  rw [RxRing.ensurePages]
  cases hpages : (ring.rxPa part).pages with
  | some page =>
      refine ⟨pg, ring.rxPa part, ?_, ⟨page, hpages⟩, Or.inl ⟨rfl, rfl⟩⟩
      rw [Function.update_eq_self]
      rfl
  | none =>
      obtain ⟨m, halloc, hlen⟩ := scarce_allocPages pg horder
      rw [halloc]
      refine ⟨_, _, rfl, ⟨_, rfl⟩, Or.inr ⟨rfl, rfl, fun hbuf => ?_⟩⟩
      rw [PageAlloc.span, hlen hbuf]
      rfl

/-- What is left of the pages a slice of 1536 was cut from. -/
theorem setBufferData_span (pg : Pages) (bd : BufferData)
    {pa : PageAlloc} {span : Nat × Nat} (hspan : pa.span = some span) :
    (setBufferData pg bd pa 1536).2.2.span = cutSpan span := by
  rw [PageAlloc.span, Option.map_eq_some_iff] at hspan
  obtain ⟨page, hpages, rfl⟩ := hspan
  simp only [setBufferData, cutSpan]
  split
  · rfl
  · rw [PageAlloc.span, hpages]
    rfl

theorem setBuffer_calls (pg : Pages) (ring : RxRing) (i : Nat)
    (part : Part) (len : Nat) :
    (ring.setBuffer pg i part len).1.calls = pg.calls := by
  simp only [RxRing.setBuffer, setBufferData]
  split <;> rfl

/-- How an entry is filled: with the pages there are, or with those of a
new call. -/
theorem scarce_both (rxBufSize : Nat) (pg : Pages) (ring : RxRing)
    (i : Nat) :
    ∃ pg₁ pa₁ pg₂ pa₂ ring₂ pg' ring',
      ring₂ = { ring with
          rxPa :=
            Function.update (Function.update ring.rxPa .hdr pa₁) .buf pa₂ }
      ∧ ring.mapRxBuffer scarce rxBufSize pg i = (true, pg', ring')
      ∧ pg'.calls = pg₂.calls
      ∧ ring' = ((ring₂.setBuffer pg₂ i .hdr skbAllocSize).2.setBuffer
          (ring₂.setBuffer pg₂ i .hdr skbAllocSize).1 i .buf rxBufSize).2
      ∧ (∃ page, pa₁.pages = some page) ∧ (∃ page, pa₂.pages = some page)
      ∧ (ring.rxPa .hdr = pa₁ ∧ pg₁ = pg
        ∨ (ring.rxPa .hdr).pages = none ∧ pg₁.calls = pg.calls + 1)
      ∧ (ring.rxPa .buf = pa₂ ∧ pg₂ = pg₁
        ∨ (ring.rxPa .buf).pages = none ∧ pg₂.calls = pg₁.calls + 1
          ∧ pa₂.span = some (scarceSpan pg₁.calls)) := by
  have hhdr := @scarce_ensurePages pg ring .hdr 0 (Or.inl rfl)
  obtain ⟨pg₁, pa₁, hok₁, hpage₁, hcall₁⟩ := hhdr
  have hbuf := @scarce_ensurePages pg₁
    { ring with rxPa := Function.update ring.rxPa .hdr pa₁ } .buf bufOrder
    (Or.inr rfl)
  obtain ⟨pg₂, pa₂, hok₂, hpage₂, hcall₂⟩ := hbuf
  have hsame : Function.update ring.rxPa .hdr pa₁ .buf = ring.rxPa .buf :=
    Function.update_of_ne (by decide) _ _
  dsimp only at hcall₂ hok₂
  rw [hsame] at hcall₂
  generalize hring₂ : ({ ring with
    rxPa := Function.update (Function.update ring.rxPa .hdr pa₁) .buf pa₂ } :
      RxRing) = ring₂ at hok₂
  refine ⟨pg₁, pa₁, pg₂, pa₂, ring₂,
    ((ring₂.setBuffer pg₂ i .hdr skbAllocSize).2.setBuffer
      (ring₂.setBuffer pg₂ i .hdr skbAllocSize).1 i .buf rxBufSize).1,
    _, hring₂.symm, ?_, ?_, rfl, hpage₁, hpage₂, ?_, ?_⟩
  · rw [RxRing.mapRxBuffer, hok₁]
    dsimp only
    rw [hok₂]
  · exact (setBuffer_calls _ _ i .buf rxBufSize).trans
      (setBuffer_calls _ _ i .hdr skbAllocSize)
  · rcases hcall₁ with hold | ⟨hnone, hnext, -⟩
    · exact Or.inl hold
    · exact Or.inr ⟨hnone, hnext⟩
  · rcases hcall₂ with hold | ⟨hnone, hnext, hspan⟩
    · exact Or.inl hold
    · exact Or.inr ⟨hnone, hnext, hspan rfl⟩

/-- Filling an entry cuts a slice from what is left, or from the pages of
a new call. -/
theorem scarce_mapRxBuffer (pg : Pages) (ring : RxRing) (i : Nat) :
    ∃ pg' ring', ring.mapRxBuffer scarce 1536 pg i = (true, pg', ring')
      ∧ ∃ call, (ring'.rxPa .buf).span
          = cutSpan ((ring.rxPa .buf).span.getD (scarceSpan call))
        ∧ ((ring.rxPa .hdr).pages = none → call = pg.calls + 1)
        ∧ pg.calls ≤ call ∧ call ≤ pg'.calls
        ∧ ((ring.rxPa .buf).pages = none → call < pg'.calls) := by
  obtain ⟨pg₁, pa₁, pg₂, pa₂, ring₂, pg', ring', hring₂, hmap, hcalls,
    hring', ⟨page₁, hpage₁⟩, ⟨page₂, hpage₂⟩, hcall₁, hcall₂⟩ :=
    scarce_both 1536 pg ring i
  have hspan : pa₂.span
      = some ((ring.rxPa .buf).span.getD (scarceSpan pg₁.calls)) := by
    rcases hcall₂ with ⟨heq, -⟩ | ⟨hnone, -, hnew⟩
    · rw [heq, PageAlloc.span, hpage₂]
      rfl
    · rw [hnew, PageAlloc.span, hnone]
      rfl
  refine ⟨pg', ring', hmap, pg₁.calls, ?_, ?_, ?_, ?_, ?_⟩
  · have hbuf : ring₂.rxPa .buf = pa₂ := by
      rw [hring₂]
      dsimp only
      rw [Function.update_self]
    rw [hring', setBuffer_eq, withBuffers_rxPa, Function.update_self,
      setBuffer_hdr_buf, hbuf]
    exact setBufferData_span _ _ hspan
  · intro hnone
    rcases hcall₁ with ⟨heq, -⟩ | ⟨-, hnext⟩
    · rw [heq, hpage₁] at hnone
      exact absurd hnone (by simp)
    · exact hnext
  · rcases hcall₁ with ⟨-, rfl⟩ | ⟨-, hnext⟩
    · exact Nat.le_refl _
    · omega
  · rw [hcalls]
    rcases hcall₂ with ⟨-, rfl⟩ | ⟨-, hnext, -⟩
    · exact Nat.le_refl _
    · omega
  · intro hnone
    rw [hcalls]
    rcases hcall₂ with ⟨heq, -⟩ | ⟨-, hnext, -⟩
    · rw [heq, hpage₂] at hnone
      exact absurd hnone (by simp)
    · omega

theorem scarce_fills {left j : Nat} :
    RxRing.Fills scarce 1536 left j pg ring := by
  induction left generalizing j pg ring with
  | zero => trivial
  | succ left ih =>
      obtain ⟨pg', ring', hmap, -⟩ :=
        scarce_mapRxBuffer pg (ring.setDmaDesc j) j
      exact ⟨by rw [hmap], ih⟩

/-- What is left when the entries from `j` on have been filled. -/
theorem scarce_fillFrom {left j : Nat}
    (h₀ : j = 0 → (ring.rxPa .hdr).pages = none ∧ pg.calls = 0)
    (h₁ : 0 < j → 2 ≤ pg.calls)
    (hspan : (ring.rxPa .buf).span = spanAfter j) :
    ((ring.fillFrom scarce 1536 left j pg).2.rxPa .buf).span
      = spanAfter (j + left) := by
  induction left generalizing j pg ring with
  | zero => exact hspan
  | succ left ih =>
      obtain ⟨pg', ring', hmap, call, hspan', hfirst, hle, hle', hlt⟩ :=
        scarce_mapRxBuffer pg (ring.setDmaDesc j) j
      rw [RxRing.fillFrom, hmap]
      dsimp only
      have hbuf : ((ring.setDmaDesc j).rxPa .buf).span = spanAfter j := hspan
      have hnext : (ring'.rxPa .buf).span = spanAfter (j + 1) := by
        rw [hspan', hbuf]
        refine spanAfter_succ (fun hj => ?_) fun hj => ?_
        · rw [hfirst (h₀ hj).1, (h₀ hj).2]
        · exact Nat.le_trans (h₁ hj) hle
      have hcalls : 2 ≤ pg'.calls := by
        by_cases hj : j = 0
        · have hcall := hfirst (h₀ hj).1
          have hnone : ((ring.setDmaDesc j).rxPa .buf).pages = none := by
            rw [hj, PageAlloc.span] at hbuf
            exact Option.map_eq_none_iff.1 hbuf
          have := hlt hnone
          omega
        · have := h₁ (by omega)
          omega
      rw [ih (fun h => absurd h (by omega)) (fun _ => hcalls) hnext]
      congr 1
      omega

/-- One ring is initialised. -/
theorem descInitFrom_one (ans : Answers) (p : RxPdata) :
    (p.descInitFrom ans 1 0).rxRings 0
        = ((p.rxRings 0).descInit ans p.coal p.rxBufSize p.pages).2.2
      ∧ (((p.rxRings 0).descInit ans p.coal p.rxBufSize p.pages).1 = true →
        (p.descInitFrom ans 1 0).oops = p.oops) := by
  refine ⟨descInitFrom_self, fun halive => ?_⟩
  have hoops : (p.setRing 0 ((p.rxRings 0).descInit ans p.coal p.rxBufSize
      p.pages)).oops = p.oops := by
    show (p.oops || !_) = p.oops
    rw [halive]
    simp
  rw [RxPdata.descInitFrom]
  split
  · exact hoops
  · exact hoops

/-- An entry is handed to the NIC with a slice that ends behind its
mapping. -/
def RxPdata.Outside (p : RxPdata) : Prop :=
  ∃ r, r < p.rxRingCount ∧ ∃ i part c,
    ((p.rxRings r).rxOf i part).slice = some c
      ∧ ∀ m, p.pages.maps[c.page]? = some m →
        m.len < ((p.rxRings r).rxOf i part).dmaOff
          + ((p.rxRings r).rxOf i part).dmaLen

theorem RxPdata.SlicesRight.not_outside {p : RxPdata}
    (h : p.SlicesRight) : ¬ p.Outside := by
  rintro ⟨r, hr, i, part, c, hc, hout⟩
  obtain ⟨m, hm, -, hle⟩ := h.inside r hr i part c hc
  have hlt := hout m hm
  omega

theorem one_eq (ans : Answers) :
    RxPdata.one ans = (RxPdata.allocated 1 (fun _ => 0x100000) ⟨0, 0⟩
      1536).descInitFrom ans 1 0 := rfl

/-- A run is not right that ends with a slice outside its page. -/
theorem RxPdata.Outside.not_always {ans : Answers} {p : RxPdata}
    {act : RxAct} (h : (p.step ans act).Outside) :
    ¬ Run.Always (RxPdata.step ans) RxPdata.SlicesRight p [act] :=
  fun hrun => hrun.2.not_outside h

/-- After the device with one ring was opened, 1536 bytes of a single
page are used up. -/
theorem scarce_one :
    (((RxPdata.one scarce).rxRings 0).rxPa .buf).span = some (4096, 1536)
      ∧ (RxPdata.one scarce).oops = false
      ∧ (RxPdata.one scarce).rxRingCount = 1
      ∧ ((RxPdata.one scarce).rxRings 0).dmaDescCount = 4096 := by
  have hfresh : ((RxPdata.allocated 1 (fun _ => 0x100000) ⟨0, 0⟩
      1536).rxRings 0).dmaDescCount = 4096 := by
    show rxDescCnt = 4096
    rw [rxDescCnt]
  rw [one_eq]
  generalize hp : RxPdata.allocated 1 (fun _ => 0x100000) ⟨0, 0⟩ 1536 = p
    at hfresh
  have hsize : p.rxBufSize = 1536 := by rw [← hp]; rfl
  have hcalls : p.pages.calls = 0 := by rw [← hp]; rfl
  have hpa : (p.rxRings 0).rxPa = fun _ => .zero := by rw [← hp]; rfl
  have hcount : p.rxRingCount = 1 := by rw [← hp]; rfl
  have hoops₀ : p.oops = false := by rw [← hp]; rfl
  obtain ⟨hring, hoops⟩ := descInitFrom_one scarce p
  refine ⟨?_, ?_, descInitFrom_rxRingCount.trans hcount, ?_⟩
  · rw [hring, (descInit_buffers p.coal).2.1, hsize, hfresh]
    refine (scarce_fillFrom (fun _ => ⟨by rw [hpa]; rfl, hcalls⟩)
      (fun h => absurd h (Nat.lt_irrefl 0)) (by rw [hpa]; rfl)).trans ?_
    decide
  · rw [hoops, hoops₀]
    refine descInit_alive p.coal ?_
    rw [hsize]
    exact scarce_fills
  · rw [hring, descInit_dmaDescCount, hfresh]

/-- When a ring has 1536 bytes of a single page used up and the MTU is
raised to 9000, the first data buffer ends behind the page. -/
theorem outside_of_span {p : RxPdata} (hroomy : p.Roomy)
    (hspan : ((p.rxRings 0).rxPa .buf).span = some (4096, 1536))
    (hoops : p.oops = false) (hrings : p.rxRingCount = 1)
    (hcount : (p.rxRings 0).dmaDescCount = 4096) :
    (p.step scarce (.changeMtu 9000)).Outside := by
  obtain ⟨page, hpage, hlenoff⟩ := Option.map_eq_some_iff.1 hspan
  obtain ⟨hlen, hoff⟩ := Prod.mk.inj hlenoff
  have hcalc : calcRxBufSize 9000 = some 4096 := by decide
  have hstep : p.step scarce (.changeMtu 9000)
      = ({ p with rxBufSize := 4096 } : RxPdata).restartDev scarce := by
    unfold RxPdata.step
    rw [if_neg (by rw [hoops]; decide)]
    dsimp only
    rw [RxPdata.changeMtu, hcalc]
  have hsize : SizeOk 4096 := ⟨by decide, by decide⟩
  have hinv : ({ p with rxBufSize := 4096 } : RxPdata).Inv
      fun _ => True :=
    ⟨⟨hroomy.sound.kept, hroomy.sound.right, trivial⟩, hsize,
      hroomy.absent⟩
  rw [hstep]
  generalize hp₁ : ({ p with rxBufSize := 4096 } : RxPdata) = p₁ at hinv
  have hsize₁ : p₁.rxBufSize = 4096 := by rw [← hp₁]
  have hrings₁ : p₁.rxRingCount = 1 := by rw [← hp₁, hrings]
  have hpa₁ : (p₁.rxRings 0).rxPa = (p.rxRings 0).rxPa := by rw [← hp₁]
  have hcount₁ : (p₁.rxRings 0).dmaDescCount = 4096 := by
    rw [← hp₁, hcount]
  obtain ⟨hinv', -⟩ := hinv.restartDev (SlicePool.steady_true _ _) scarce
  have hrestart : p₁.restartDev scarce
      = (p₁.freeRxDataFrom 1 0).descInitFrom scarce 1 0 := by
    rw [RxPdata.restartDev, RxPdata.start, freeRxDataFrom_frame.2.1, hrings₁]
  rw [hrestart] at hinv' ⊢
  generalize hq : p₁.freeRxDataFrom 1 0 = q at hinv'
  obtain ⟨hqsize, hqrings, hqpa⟩ := @freeRxDataFrom_frame p₁ 1 0
  rw [hq] at hqsize hqrings hqpa
  have hqcount : (q.rxRings 0).dmaDescCount = 4095 + 1 := by
    rw [← hq, freeRxDataFrom_dmaDescCount, hcount₁]
  have hqpage : ((q.rxRings 0).rxPa .buf).pages = some page := by
    rw [(hqpa 0).1, hpa₁, hpage]
  have hbd : ((q.descInitFrom scarce 1 0).rxRings 0).rxOf 0 .buf
      = (setBufferData q.pages ((q.rxRings 0).rxOf 0 .buf)
          ((q.rxRings 0).rxPa .buf) 4096).2.1 := by
    rw [(descInitFrom_one scarce q).1, RxRing.rxOf,
      (descInit_buffers q.coal).2.2, hqsize, hsize₁, hqcount]
    obtain ⟨_, _, _, _, _, pg', ring', -, hmap, -⟩ :=
      scarce_both 4096 q.pages ((q.rxRings 0).setDmaDesc 0) 0
    exact fillFrom_leftover hqpage 4095 (by rw [hmap])
  rw [setBufferData_bd, (hqpa 0).1, hpa₁, hlen, hoff, hpage] at hbd
  have hright := ((hinv'.sound.right 0).buffer 0 .buf).pages
  rw [show (((q.descInitFrom scarce 1 0).rxRings 0).descDataHead 0).rx .buf
    = _ from hbd] at hright
  obtain ⟨m, hm, -, hmlen⟩ := hright page (by rw [if_pos (by decide)])
  refine ⟨0, ?_, 0, .buf, ⟨page, 1536, 4096⟩, ?_, fun m' hm' => ?_⟩
  · rw [descInitFrom_rxRingCount, hqrings, hrings₁]
    exact Nat.zero_lt_one
  · rw [hbd]
    rfl
  · obtain rfl : m = m' := Option.some.inj (hm.symm.trans hm')
    rw [if_pos (by decide)] at hmlen
    rw [hbd]
    dsimp only at hmlen ⊢
    omega

/-- A device is opened at an MTU of 1500, which is then raised. -/
theorem raised_mtu_outside :
    ∃ p, RxPdata.opened scarce 1 (fun _ => 0x100000) ⟨0, 0⟩ 1500 = some p
      ∧ ¬ Run.Always (RxPdata.step scarce) RxPdata.SlicesRight p
        [.changeMtu 9000] := by
  obtain ⟨hspan, hoops, hrings, hcount⟩ := scarce_one
  have hroomy := RxPdata.roomy_opened (opened_one scarce)
  have hopen := opened_one scarce
  generalize RxPdata.one scarce = p at hspan hoops hrings hcount hroomy hopen
  have hout := outside_of_span hroomy hspan hoops hrings hcount
  exact ⟨p, hopen, hout.not_always⟩

end Raised

end BxRnic.Mac
