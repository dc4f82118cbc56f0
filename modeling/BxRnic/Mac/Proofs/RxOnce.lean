/-
Is every receive descriptor processed once, and has what the NIC owns its
buffers?

# When it is

A device whose rings are filled when they are initialised has them in turn
(`RxPdata.Running`), and so they stay while polls and refills and the NIC
take their steps, as long as no poll reads a ring all of whose entries
wait for refill.

# When it is not

Filling may stop at any entry, but all entries are given to the NIC
(`RxPdata.Shorted`). `dev_read` takes any descriptor the NIC does not own,
also one that was read before (`Turning.reads_twice`). And the buffers of
a raised MTU may not fit into what is left of a page
(`RxPdata.TurningTo.restart_room`).
-/
import BxRnic.Mac.Proofs.RxArming
import BxRnic.Mac.Proofs.RxPages

namespace BxRnic.Mac

-- ============================================================ the device

/-- Every ring gets the buffers for all its entries. -/
def RxPdata.FillsFrom (ans : Answers) : (left r : Nat) → RxPdata → Prop
  | 0, _, _ => True
  | left + 1, r, p =>
      (p.rxRings r).Fills ans p.rxBufSize (p.rxRings r).dmaDescCount 0
          p.pages
        ∧ (p.setRing r ((p.rxRings r).descInit ans p.coal p.rxBufSize
            p.pages)).FillsFrom ans left (r + 1)

/-- The rings before `r` are in turn, and the others have no buffers. -/
structure RxPdata.TurningTo (p : RxPdata) (r : Nat) : Prop where
  inv : p.Inv TurnPool
  alive : p.oops = false
  sized : ∀ r', (p.rxRings r').dmaDescCount = rxDescCnt
  turning : ∀ r', r' < r →
    ∃ d c, (p.rxRings r').InTurn d c ∧ (p.rxRings r').Stocked d c
  clear : ∀ r', r ≤ r' → ∀ i, (p.rxRings r').Clear i
  told : ∀ r', r ≤ r' → ∀ i, i < rxDescCnt → (p.rxRings r').Told i

section Device

variable {ans : Answers} {p : RxPdata} {r left : Nat}

/-- A call on a ring that leaves it in turn. -/
theorem RxPdata.TurningTo.setRing {n d c : Nat} (h : p.TurningTo n)
    (hr : r < p.rxRingCount) {out : Bool × Pages × RxRing}
    (halive : out.1 = true)
    (hout : Turning out.2.1 p.rxRings r out.2.2 d c)
    {n' : Nat} (hn : ∀ r', r' < n' → r' < n ∨ r' = r)
    (hn' : n ≤ n') (hrn : r < n') : (p.setRing r out).TurningTo n' where
  inv := h.inv.setRing hr hout.sound
  alive := by
    show (p.oops || !out.1) = false
    rw [h.alive, halive]
    rfl
  sized r' := by
    by_cases hr' : r' = r
    · rw [hr', setRing_self]
      exact hout.turn.sized
    · rw [setRing_other p out hr']
      exact h.sized r'
  turning r' hr' := by
    by_cases heq : r' = r
    · rw [heq, setRing_self]
      exact ⟨d, c, hout.turn, hout.stock⟩
    · rw [setRing_other p out heq]
      exact h.turning r' ((hn r' hr').resolve_right heq)
  clear r' hr' i := by
    rw [setRing_other p out (by omega)]
    exact h.clear r' (by omega) i
  told r' hr' i hi := by
    rw [setRing_other p out (by omega)]
    exact h.told r' (by omega) i hi

theorem RxPdata.TurningTo.at {n : Nat} (h : p.TurningTo n) (hr : r < n) :
    ∃ d c, Turning p.pages p.rxRings r (p.rxRings r) d c := by
  obtain ⟨d, c, hturn, hstock⟩ := h.turning r hr
  exact ⟨d, c, h.inv.at r, hturn, hstock⟩

/-- A ring without buffers is filled and initialised. -/
theorem RxPdata.TurningTo.initNext (h : p.TurningTo r)
    (hr : r < p.rxRingCount)
    (hfills : (p.rxRings r).Fills ans p.rxBufSize
      (p.rxRings r).dmaDescCount 0 p.pages) :
    (p.setRing r ((p.rxRings r).descInit ans p.coal p.rxBufSize
      p.pages)).TurningTo (r + 1) := by
  have hempty : Filling p.pages p.rxRings r (p.rxRings r) 0 :=
    { sound := h.inv.at r
      known := fun i hi => absurd hi (Nat.not_lt_zero i)
      filled := fun i hi => absurd hi (Nat.not_lt_zero i)
      inOrder := fun _ _ i' _ _ _ hi' => absurd hi' (Nat.not_lt_zero i')
      clear := fun i _ => h.clear r le_rfl i }
  obtain ⟨halive, hturning⟩ :=
    hempty.descInit h.inv.size (h.sized r) p.coal hfills
  exact h.setRing hr halive hturning (fun r' hr' => by omega)
    (Nat.le_succ r) (Nat.lt_succ_self r)

theorem RxPdata.TurningTo.descInitFrom (h : p.TurningTo r)
    (hr : r + left ≤ p.rxRingCount) (hfills : p.FillsFrom ans left r) :
    (p.descInitFrom ans left r).TurningTo (r + left) := by
  induction left generalizing r p with
  | zero => exact h
  | succ left ih =>
    obtain ⟨hfirst, hrest⟩ := hfills
    have hnext := h.initNext (by omega) hfirst
    have hend : r + (left + 1) = r + 1 + left := by omega
    rw [RxPdata.descInitFrom, if_neg (by rw [hnext.alive]; decide), hend]
    exact ih hnext (by show r + 1 + left ≤ p.rxRingCount; omega) hrest

-- ---------------------------------------------------- rings not filled

/-- The NIC owns a descriptor that has no buffers. -/
def RxPdata.Shorted (p : RxPdata) : Prop :=
  ∃ r, r < p.rxRingCount ∧ ∃ i, i < (p.rxRings r).dmaDescCount
    ∧ ((p.rxRings r).dmaDescs i).own = true ∧ (p.rxRings r).Clear i

/-- A ring that is not filled is handed over as it is. -/
theorem RxPdata.TurningTo.descInitFrom_stops (h : p.TurningTo r)
    (hr : r + left ≤ p.rxRingCount) (hstops : ¬ p.FillsFrom ans left r) :
    (p.descInitFrom ans left r).Shorted := by
  induction left generalizing r p with
  | zero => exact absurd trivial hstops
  | succ left ih =>
    by_cases hfirst : (p.rxRings r).Fills ans p.rxBufSize
      (p.rxRings r).dmaDescCount 0 p.pages
    · have hnext := h.initNext (by omega) hfirst
      rw [RxPdata.descInitFrom, if_neg (by rw [hnext.alive]; decide)]
      exact ih hnext (by show r + 1 + left ≤ p.rxRingCount; omega)
        fun hrest => hstops ⟨hfirst, hrest⟩
    · obtain ⟨i, hi, hown, hclear⟩ := descInit_stops p.coal
        (h.clear r le_rfl) (fun i hi => h.told r le_rfl i (by
          rwa [h.sized r] at hi)) hfirst
      refine ⟨r, ?_, i, ?_⟩
      · rw [descInitFrom_rxRingCount]
        omega
      · rw [descInitFrom_self]
        exact ⟨by rwa [descInit_dmaDescCount], hown, hclear⟩

/-- The first data buffer of a ring that has pages left is cut from
these. -/
theorem RxPdata.TurningTo.descInitFrom_leftover {r' page : Nat}
    (h : p.TurningTo r) (hr : r + left ≤ p.rxRingCount)
    (hfills : p.FillsFrom ans left r) (hlo : r ≤ r') (hhi : r' < r + left)
    (hpage : ((p.rxRings r').rxPa .buf).pages = some page) (pg : Pages) :
    (((p.descInitFrom ans left r).rxRings r').dmaDescs 0).own = true
      ∧ ((p.descInitFrom ans left r).rxRings r').rxOf 0 .buf
        = (setBufferData pg .zero ((p.rxRings r').rxPa .buf)
            p.rxBufSize).2.1 := by
  induction left generalizing r p with
  | zero => omega
  | succ left ih =>
    obtain ⟨hfirst, hrest⟩ := hfills
    rcases Nat.eq_or_lt_of_le hlo with rfl | hlt
    · have hpos : 0 < (p.rxRings r).dmaDescCount := by
        rw [h.sized r]
        exact rxDescCnt_pos
      rw [descInitFrom_self]
      refine ⟨(descInit_armed_of_fills p.coal hfirst hpos).own, ?_⟩
      obtain ⟨left', hcount⟩ := Nat.exists_eq_add_of_lt hpos
      rw [Nat.zero_add] at hcount
      rw [hcount] at hfirst
      rw [RxRing.rxOf, (descInit_buffers p.coal).2.2, hcount]
      refine (fillFrom_leftover hpage left' hfirst.1).trans ?_
      have hzero : (p.rxRings r).rxOf 0 .buf = .zero :=
        h.clear r le_rfl 0 .buf
      rw [hzero, setBufferData_bd, setBufferData_bd]
    · have hnext := h.initNext (by omega) hfirst
      have hring : ((p.setRing r ((p.rxRings r).descInit ans p.coal
          p.rxBufSize p.pages)).rxRings r') = p.rxRings r' :=
        setRing_other p _ (Nat.ne_of_gt hlt)
      rw [RxPdata.descInitFrom, if_neg (by rw [hnext.alive]; decide),
        ← hring]
      exact ih hnext (by show r + 1 + left ≤ p.rxRingCount; omega) hrest hlt
        (by omega) (by rwa [hring])

-- ------------------------------------------------------------- freeing

theorem freeRxDataFrom_oops :
    (p.freeRxDataFrom left r).oops = p.oops := by
  induction left generalizing r p with
  | zero => rfl
  | succ left ih =>
    rw [RxPdata.freeRxDataFrom, ih]
    exact Bool.or_false _

/-- Freeing the rings clears all of their entries, and no others. -/
theorem freeRxDataFrom_rxOf (r' i : Nat) :
    ((p.freeRxDataFrom left r).rxRings r').rxOf i
      = if (r ≤ r' ∧ r' < r + left) ∧ i < (p.rxRings r').dmaDescCount then
          fun _ => .zero
        else (p.rxRings r').rxOf i := by
  induction left generalizing r p with
  | zero => rw [if_neg (by omega)]; rfl
  | succ left ih =>
    rw [RxPdata.freeRxDataFrom, ih]
    by_cases hr : r' = r
    · subst hr
      rw [setRing_self, if_neg (by omega)]
      dsimp only
      rw [freeFrom_rxOf]
      by_cases hi : i < (p.rxRings r').dmaDescCount
      · rw [if_pos (by omega), if_pos (by omega)]
      · rw [if_neg (by omega), if_neg (by omega)]
    · rw [setRing_other p _ hr]
      by_cases hin : (r ≤ r' ∧ r' < r + (left + 1))
          ∧ i < (p.rxRings r').dmaDescCount
      · rw [if_pos hin, if_pos (by omega)]
      · rw [if_neg hin, if_neg (by omega)]

theorem freeFrom_dmaDesc {ring : RxRing} {pg : Pages} {j : Nat} (i : Nat) :
    ((ring.freeFrom left j pg).2.descDataHead i).dmaDesc
      = (ring.descDataHead i).dmaDesc := by
  induction left generalizing j pg ring with
  | zero => rfl
  | succ left ih =>
    rw [RxRing.freeFrom]
    dsimp only
    rw [ih, RxRing.unmapDescData]
    dsimp only
    by_cases hi : i = j
    · rw [hi, Function.update_self]
    · rw [Function.update_of_ne hi]

/-- The entries go on knowing their descriptors. -/
theorem freeRxDataFrom_dmaDesc (r' i : Nat) :
    (((p.freeRxDataFrom left r).rxRings r').descDataHead i).dmaDesc
      = ((p.rxRings r').descDataHead i).dmaDesc := by
  induction left generalizing r p with
  | zero => rfl
  | succ left ih =>
    rw [RxPdata.freeRxDataFrom, ih]
    by_cases hr : r' = r
    · rw [hr, setRing_self]
      exact freeFrom_dmaDesc i
    · rw [setRing_other p _ hr]

/-- What else is asked of the pool may be less. -/
theorem RxPdata.Inv.mono {Q Q' : SlicePool (Nat × Part) Slot → Prop}
    (h : p.Inv Q) (hQ : ∀ pool, Q pool → Q' pool) : p.Inv Q' :=
  ⟨⟨h.sound.kept, h.sound.right, hQ _ h.sound.also⟩, h.size, h.absent⟩

/-- All rings are freed, in whatever order the slices were cut. -/
theorem RxPdata.TurningTo.free (h : p.TurningTo p.rxRingCount) :
    (p.freeRxDataFrom p.rxRingCount 0).TurningTo 0 := by
  have hhomed : p.Inv (SlicePool.Homed slotKey) := h.inv.mono fun _ hQ => hQ.2
  have hfree := hhomed.freeRxDataFrom
    (SlicePool.steady_homed slotKey (partLen p.rxBufSize))
    (Nat.le_of_eq (Nat.zero_add _))
  have hclear : ∀ r i, ((p.freeRxDataFrom p.rxRingCount 0).rxRings
      r).Clear i := by
    intro r i part
    have hrx := @freeRxDataFrom_rxOf p 0 p.rxRingCount r i
    show ((p.freeRxDataFrom p.rxRingCount 0).rxRings r).rxOf i part = .zero
    rw [hrx]
    split
    · rfl
    · next hout =>
      by_cases hr : r < p.rxRingCount
      · obtain ⟨d, c, -, hstock⟩ := h.turning r hr
        have hi : rxDescCnt ≤ i := by
          rw [h.sized r] at hout
          omega
        exact hstock.beyond i hi part
      · exact h.clear r (Nat.le_of_not_lt hr) i part
  have hfifo : (slicePool (p.freeRxDataFrom p.rxRingCount 0).pages
      (p.freeRxDataFrom p.rxRingCount 0).rxRings).Fifo := by
    intro s c own hheld
    have hzero := hclear s.1 s.2.1 s.2.2
    change ((((p.freeRxDataFrom p.rxRingCount 0).rxRings
      s.1).descDataHead s.2.1).rx s.2.2).held = some (c, own) at hheld
    rw [hzero] at hheld
    exact nomatch hheld
  exact
    { inv := ⟨⟨hfree.sound.kept, hfree.sound.right,
        hfifo, hfree.sound.also⟩, hfree.size, hfree.absent⟩
      alive := freeRxDataFrom_oops.trans h.alive
      sized := fun r => (freeRxDataFrom_dmaDescCount r).trans (h.sized r)
      turning := fun r hr => absurd hr (Nat.not_lt_zero r)
      clear := fun r _ i => hclear r i
      told := fun r _ i hi => by
        unfold RxRing.Told
        rw [freeRxDataFrom_dmaDesc]
        by_cases hr : r < p.rxRingCount
        · obtain ⟨d, c, -, hstock⟩ := h.turning r hr
          exact Or.inr (hstock.known i hi).1
        · exact h.told r (Nat.le_of_not_lt hr) i hi }

end Device

-- ================================================================= the runs

/-- A descriptor with its address and with mapped buffers. -/
structure RxRing.Ready (pg : Pages) (ring : RxRing) (i : Nat) : Prop where
  known : ring.Known i
  armed : ring.Armed i
  mapped : ∀ part, ∃ c m, (ring.rxOf i part).slice = some c
    ∧ pg.maps[c.page]? = some m ∧ c.page ∉ pg.unmaps
    ∧ (ring.rxOf i part).dmaBase = m.dma
    ∧ (ring.rxOf i part).dmaOff + (ring.rxOf i part).dmaLen ≤ m.len

/-- What is meant to hold of a ring. -/
structure RxRing.Once (pg : Pages) (ring : RxRing) : Prop where
  dirty_le : (ring.cur - ring.dirty).toNat ≤ ring.dmaDescCount
  /-- The first so many that the NIC has completed, each once. -/
  consumed : ∃ n ≤ ring.completed, ring.consumed = (List.range n).map some
  /-- Nothing is given back that has not been consumed. -/
  returned : ring.returned <+: ring.consumed
  ready : ∀ i, i < ring.dmaDescCount → (ring.dmaDescs i).own = true →
    ring.Ready pg i

/-- What is meant to hold of the device. -/
structure RxPdata.Once (p : RxPdata) : Prop where
  alive : p.oops = false
  ring : ∀ r, r < p.rxRingCount → (p.rxRings r).Once p.pages

/-- A device whose rings are in turn, and whose leftovers have room. -/
structure RxPdata.Running (p : RxPdata) : Prop where
  roomy : p.Roomy
  turning : p.TurningTo p.rxRingCount

/-- `mac_restart_dev` fills every ring. -/
def RxPdata.RestartFills (ans : Answers) (p : RxPdata) : Prop :=
  (p.freeRxDataFrom p.rxRingCount 0).FillsFrom ans p.rxRingCount 0

/-- Rings are filled when they are initialised, there is room for the
buffers of a changed MTU, and no poll reads a ring all of whose entries
wait for refill. -/
def RxPdata.Supplied (ans : Answers) (p : RxPdata) : RxAct → Prop
  | .restart => p.RestartFills ans
  | .changeMtu mtu => ∀ rxBufSize, calcRxBufSize mtu = some rxBufSize →
      p.Room rxBufSize
        ∧ RxPdata.RestartFills ans { p with rxBufSize := rxBufSize }
  | .read r => r < p.rxRingCount →
      (p.rxRings r).ReadsRoom ans p.rxBufSize p.pages
  | .refresh _ => True
  | .complete _ _ => True

section Runs

variable {ans : Answers} {p : RxPdata} {r : Nat}

-- ------------------------------------------- what the invariant says

/-- A descriptor that the NIC owns has its buffers. -/
theorem RxPdata.Running.ready (h : p.Running) (hr : r < p.rxRingCount)
    {i : Nat} (hi : i < (p.rxRings r).dmaDescCount)
    (hown : ((p.rxRings r).dmaDescs i).own = true) :
    (p.rxRings r).Ready p.pages i := by
  obtain ⟨d, c, hturning⟩ := h.turning.at hr
  rw [h.turning.sized r] at hi
  obtain ⟨j, hlo, hhi, rfl⟩ := lap_surj d hi
  rw [hturning.turn.own j hlo hhi] at hown
  have hcompleted : (p.rxRings r).completed ≤ j := of_decide_eq_true hown
  have hread := hturning.turn.consumed_le
  refine ⟨hturning.stock.known _ hi,
    hturning.stock.armed j hcompleted hhi, fun part => ?_⟩
  obtain ⟨c', hslice⟩ := hturning.stock.filled j (by omega) hhi part
  obtain ⟨m, hm, hbase, hinside⟩ :=
    h.roomy.slicesRight.inside r hr (j % rxDescCnt) part c' hslice
  obtain ⟨own, hheld⟩ :=
    slicePool_held_of_slice p (r, j % rxDescCnt, part) hslice
  have hmapped : c'.page ∉ p.pages.unmaps :=
    SlicePool.Fifo.mapped h.turning.inv.sound.also.1
      h.turning.inv.sound.kept hheld
  exact ⟨c', m, hslice, hm, hmapped, hbase, hinside⟩

theorem RxPdata.Running.once (h : p.Running) : p.Once where
  alive := h.turning.alive
  ring r hr := by
    obtain ⟨d, c, hturning⟩ := h.turning.at hr
    obtain ⟨hcount, hle⟩ := hturning.turn.dirty_count
    refine ⟨?_, ⟨c, hturning.turn.consumed_le, hturning.turn.consumed⟩, ?_,
      fun i hi hown => h.ready hr hi hown⟩
    · rw [hcount, hturning.turn.sized]
      exact hle
    · rw [hturning.turn.returned, hturning.turn.consumed]
      obtain ⟨n, rfl⟩ := Nat.exists_eq_add_of_le hturning.turn.returned_le
      rw [List.range_add, List.map_append]
      exact List.prefix_append _ _

-- ------------------------------------------- steps that are supplied

/-- A step on a ring that leaves it in turn. -/
theorem RxPdata.TurningTo.onRing (h : p.TurningTo p.rxRingCount)
    (hr : r < p.rxRingCount) {out : Bool × Pages × RxRing}
    (halive : out.1 = true)
    (hout : ∃ d c, Turning out.2.1 p.rxRings r out.2.2 d c) :
    (p.setRing r out).TurningTo (p.setRing r out).rxRingCount := by
  obtain ⟨d, c, hturning⟩ := hout
  exact h.setRing hr halive hturning (fun r' hr' => Or.inl hr') le_rfl hr

theorem restartDev_rxRingCount :
    (p.restartDev ans).rxRingCount = p.rxRingCount :=
  descInitFrom_rxRingCount.trans freeRxDataFrom_frame.2.1

theorem restartDev_eq :
    p.restartDev ans = (p.freeRxDataFrom p.rxRingCount 0).descInitFrom ans
      p.rxRingCount 0 := by
  rw [RxPdata.restartDev, RxPdata.start, freeRxDataFrom_frame.2.1]

/-- After `mac_free_rx_data` the rings can be initialised. -/
theorem RxPdata.TurningTo.freed (h : p.TurningTo p.rxRingCount) :
    (p.freeRxDataFrom p.rxRingCount 0).TurningTo 0
      ∧ 0 + p.rxRingCount
        ≤ (p.freeRxDataFrom p.rxRingCount 0).rxRingCount := by
  refine ⟨h.free, ?_⟩
  rw [freeRxDataFrom_frame.2.1, Nat.zero_add]

theorem RxPdata.TurningTo.restartDev (h : p.TurningTo p.rxRingCount)
    (hfills : p.RestartFills ans) :
    (p.restartDev ans).TurningTo (p.restartDev ans).rxRingCount := by
  obtain ⟨hfree, hle⟩ := h.freed
  have hinit := hfree.descInitFrom hle hfills
  rw [restartDev_rxRingCount, restartDev_eq]
  rw [Nat.zero_add] at hinit
  exact hinit

/-- Another length is about the buffers that are cut later. -/
theorem RxPdata.TurningTo.withSize {n : Nat} (h : p.TurningTo n)
    {rxBufSize : Nat} (hsize : SizeOk rxBufSize) :
    RxPdata.TurningTo { p with rxBufSize := rxBufSize } n :=
  ⟨⟨h.inv.sound, hsize, h.inv.absent⟩, h.alive, h.sized, h.turning,
    h.clear, h.told⟩

theorem RxPdata.Supplied.keepsRoom {act : RxAct}
    (hact : p.Supplied ans act) : p.KeepsRoom act := by
  cases act with
  | changeMtu mtu => exact fun rxBufSize hcalc => (hact rxBufSize hcalc).1
  | restart => trivial
  | read r => trivial
  | refresh r => trivial
  | complete r back => trivial

theorem RxPdata.TurningTo.step {act : RxAct}
    (h : p.TurningTo p.rxRingCount) (hact : p.Supplied ans act) :
    (p.step ans act).TurningTo (p.step ans act).rxRingCount := by
  unfold RxPdata.step
  rw [if_neg (by rw [h.alive]; exact Bool.false_ne_true)]
  cases act with
  | restart => exact h.restartDev hact
  | changeMtu mtu =>
    dsimp only
    rw [RxPdata.changeMtu]
    cases hcalc : calcRxBufSize mtu with
    | none => exact h
    | some rxBufSize =>
      have hwith := h.withSize (calcRxBufSize_ok hcalc)
      exact hwith.restartDev (hact rxBufSize hcalc).2
  | read r =>
    dsimp only
    split
    · next hr =>
      obtain ⟨d, c, hturning⟩ := h.at hr
      obtain ⟨halive, hout⟩ :=
        hturning.pollRead h.inv.size ans p.coal (hact hr)
      exact h.onRing hr halive hout
    · exact h
  | refresh r =>
    dsimp only
    split
    · next hr =>
      obtain ⟨d, c, hturning⟩ := h.at hr
      obtain ⟨halive, d', -, -, hout⟩ :=
        hturning.refresh h.inv.size ans p.coal
      exact h.onRing hr halive ⟨d', c, hout⟩
    · exact h
  | complete r back =>
    dsimp only
    split
    · next hr =>
      obtain ⟨d, c, hturning⟩ := h.at hr
      exact h.onRing hr rfl ⟨d, c, hturning.complete back⟩
    · exact h

theorem RxPdata.Running.step {act : RxAct} (h : p.Running)
    (hact : p.Supplied ans act) : (p.step ans act).Running :=
  ⟨h.roomy.step hact.keepsRoom ans, h.turning.step hact⟩

-- ----------------------------------------- and steps that are not

theorem RxPdata.Shorted.not_once (h : p.Shorted) : ¬ p.Once := by
  rintro ⟨-, hring⟩
  obtain ⟨r, hr, i, hi, hown, hclear⟩ := h
  obtain ⟨-, -, hmapped⟩ := (hring r hr).ready i hi hown
  obtain ⟨c, m, hslice, -⟩ := hmapped .hdr
  have hzero : (p.rxRings r).rxOf i .hdr = .zero := hclear .hdr
  rw [hzero] at hslice
  exact nomatch hslice

/-- A restart that leaves the device as it should be has filled the
rings. -/
theorem RxPdata.TurningTo.restart_fills (h : p.TurningTo p.rxRingCount)
    (honce : (p.restartDev ans).Once) : p.RestartFills ans := by
  by_contra hstops
  obtain ⟨hfree, hle⟩ := h.freed
  have hshorted := hfree.descInitFrom_stops hle hstops
  rw [restartDev_eq] at honce
  exact hshorted.not_once honce

/-- And every leftover had room for a data buffer. -/
theorem RxPdata.TurningTo.restart_room (h : p.TurningTo p.rxRingCount)
    (honce : (p.restartDev ans).Once) : p.Room p.rxBufSize := by
  have hfills := h.restart_fills honce
  have hlast := h.restartDev hfills
  intro r hr page hpage
  by_contra hroom
  obtain ⟨hfree, hle⟩ := h.freed
  obtain ⟨hsize, -, hrings⟩ := @freeRxDataFrom_frame p p.rxRingCount 0
  have hpa := (hrings r).1
  obtain ⟨hown, hfirst⟩ := hfree.descInitFrom_leftover hle hfills
    (Nat.zero_le r) (by omega) (by rw [hpa, hpage]) p.pages
  rw [← restartDev_eq] at hown hfirst
  rw [hpa, hsize, setBufferData_bd, if_pos (by omega), hpage] at hfirst
  -- the page behind the buffer is as long as what was left of it says
  have hright : (((p.restartDev ans).rxRings r).rxOf 0 .buf).paUnmap.Right
      (p.restartDev ans).pages.maps :=
    ((hlast.inv.sound.right r).buffer 0 .buf).pages
  have hring := honce.ring r (by rwa [restartDev_rxRingCount])
  obtain ⟨-, -, hmapped⟩ := hring.ready 0
    (by rw [hlast.sized r]; exact rxDescCnt_pos) hown
  obtain ⟨c, m, hslice, hm, -, -, hinside⟩ := hmapped .buf
  rw [hfirst] at hslice hinside hright
  obtain rfl := Option.some.inj hslice
  obtain ⟨m', hm', -, hlen⟩ := hright page rfl
  obtain rfl : m = m' := Option.some.inj (hm.symm.trans hm')
  dsimp only at hinside hlen
  omega

theorem RxPdata.Running.supplied {act : RxAct} (h : p.Running)
    (honce : (p.step ans act).Once) : p.Supplied ans act := by
  unfold RxPdata.step at honce
  rw [if_neg (by rw [h.turning.alive]; exact Bool.false_ne_true)] at honce
  cases act with
  | restart => exact h.turning.restart_fills honce
  | changeMtu mtu =>
    intro rxBufSize hcalc
    dsimp only at honce
    rw [RxPdata.changeMtu, hcalc] at honce
    have hwith := h.turning.withSize (calcRxBufSize_ok hcalc)
    exact ⟨hwith.restart_room honce, hwith.restart_fills honce⟩
  | read r =>
    intro hr
    dsimp only at honce
    rw [if_pos hr] at honce
    obtain ⟨d, c, hturning⟩ := h.turning.at hr
    by_contra hroom
    obtain ⟨-, -, hmany, hsized⟩ :=
      hturning.reads_twice h.roomy.size ans p.coal hroom
    have hle := (honce.ring r hr).dirty_le
    rw [setRing_self, hmany, hsized] at hle
    omega
  | refresh r => trivial
  | complete r back => trivial

-- ------------------------------------------------------ the device opens

theorem turnPool_empty : TurnPool SlicePool.empty where
  left _ _ _ h := nomatch h
  right :=
    { held := fun _ _ _ _ _ _ h => nomatch h
      left := fun _ _ _ _ _ h => nomatch h }

/-- The rings before `mac_start`. -/
theorem allocated_turning {rxRingCount : Nat} {heads : Nat → U64}
    {coal : Coalesce} {rxBufSize : Nat} (hsize : SizeOk rxBufSize) :
    (RxPdata.allocated rxRingCount heads coal rxBufSize).TurningTo 0 where
  inv := allocated_inv turnPool_empty hsize
  alive := rfl
  sized _ := rfl
  turning r hr := absurd hr (Nat.not_lt_zero r)
  clear _ _ _ _ := rfl
  told _ _ _ _ := Or.inl rfl

/-- `mac_open` fills every ring. -/
def RxPdata.OpenFills (ans : Answers) (rxRingCount : Nat)
    (heads : Nat → U64) (coal : Coalesce) (mtu : U32) : Prop :=
  ∀ rxBufSize, calcRxBufSize mtu = some rxBufSize →
    (allocated rxRingCount heads coal rxBufSize).FillsFrom ans rxRingCount 0

variable {rxRingCount : Nat} {heads : Nat → U64} {coal : Coalesce}
  {mtu : U32}

theorem running_opened
    (hopen : RxPdata.opened ans rxRingCount heads coal mtu = some p)
    (hfills : RxPdata.OpenFills ans rxRingCount heads coal mtu) :
    p.Running := by
  refine ⟨RxPdata.roomy_opened hopen, ?_⟩
  rw [RxPdata.opened, Option.map_eq_some_iff] at hopen
  obtain ⟨rxBufSize, hcalc, rfl⟩ := hopen
  have hcount : ((RxPdata.allocated rxRingCount heads coal
      rxBufSize).start ans).rxRingCount = rxRingCount :=
    descInitFrom_rxRingCount
  have hinit := (@allocated_turning rxRingCount heads coal rxBufSize
    (calcRxBufSize_ok hcalc)).descInitFrom
      (Nat.le_of_eq (Nat.zero_add rxRingCount)) (hfills rxBufSize hcalc)
  rw [Nat.zero_add] at hinit
  rw [hcount]
  exact hinit

/-- A device opened without buffers for all entries has handed the NIC a
descriptor that has none. -/
theorem shorted_opened
    (hopen : RxPdata.opened ans rxRingCount heads coal mtu = some p)
    (hstops : ¬ RxPdata.OpenFills ans rxRingCount heads coal mtu) :
    p.Shorted := by
  rw [RxPdata.opened, Option.map_eq_some_iff] at hopen
  obtain ⟨rxBufSize, hcalc, rfl⟩ := hopen
  refine (@allocated_turning rxRingCount heads coal rxBufSize
    (calcRxBufSize_ok hcalc)).descInitFrom_stops
      (Nat.le_of_eq (Nat.zero_add rxRingCount)) fun hfills => hstops ?_
  intro rxBufSize' hcalc'
  obtain rfl : rxBufSize = rxBufSize' :=
    Option.some.inj (hcalc.symm.trans hcalc')
  exact hfills

end Runs

/-- In a run of an open device every descriptor is processed once, and
what the NIC owns has its buffers, if and only if all rings are filled
whenever they are initialised, a changed MTU finds room in what is left
of the pages, and no poll reads a ring all of whose entries wait for
refill. -/
theorem rx_descriptors_once_iff (ans : Answers) (rxRingCount : Nat)
    (heads : Nat → U64) (coal : Coalesce) (mtu : U32) (p : RxPdata)
    (hopen : RxPdata.opened ans rxRingCount heads coal mtu = some p)
    (acts : List RxAct) :
    Run.Always (RxPdata.step ans) RxPdata.Once p acts
      ↔ RxPdata.OpenFills ans rxRingCount heads coal mtu
        ∧ Run.Each (RxPdata.step ans) (RxPdata.Supplied ans) p acts := by
  have hruns : p.Running →
      (Run.Always (RxPdata.step ans) RxPdata.Once p acts
        ↔ Run.Each (RxPdata.step ans) (RxPdata.Supplied ans) p acts) :=
    fun hp => Run.always_iff_each_of_keeps (I := RxPdata.Running)
      (fun _ h => h.once) (fun _ _ h hact => h.step hact)
      (fun _ _ h honce => h.supplied honce) hp
  constructor
  · intro h
    have hfills : RxPdata.OpenFills ans rxRingCount heads coal mtu := by
      by_contra hstops
      exact (shorted_opened hopen hstops).not_once h.head
    exact ⟨hfills, (hruns (running_opened hopen hfills)).1 h⟩
  · rintro ⟨hfills, hacts⟩
    exact (hruns (running_opened hopen hfills)).2 hacts

-- ------------------------------------------------------- with memory

theorem plenty_tryOrders (order : Nat) :
    tryOrders (fun _ => true) order = some order := by
  cases order with
  | zero => rfl
  | succ order => rfl

theorem plenty_ensurePages (pg : Pages) (ring : RxRing) (part : Part)
    (order : Nat) : (ring.ensurePages plenty pg part order).1 = true := by
  have halloc : (allocPages plenty pg order).2.isSome = true := by
    unfold allocPages
    dsimp only
    rw [show plenty.available pg.calls = fun _ => true from rfl,
      plenty_tryOrders]
    rfl
  unfold RxRing.ensurePages
  split
  · rfl
  · rcases hpa : allocPages plenty pg order with ⟨pg', pa⟩
    rw [hpa] at halloc
    cases pa with
    | none => cases halloc
    | some pa => rfl

/-- Every entry gets its buffers. -/
theorem plenty_mapRxBuffer (rxBufSize : Nat) (pg : Pages) (ring : RxRing)
    (i : Nat) : (ring.mapRxBuffer plenty rxBufSize pg i).1 = true := by
  have hcases := mapRxBuffer_cases plenty rxBufSize pg ring i
  generalize ring.mapRxBuffer plenty rxBufSize pg i = out at hcases
  cases hcases with
  | noHdr hfail =>
    rw [plenty_ensurePages] at hfail
    cases hfail
  | noBuf pg₁ ring₁ hok hfail =>
    rw [plenty_ensurePages] at hfail
    cases hfail
  | both => rfl

theorem plenty_fills (rxBufSize left j : Nat) (pg : Pages) (ring : RxRing) :
    RxRing.Fills plenty rxBufSize left j pg ring := by
  induction left generalizing j pg ring with
  | zero => trivial
  | succ left ih => exact ⟨plenty_mapRxBuffer _ _ _ _, ih _ _ _⟩

theorem plenty_fillsFrom (left r : Nat) (p : RxPdata) :
    p.FillsFrom plenty left r := by
  induction left generalizing r p with
  | zero => trivial
  | succ left ih => exact ⟨plenty_fills _ _ _ _ _, ih _ _⟩

theorem rx_descriptors_once_iff_plenty :
    Run.Always (RxPdata.step plenty) RxPdata.Once (RxPdata.one plenty)
      [.read 0, .complete 0 ⟨0, 0, 0, 64⟩, .read 0, .refresh 0, .restart] :=
  (rx_descriptors_once_iff plenty 1 (fun _ => 0x100000) ⟨0, 0⟩ 1500
    (RxPdata.one plenty) (opened_one plenty) _).2
    ⟨fun _ _ => plenty_fillsFrom _ _ _,
      fun _ _ => plenty_mapRxBuffer _ _ _ _, trivial,
      fun _ _ => plenty_mapRxBuffer _ _ _ _, trivial,
      plenty_fillsFrom _ _ _, trivial⟩

-- ---------------------------------------------------- without memory

/-- There is no memory. -/
def noMemory : Answers where
  available _ _ := false
  mapPage _ := none

theorem noMemory_tryOrders (order : Nat) :
    tryOrders (fun _ => false) order = none := by
  induction order with
  | zero => rfl
  | succ order ih => exact ih

/-- Filling a new ring ends at its first entry. -/
theorem noMemory_fillFrom (rxBufSize left : Nat) (pg : Pages)
    {ring : RxRing} (hpa : (ring.rxPa .hdr).pages = none) :
    (ring.fillFrom noMemory rxBufSize (left + 1) 0 pg).2
      = ring.setDmaDesc 0 := by
  have hfail : (ring.setDmaDesc 0).mapRxBuffer noMemory rxBufSize pg 0
      = (false, { pg with calls := pg.calls + 1 }, ring.setDmaDesc 0) := by
    have hpages : ((ring.setDmaDesc 0).rxPa .hdr).pages.isSome = false := by
      rw [show (ring.setDmaDesc 0).rxPa = ring.rxPa from rfl, hpa]
      rfl
    unfold RxRing.mapRxBuffer RxRing.ensurePages allocPages
    dsimp only
    rw [hpages, show noMemory.available pg.calls = fun _ => false from rfl,
      noMemory_tryOrders]
    rfl
  rw [RxRing.fillFrom, hfail]

/-- A device is opened when there is no memory: the NIC is given the first
descriptor, with the address 0 for both buffers. -/
theorem armed_without_buffers :
    RxPdata.opened noMemory 1 (fun _ => 0x100000) ⟨0, 0⟩ 1500
        = some (RxPdata.one noMemory)
      ∧ (((RxPdata.one noMemory).rxRings 0).dmaDescs 0).own = true
      ∧ (∃ inte, ((RxPdata.one noMemory).rxRings 0).dmaDescs 0
        = armedDesc .zero .zero inte)
      ∧ ∀ acts, ¬ Run.Always (RxPdata.step noMemory) RxPdata.Once
        (RxPdata.one noMemory) acts := by
  have hring : (RxPdata.one noMemory).rxRings 0
      = ((RxRing.fresh 0x100000).descInit noMemory ⟨0, 0⟩ 1536
          ⟨0, [], [], [], []⟩).2.2 := by
    rw [one_eq, descInitFrom_self]
    rfl
  have hrings : (RxPdata.one noMemory).rxRingCount = 1 :=
    descInitFrom_rxRingCount
  have hpa : ((RxRing.fresh 0x100000).rxPa .hdr).pages = none := rfl
  have hcount : (RxRing.fresh 0x100000).dmaDescCount = rxDescCnt := rfl
  have htold : ∀ i, i < (RxRing.fresh 0x100000).dmaDescCount →
      (RxRing.fresh 0x100000).Told i := fun _ _ => Or.inl rfl
  have hzero : (RxRing.fresh 0x100000).Clear 0 := fun _ => rfl
  generalize RxRing.fresh 0x100000 = ring at hring hpa hcount htold hzero
  obtain ⟨left, hleft⟩ := Nat.exists_eq_add_of_lt rxDescCnt_pos
  rw [Nat.zero_add] at hleft
  have hfill : (ring.fillFrom noMemory 1536 ring.dmaDescCount 0
      ⟨0, [], [], [], []⟩).2 = ring.setDmaDesc 0 := by
    rw [hcount, hleft]
    exact noMemory_fillFrom 1536 left _ hpa
  have harmed : ((RxPdata.one noMemory).rxRings 0).Armed 0 := by
    rw [hring]
    refine descInit_armed ⟨0, 0⟩ (fun i hi => fillFrom_told (htold i hi))
      (by rw [hcount]; exact rxDescCnt_pos) fun k hk => ?_
    obtain rfl := Nat.le_zero.1 hk
    rw [hfill, RxRing.setDmaDesc]
    dsimp only
    rw [Function.update_self]
  have hrx : ((RxPdata.one noMemory).rxRings 0).Clear 0 := fun part => by
    rw [hring, (descInit_buffers _).2.2, hfill]
    show (ring.setDmaDesc 0).rxOf 0 part = .zero
    rw [setDmaDesc_rx]
    exact hzero part
  have hshorted : (RxPdata.one noMemory).Shorted := by
    refine ⟨0, ?_, 0, ?_, harmed.own, hrx⟩
    · rw [hrings]
      exact Nat.zero_lt_one
    · rw [hring, descInit_dmaDescCount, hcount]
      exact rxDescCnt_pos
  refine ⟨opened_one noMemory, harmed.own, ?_, fun acts h =>
    hshorted.not_once h.head⟩
  obtain ⟨inte, hdesc⟩ := harmed
  have hboth : ((RxPdata.one noMemory).rxRings 0).rxOf 0
      = fun _ => .zero := funext hrx
  rw [hboth] at hdesc
  exact ⟨inte, hdesc⟩

end BxRnic.Mac
