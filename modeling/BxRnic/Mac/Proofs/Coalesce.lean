/-
What the coalescing settings do.

# Receiving

A setting is taken whole or not at all, and the watchdogs of the channels
hold what was taken last (`CoalescePdata.Programmed`). The test of the
range is made on the converted value, which has been cut to 32 bits: times
beyond a quarter of an hour are taken if what is left of them happens to
be in the range, and the watchdog is set to that. That is the only way
in which the time that is reported is not the time that was programmed
(`watchdog_exactly`).

# Transmitting

The count goes on for ever and wraps at 2^32, which is no multiple of the
setting. No packet is missed by that: `pending` never passes the remainder
of the count, and where the count wraps the remainder is so small that an
interrupt is asked for.
-/
import BxRnic.Lib.Run
import BxRnic.Mac.Coalesce
import BxRnic.Mac.Proofs.TxReserve

namespace BxRnic.Mac

-- ============================================================ the watchdogs

section Watchdog

variable {p : CoalescePdata} {ec : EthtoolCoalesce}

/-- The registers of different channels are different. -/
theorem riwtReg_injective {i j : Nat} (h : riwtReg i = riwtReg j) :
    i = j := by
  unfold riwtReg DMA_CH_INC at h
  omega

theorem getField_setField_same (regs : MacRegs) (addr : Nat)
    (val : U32) :
    (regs.setField addr 0 8 val).getField addr 0 8 = Field.get val 0 8 := by
  unfold MacRegs.getField MacRegs.setField MacRegs.writel
  rw [Function.update_self, Field.get_set (by omega)]

theorem getField_setField_other (regs : MacRegs) {addr addr' : Nat}
    (h : addr' ≠ addr) (val : U32) :
    (regs.setField addr 0 8 val).getField addr' 0 8
      = regs.getField addr' 0 8 := by
  unfold MacRegs.getField MacRegs.setField MacRegs.writel
  rw [Function.update_of_ne h]

/-- The channels the loop gets to: those before the first without a
receive ring. -/
def reached (rxRings : List Bool) : Nat := (rxRings.takeWhile id).length

theorem reached_true (rest : List Bool) :
    reached (true :: rest) = reached rest + 1 := rfl

/-- The watchdogs of channels before the loop are not touched. -/
theorem configRxCoalesceFrom_below (rxRiwt : U32) {c n : Nat}
    (h : c < n) (rxRings : List Bool) (regs : MacRegs) :
    (configRxCoalesceFrom rxRiwt n rxRings regs).getField (riwtReg c) 0 8
      = regs.getField (riwtReg c) 0 8 := by
  induction rxRings generalizing n regs with
  | nil => rfl
  | cons ring rest ih =>
    cases ring with
    | false => rfl
    | true =>
      have hne : riwtReg c ≠ riwtReg n := fun heq =>
        absurd (riwtReg_injective heq) (Nat.ne_of_lt h)
      rw [configRxCoalesceFrom, ih (Nat.lt_succ_of_lt h),
        getField_setField_other regs hne]

/-- The loop programs the channels it gets to. -/
theorem configRxCoalesceFrom_reached (rxRiwt : U32) {c n : Nat}
    {rxRings : List Bool} (h : c < reached rxRings) (regs : MacRegs) :
    (configRxCoalesceFrom rxRiwt n rxRings regs).getField
      (riwtReg (n + c)) 0 8 = Field.get rxRiwt 0 8 := by
  induction rxRings generalizing n c regs with
  | nil => exact absurd h (Nat.not_lt_zero c)
  | cons ring rest ih =>
    cases ring with
    | false => exact absurd h (Nat.not_lt_zero c)
    | true =>
      rw [configRxCoalesceFrom]
      cases c with
      | zero =>
        exact (configRxCoalesceFrom_below rxRiwt (Nat.lt_add_one n) rest
          _).trans (getField_setField_same regs _ rxRiwt)
      | succ c =>
        rw [reached_true] at h
        have hc := ih (n := n + 1) (Nat.lt_of_succ_lt_succ h)
          (regs.setField (riwtReg n) 0 8 rxRiwt)
        rw [Nat.add_assoc, Nat.add_comm 1 c] at hc
        exact hc

/-- What is in force, in the driver and in the registers. -/
structure CoalescePdata.Programmed (p : CoalescePdata) : Prop where
  converted : p.rxRiwt = usecToRiwt p.sysclkRate p.rxUsecs
  range : 1 ≤ p.rxRiwt.toNat ∧ p.rxRiwt.toNat ≤ 255
  watchdogs : ∀ c, c < reached p.rxRings →
    p.regs.getField (riwtReg c) 0 8 = p.rxRiwt

/-- A value in the range fits its field. -/
theorem get_riwt {riwt : U32} (h : riwt.toNat ≤ 255) :
    Field.get riwt 0 8 = riwt :=
  Field.get_zero_of_lt (by omega) (by omega)

/-- The loop over all the channels. -/
theorem configRxCoalesce_watchdogs (h : p.rxRiwt.toNat ≤ 255) {c : Nat}
    (hc : c < reached p.rxRings) :
    p.configRxCoalesce.regs.getField (riwtReg c) 0 8 = p.rxRiwt := by
  have hreached := configRxCoalesceFrom_reached p.rxRiwt (n := 0) hc p.regs
  rw [Nat.zero_add, get_riwt h] at hreached
  exact hreached

/-- What `mac_ethtool_set_coalesce` takes. -/
structure CoalescePdata.Takes (p : CoalescePdata) (ec : EthtoolCoalesce) :
    Prop where
  supported : ∀ v ∈ ec.notSupported, v = 0
  range : 1 ≤ (usecToRiwt p.sysclkRate ec.rxCoalesceUsecs).toNat
    ∧ (usecToRiwt p.sysclkRate ec.rxCoalesceUsecs).toNat ≤ 255
  rxFrames : ec.rxMaxCoalescedFrames ≤ p.rxDescCount
  txFrames : ec.txMaxCoalescedFrames ≤ p.txDescCount

/-- The settings after a call that takes `ec`. -/
def CoalescePdata.taken (p : CoalescePdata) (ec : EthtoolCoalesce) :
    CoalescePdata :=
  { CoalescePdata.configRxCoalesce
      { p with
        rxRiwt := usecToRiwt p.sysclkRate ec.rxCoalesceUsecs
        rxUsecs := ec.rxCoalesceUsecs
        rxFrames := ec.rxMaxCoalescedFrames } with
    txFrames := ec.txMaxCoalescedFrames }

/-- The test of the range. -/
theorem riwt_range_iff (riwt : U32) :
    ¬ (riwt > maxDmaRiwt ∨ riwt < minDmaRiwt)
      ↔ 1 ≤ riwt.toNat ∧ riwt.toNat ≤ 255 := by
  unfold maxDmaRiwt minDmaRiwt
  rw [not_or, gt_iff_lt, BitVec.lt_def, BitVec.lt_def]
  change ¬ 255 < riwt.toNat ∧ ¬ riwt.toNat < 1 ↔ _
  omega

theorem notSupported_iff (ec : EthtoolCoalesce) :
    ¬ ec.notSupported.any (· ≠ 0) = true
      ↔ ∀ v ∈ ec.notSupported, v = 0 := by
  simp

/-- A call takes all of a setting, or fails and changes nothing. -/
theorem setCoalesce_cases (p : CoalescePdata) (ec : EthtoolCoalesce) :
    (p.Takes ec ∧ p.setCoalesce ec = (0, p.taken ec))
      ∨ (¬ p.Takes ec ∧ ((p.setCoalesce ec).1 = -EOPNOTSUPP
        ∨ (p.setCoalesce ec).1 = -EINVAL) ∧ (p.setCoalesce ec).2 = p) := by
  unfold CoalescePdata.setCoalesce
  split
  · next hany =>
    refine Or.inr ⟨fun h => ?_, Or.inl rfl, rfl⟩
    exact (notSupported_iff ec).2 h.supported hany
  · next hany =>
    dsimp only
    split
    · next hbad =>
      refine Or.inr ⟨fun h => ?_, Or.inr rfl, rfl⟩
      rcases hbad with hbad | hbad | hbad
      · exact (riwt_range_iff _).2 h.range (Or.inl hbad)
      · exact (riwt_range_iff _).2 h.range (Or.inr hbad)
      · exact absurd h.rxFrames (BitVec.not_le.2 hbad)
    · next hgood =>
      rw [← or_assoc, not_or] at hgood
      split
      · next htx =>
        exact Or.inr ⟨fun h => absurd h.txFrames (BitVec.not_le.2 htx),
          Or.inr rfl, rfl⟩
      · next htx =>
        exact Or.inl ⟨⟨(notSupported_iff ec).1 hany,
          (riwt_range_iff _).1 hgood.1, BitVec.not_lt.1 hgood.2,
          BitVec.not_lt.1 htx⟩, rfl⟩

theorem CoalescePdata.Takes.programmed (h : p.Takes ec) :
    (p.taken ec).Programmed where
  converted := rfl
  range := h.range
  watchdogs _ hc := configRxCoalesce_watchdogs h.range.2 hc

theorem CoalescePdata.Programmed.step (h : p.Programmed)
    (ec : EthtoolCoalesce) : (p.step ec).Programmed := by
  unfold CoalescePdata.step
  rcases setCoalesce_cases p ec with ⟨htakes, heq⟩ | ⟨-, -, heq⟩
  · rw [heq]
    exact htakes.programmed
  · rw [heq]
    exact h

/-- The defaults are in the range. -/
theorem usecToRiwt_init :
    usecToRiwt sysclock initDmaRxUsecs = 253 := by decide

theorem CoalescePdata.programmed_started (rxDescCount txDescCount : U32)
    (rxRings : List Bool) (regs : MacRegs) :
    (CoalescePdata.started rxDescCount txDescCount rxRings
      regs).Programmed where
  converted := rfl
  range := by
    show 1 ≤ (usecToRiwt sysclock initDmaRxUsecs).toNat
      ∧ (usecToRiwt sysclock initDmaRxUsecs).toNat ≤ 255
    rw [usecToRiwt_init]
    decide
  watchdogs c hc := by
    refine configRxCoalesce_watchdogs ?_ hc
    show (usecToRiwt sysclock initDmaRxUsecs).toNat ≤ 255
    rw [usecToRiwt_init]
    decide

-- ================================================================= the time

/-- The clock cycles of the microseconds that `ETHTOOL_GCOALESCE`
reports. -/
def CoalescePdata.reportedCycles (p : CoalescePdata) : Nat :=
  p.getCoalesce.rxCoalesceUsecs.toNat * (p.sysclkRate / 1000000)

/-- Every channel that is programmed waits as long as is reported, to the
unit of 256 clock cycles. -/
def CoalescePdata.Honest (p : CoalescePdata) : Prop :=
  ∀ c, c < reached p.rxRings →
    (p.regs.getField (riwtReg c) 0 8).toNat * 256 ≤ p.reportedCycles
      ∧ p.reportedCycles
        < ((p.regs.getField (riwtReg c) 0 8).toNat + 1) * 256

/-- The time asked for is less than 2^32 units, or is not taken. -/
def CoalescePdata.Short (p : CoalescePdata) (ec : EthtoolCoalesce) : Prop :=
  p.Takes ec →
    ec.rxCoalesceUsecs.toNat * (p.sysclkRate / 1000000) / 256 < 2 ^ 32

/-- What is programmed is what is reported, where nothing was cut off. -/
theorem CoalescePdata.Programmed.honest_iff (h : p.Programmed)
    (hsome : 0 < reached p.rxRings) :
    p.Honest ↔ p.reportedCycles / 256 < 2 ^ 32 := by
  have hriwt : p.rxRiwt.toNat = p.reportedCycles / 256 % 2 ^ 32 := by
    rw [h.converted]
    exact BitVec.toNat_ofNat ..
  constructor
  · intro hhonest
    obtain ⟨hle, hlt⟩ := hhonest 0 hsome
    rw [h.watchdogs 0 hsome] at hle hlt
    have hrange := h.range.2
    omega
  · intro hshort c hc
    rw [h.watchdogs c hc, hriwt, Nat.mod_eq_of_lt hshort]
    omega

/-- What a call leaves of the channels and of the clock. -/
theorem CoalescePdata.step_frame (p : CoalescePdata)
    (ec : EthtoolCoalesce) :
    (p.step ec).rxRings = p.rxRings
      ∧ (p.step ec).sysclkRate = p.sysclkRate := by
  unfold CoalescePdata.step
  rcases setCoalesce_cases p ec with ⟨-, heq⟩ | ⟨-, -, heq⟩
  · rw [heq]
    exact ⟨rfl, rfl⟩
  · rw [heq]
    exact ⟨rfl, rfl⟩

/-- One call, exactly. -/
theorem CoalescePdata.Programmed.step_honest_iff (h : p.Programmed)
    (hsome : 0 < reached p.rxRings) (hhonest : p.Honest)
    (ec : EthtoolCoalesce) : (p.step ec).Honest ↔ p.Short ec := by
  have hnext := h.step ec
  have hsome' : 0 < reached (p.step ec).rxRings := by
    rw [(p.step_frame ec).1]
    exact hsome
  rw [hnext.honest_iff hsome']
  unfold CoalescePdata.step CoalescePdata.Short
  rcases setCoalesce_cases p ec with ⟨htakes, heq⟩ | ⟨hnot, -, heq⟩
  · rw [heq]
    exact ⟨fun hlt _ => hlt, fun hlt => hlt htakes⟩
  · rw [heq]
    exact iff_of_true ((h.honest_iff hsome).1 hhonest)
      fun htakes => absurd htakes hnot

end Watchdog

/-- Over every sequence of calls of `ETHTOOL_SCOALESCE`, the watchdogs of
the channels wait as long as `ETHTOOL_GCOALESCE` reports, to the unit,
exactly as long as no time of 2^32 units or more is taken. Only the first
channel has to have a receive ring: without, no watchdog is set. -/
theorem watchdog_exactly (rxDescCount txDescCount : U32)
    {rxRings : List Bool} (hsome : 0 < reached rxRings)
    (regs : MacRegs) (calls : List EthtoolCoalesce) :
    Run.Always CoalescePdata.step CoalescePdata.Honest
        (.started rxDescCount txDescCount rxRings regs) calls
      ↔ Run.Each CoalescePdata.step CoalescePdata.Short
        (.started rxDescCount txDescCount rxRings regs) calls := by
  have hstart := CoalescePdata.programmed_started rxDescCount txDescCount
    rxRings regs
  refine Run.always_iff_each_of_inv
    (I := fun p => p.Programmed ∧ 0 < reached p.rxRings) ?_ ?_
    ⟨hstart, hsome⟩ ?_
  · intro p ec h
    refine ⟨h.1.step ec, ?_⟩
    rw [(p.step_frame ec).1]
    exact h.2
  · exact fun p ec h hhonest => h.1.step_honest_iff h.2 hhonest ec
  · refine (hstart.honest_iff hsome).2 ?_
    show 54 * (sysclock / 1000000) / 256 < 2 ^ 32
    decide

/-- With two channels: a time that is too long for the watchdogs is
refused, half of it is taken. -/
theorem watchdog_exactly_two :
    let calls := [{ EthtoolCoalesce.zero with rxCoalesceUsecs := 100 },
      { EthtoolCoalesce.zero with rxCoalesceUsecs := 50 }]
    Run.Always CoalescePdata.step CoalescePdata.Honest
        (.started 4096 4096 [true, true] fun _ => 0) calls
      ↔ Run.Each CoalescePdata.step CoalescePdata.Short
        (.started 4096 4096 [true, true] fun _ => 0) calls :=
  watchdog_exactly 4096 4096 (by decide) _ _

/-- A quarter of an hour is taken, and the watchdog runs out after about a
microsecond. -/
example :
    let p := CoalescePdata.started 4096 4096 [true] fun _ => 0
    let ec := { EthtoolCoalesce.zero with rxCoalesceUsecs := 916259691 }
    (p.setCoalesce ec).1 = 0
      ∧ (p.setCoalesce ec).2.regs.getField (riwtReg 0) 0 8 = 5 := by
  decide

-- ====================================================== transmit interrupts

section Transmit

variable {ch : TxChannel} {ring : TxRing}

/-- Without a multiple of the setting being passed, the remainder grows by
what is added; and where the count wraps, one is. -/
theorem remainder_grows {count n frames : U32} (hframes : frames ≠ 0)
    (hle : ¬ n > frames) (hno : ¬ (count + n) % frames < n) :
    (count % frames).toNat + n.toNat ≤ ((count + n) % frames).toNat := by
  have hpos : 0 < frames.toNat := Nat.pos_of_ne_zero fun h0 =>
    hframes (BitVec.eq_of_toNat_eq h0)
  have hn : n.toNat ≤ frames.toNat := Nat.le_of_not_lt fun h =>
    hle (BitVec.lt_def.2 h)
  have hge : n.toNat ≤ ((count + n) % frames).toNat :=
    Nat.le_of_not_lt fun h => hno (BitVec.lt_def.2 h)
  rw [BitVec.toNat_umod, BitVec.toNat_add] at hge
  rw [BitVec.toNat_umod, BitVec.toNat_umod, BitVec.toNat_add]
  by_cases hwrap : count.toNat + n.toNat < 2 ^ 32
  · rw [Nat.mod_eq_of_lt hwrap] at hge ⊢
    have hrem := Nat.mod_lt count.toNat hpos
    have hsum : (count.toNat + n.toNat) % frames.toNat
        = (count.toNat % frames.toNat + n.toNat) % frames.toNat := by
      rw [Nat.mod_add_mod]
    rw [hsum] at hge ⊢
    by_cases hpass : count.toNat % frames.toNat + n.toNat < frames.toNat
    · rw [Nat.mod_eq_of_lt hpass]
    · -- past a multiple, less than `n` would be left
      rw [Nat.mod_eq_sub_mod (Nat.le_of_not_lt hpass)] at hge
      have hlt : (count.toNat % frames.toNat + n.toNat - frames.toNat)
          % frames.toNat
          ≤ count.toNat % frames.toNat + n.toNat - frames.toNat :=
        Nat.mod_le _ _
      omega
  · -- past 2^32, less than `n` is left
    have hcount := count.isLt
    have hnlt := n.isLt
    have hsmall : (count.toNat + n.toNat) % 2 ^ 32
        = count.toNat + n.toNat - 2 ^ 32 := by
      rw [Nat.mod_eq_sub_mod (Nat.le_of_not_lt hwrap)]
      exact Nat.mod_eq_of_lt (by omega)
    rw [hsmall] at hge
    have hle' := Nat.mod_le (count.toNat + n.toNat - 2 ^ 32) frames.toNat
    omega

/-- A packet that does not ask for an interrupt leaves no more pending
than the remainder of the count. -/
theorem pending_grows {frames : U32} {pending : Nat}
    (hframes : frames ≠ 0)
    (hle : pending ≤ (ring.coalesceCount % frames).toNat)
    (hno : ring.setIc frames = false) :
    pending + ring.pktInfo.txPackets.toNat
      ≤ ((ring.coalesceCount + ring.pktInfo.txPackets) % frames).toNat := by
  unfold TxRing.setIc at hno
  rw [if_neg hframes] at hno
  split at hno
  · exact Bool.noConfusion hno
  · next hsmall =>
    have hrem := remainder_grows hframes hsmall (of_decide_eq_false hno)
    omega

theorem xmitFrom_coalesceCount (left : Nat) (idx : U32) (ring : TxRing) :
    (ring.xmitFrom left idx).2.coalesceCount = ring.coalesceCount := by
  induction left generalizing idx ring with
  | zero => rfl
  | succ left ih => exact (ih _ _).trans rfl

theorem putContext_coalesceCount (ring : TxRing) :
    ring.putContext.2.coalesceCount = ring.coalesceCount := by
  unfold TxRing.putContext
  dsimp only
  split
  · rfl
  · rfl

/-- The OWN bit of a descriptor leaves the word with the IC bit alone. -/
theorem desc2_setOwn (ring : TxRing) (idx : U32) (i : Nat) :
    ((ring.updDesc idx DmaDesc.setOwn).dmaDescs i).desc2
      = (ring.dmaDescs i).desc2 := by
  unfold TxRing.updDesc
  dsimp only
  rcases eq_or_ne i (ring.entry idx) with rfl | hne
  · rw [Function.update_self]
    rfl
  · rw [Function.update_of_ne hne]

/-- What is written to the last descriptor and its entry. -/
theorem marked_last (ring : TxRing) (idx start : U32) (ic : Bool)
    (report : TxDescData → TxDescData) :
    ∀ ring' : TxRing, ring' =
      { ((ring.updDesc idx fun d => d.setLast ic).updData idx
          report).updDesc start DmaDesc.setOwn with cur := idx + 1 } →
    ring'.lastPackets
        = (report (ring.descDataHead (ring.entry idx))).packets
      ∧ (ic = true → ring'.lastIc = true) := by
  intro ring' hring'
  have hidx : ring'.entry (ring'.cur - 1) = ring.entry idx := by
    rw [hring']
    show ring.entry (idx + 1 - 1) = ring.entry idx
    rw [BitVec.add_sub_cancel]
  have hpackets : ring'.descDataHead (ring.entry idx)
      = report (ring.descDataHead (ring.entry idx)) := by
    rw [hring']
    exact Function.update_self ..
  have hlast : (ring'.dmaDescs (ring.entry idx)).desc2
      = ((ring.dmaDescs (ring.entry idx)).setLast ic).desc2 := by
    rw [hring']
    refine (desc2_setOwn _ start _).trans ?_
    exact congrArg DmaDesc.desc2 (Function.update_self ..)
  unfold TxRing.lastPackets TxRing.lastIc
  rw [hidx, hpackets, hlast]
  refine ⟨rfl, fun hic => ?_⟩
  rw [hic]
  show decide (Field.get (Field.set _ 31 1 1) 31 1 = 1) = true
  rw [Field.get_set (by omega)]
  decide

/-- `mac_dev_xmit` counts the packets. -/
theorem devXmit_coalesceCount (txFrames : U32) (ring : TxRing) :
    (ring.devXmit txFrames).coalesceCount
      = ring.coalesceCount + ring.pktInfo.txPackets := by
  have hput := putContext_coalesceCount
    { ring with
      coalesceCount := ring.coalesceCount + ring.pktInfo.txPackets }
  unfold TxRing.devXmit
  dsimp only
  generalize TxRing.putContext _ = put at hput ⊢
  exact (xmitFrom_coalesceCount _ _ _).trans hput

/-- `mac_dev_xmit` reports the packets with the last descriptor, which
asks for an interrupt if the packet does. -/
theorem devXmit_last (txFrames : U32) (ring : TxRing) :
    (ring.devXmit txFrames).lastPackets = ring.pktInfo.txPackets
      ∧ (ring.setIc txFrames = true →
        (ring.devXmit txFrames).lastIc = true) := by
  unfold TxRing.devXmit
  dsimp only
  generalize TxRing.putContext _ = put
  generalize TxRing.xmitFrom _ _ _ = out
  exact marked_last out.2 out.1 ring.cur (ring.setIc txFrames) _ _ rfl

/-- What counting goes by. -/
def TxChannel.counts (ch : TxChannel) : U32 × U32 × Nat :=
  (ch.txFrames, ch.ring.coalesceCount, ch.logs.accepted.length)

theorem unmapDescData_accepted (logs : TxLogs) (d : TxDescData) :
    (logs.unmapDescData d).1.accepted = logs.accepted := rfl

theorem counts_pollLoop (cur : U32) (left processed : Nat)
    (ch : TxChannel) :
    (ch.pollLoop cur left processed).2.counts = ch.counts := by
  induction left generalizing processed ch with
  | zero => rfl
  | succ left ih =>
    rw [TxChannel.pollLoop]
    dsimp only
    split
    · rfl
    · split
      · rfl
      · refine (ih _ _).trans ?_
        unfold TxChannel.counts
        dsimp only
        rw [unmapDescData_accepted]
        split
        · rfl
        · rfl

theorem counts_poll (ch : TxChannel) : ch.poll.counts = ch.counts := by
  have hloop := counts_pollLoop ch.ring.cur txDescMaxProc 0 ch
  unfold TxChannel.poll
  generalize ch.pollLoop ch.ring.cur txDescMaxProc 0 = out at hloop ⊢
  obtain ⟨processed, ch'⟩ := out
  cases processed with
  | zero => exact hloop
  | succ n =>
    dsimp only
    split
    · exact hloop
    · exact hloop

theorem counts_complete (ch : TxChannel) (back : DmaDesc) :
    (ch.step (.complete back)).counts = ch.counts := by
  unfold TxChannel.step TxRing.complete
  dsimp only
  split
  · rfl
  · rfl

/-- A stop of the queue changes nothing that counts. -/
theorem maybeStop_counts (ch : TxChannel) (count : U32) :
    (ch.maybeStop count).2.counts = ch.counts
      ∧ (ch.maybeStop count).2.ring.lastIc = ch.ring.lastIc
      ∧ (ch.maybeStop count).2.ring.lastPackets = ch.ring.lastPackets := by
  unfold TxChannel.maybeStop
  split
  · exact ⟨rfl, rfl, rfl⟩
  · exact ⟨rfl, rfl, rfl⟩

/-- A call of `mac_xmit` hands over a packet, through `mac_dev_xmit`, or
nothing that counts. -/
theorem xmit_counts (env : XmitEnv) (skb : Skb) (ch : TxChannel) :
    (ch.xmit env skb).counts = ch.counts
      ∨ ∃ ring : TxRing, ring.coalesceCount = ch.ring.coalesceCount
        ∧ (ch.xmit env skb).counts = (ch.txFrames,
          (ring.devXmit ch.txFrames).coalesceCount,
          ch.logs.accepted.length + 1)
        ∧ (ch.xmit env skb).ring.lastIc = (ring.devXmit ch.txFrames).lastIc
        ∧ (ch.xmit env skb).ring.lastPackets
          = (ring.devXmit ch.txFrames).lastPackets := by
  have hcase := xmit_cases env skb ch
  generalize ch.xmit env skb = out at hcase ⊢
  generalize ch.xmitRet env skb = ret at hcase
  cases hcase with
  | linkDown _ => exact Or.inl rfl
  | empty _ => exact Or.inl rfl
  | full _ _ => exact Or.inl rfl
  | noHeader _ => exact Or.inl rfl
  | @unmapped logs ring _ _ hmap =>
    obtain ⟨hring, hlogs⟩ := mapTxSkb_kept ch.logs ch.ring hmap.symm
    have hcount := congrArg TxRing.coalesceCount hring
    have haccepted := congrArg TxLogs.accepted hlogs
    change ring.coalesceCount = ch.ring.coalesceCount at hcount
    change logs.accepted = ch.logs.accepted at haccepted
    refine Or.inl ?_
    unfold TxChannel.counts TxChannel.free
    dsimp only
    rw [hcount, haccepted]
  | @sent logs ring _ _ _ _ hmap =>
    obtain ⟨hring, hlogs⟩ := mapTxSkb_kept ch.logs ch.ring hmap.symm
    have hcount := congrArg TxRing.coalesceCount hring
    have haccepted := congrArg TxLogs.accepted hlogs
    change ring.coalesceCount = ch.ring.coalesceCount at hcount
    change logs.accepted = ch.logs.accepted at haccepted
    obtain ⟨hcounts, hic, hpackets⟩ :=
      maybeStop_counts (ch.sent skb logs ring) txMaxDescNr
    refine Or.inr ⟨ring, hcount, hcounts.trans ?_, hic, hpackets⟩
    unfold TxChannel.counts TxChannel.sent
    dsimp only
    rw [List.length_append, List.length_singleton, haccepted]

/-- What is pending is no more than the remainder of the count. -/
def Signalled.Counted (s : Signalled) : Prop :=
  s.ch.txFrames ≠ 0 →
    s.pending ≤ (s.ch.ring.coalesceCount % s.ch.txFrames).toNat

theorem Signalled.Counted.quiet {s : Signalled} (h : s.Counted)
    {ch : TxChannel} (hcounts : ch.counts = s.ch.counts) :
    Signalled.Counted ⟨ch, s.pending⟩ := by
  unfold TxChannel.counts at hcounts
  injection hcounts with hframes hrest
  injection hrest with hcount _
  unfold Signalled.Counted
  dsimp only
  rw [hframes, hcount]
  exact h

/-- An action that hands nothing over leaves the same pending. -/
theorem Signalled.step_quiet {s : Signalled} {act : ChannelAct}
    (hcounts : (s.ch.step act).counts = s.ch.counts) :
    s.step (.act act) = ⟨s.ch.step act, s.pending⟩ := by
  have hlen : (s.ch.step act).logs.accepted.length
      = s.ch.logs.accepted.length := congrArg (fun c => c.2.2) hcounts
  unfold Signalled.step
  dsimp only
  rw [if_neg (not_not.2 hlen)]

theorem Signalled.Counted.step {s : Signalled} (h : s.Counted)
    (act : SignalAct) : (s.step act).Counted := by
  cases act with
  | setTxFrames txFrames => exact fun _ => Nat.zero_le _
  | act act =>
    cases act with
    | poll =>
      have hcounts : (s.ch.step .poll).counts = s.ch.counts :=
        counts_poll s.ch
      rw [Signalled.step_quiet hcounts]
      exact h.quiet hcounts
    | complete back =>
      have hcounts := counts_complete s.ch back
      rw [Signalled.step_quiet hcounts]
      exact h.quiet hcounts
    | xmit env skb =>
      rcases xmit_counts env skb s.ch with
        hcounts | ⟨ring, hsame, hcounts, hic, hpackets⟩
      · have hcounts : (s.ch.step (.xmit env skb)).counts = s.ch.counts :=
          hcounts
        rw [Signalled.step_quiet hcounts]
        exact h.quiet hcounts
      · have hcount := devXmit_coalesceCount s.ch.txFrames ring
        obtain ⟨htold, hasks⟩ := devXmit_last s.ch.txFrames ring
        unfold TxChannel.counts at hcounts
        injection hcounts with hframes hrest
        injection hrest with hnew hlen
        unfold Signalled.step Signalled.Counted TxChannel.step
        dsimp only
        have hsent : (s.ch.xmit env skb).logs.accepted.length
            ≠ s.ch.logs.accepted.length := by omega
        rw [hframes, if_pos hsent, hnew, hic, hpackets, hcount, htold]
        intro hne
        split
        · exact Nat.zero_le _
        · next hno =>
          refine pending_grows hne ?_ ?_
          · rw [hsame]
            exact h hne
          · exact Bool.eq_false_iff.2 fun hset => hno (hasks hset)

end Transmit

/-- Whatever packets are handed over, however the polls and the NIC come
in between and wherever the count wraps: of the packets since the last one
that asks for an interrupt, or since the setting was made, there are
always fewer than the setting says, unless it says 0. -/
theorem pending_lt_txFrames (txFrames : U32) (acts : List SignalAct) :
    Run.Always Signalled.step
      (fun s => s.ch.txFrames ≠ 0 → s.pending < s.ch.txFrames.toNat)
      (.fresh txFrames) acts := by
  have hstart : (Signalled.fresh txFrames).Counted :=
    fun _ => Nat.zero_le _
  have hall : Run.Each Signalled.step (fun _ _ => True)
      (.fresh txFrames) acts :=
    Run.each_of_forall_mem (fun _ _ => trivial) _
  refine (Run.Each.always (I := Signalled.Counted)
    (fun s act h _ => h.step act) hstart hall).mono ?_
  intro s h hne
  refine Nat.lt_of_le_of_lt (h hne) ?_
  rw [BitVec.toNat_umod]
  exact Nat.mod_lt _ (Nat.pos_of_ne_zero fun h0 =>
    hne (BitVec.eq_of_toNat_eq h0))

end BxRnic.Mac
