/-
The queues are dealt out: each transmit queue has one traffic class and
each VLAN priority one receive queue, in runs that are level.

The two loops are the same dealing (Lib/Deal), one of queues to classes
and one of priorities to queues. What they write is followed register by
register: a queue of the first loop has a register of its own, and four
queues of the second share one.
-/
import BxRnic.Mac.QueueMapping

namespace BxRnic.Mac

open Deal

-- ============================================================== transmit

section Transmit

variable {n k : Nat}

theorem mtlReg_inj {q q' : Nat}
    (h : MAC_MTL_REG q MTL_Q_TQOMR = MAC_MTL_REG q' MTL_Q_TQOMR) :
    q = q' := by
  unfold MAC_MTL_REG MTL_Q_INC at h
  omega

theorem mapTxTc_eq (i : Nat) (s : Nat × MacRegs) :
    mapTxTc (n / k) (n % k) i s = (mapTxq i)^[share n k i] s :=
  iterate_share (mapTxq i) i s

/-- What a run of the inner loop writes. -/
theorem iterate_mapTxq (i c : Nat) (s : Nat × MacRegs) :
    ((mapTxq i)^[c] s).1 = s.1 + c
      ∧ ((∀ q, s.1 ≤ q → q < s.1 + c →
          ((mapTxq i)^[c] s).2 (MAC_MTL_REG q MTL_Q_TQOMR)
            = Field.set (s.2 (MAC_MTL_REG q MTL_Q_TQOMR)) 8 3
              (BitVec.ofNat 32 i))
        ∧ ∀ addr, (∀ q, s.1 ≤ q → q < s.1 + c →
            addr ≠ MAC_MTL_REG q MTL_Q_TQOMR) →
          ((mapTxq i)^[c] s).2 addr = s.2 addr) := by
  induction c with
  | zero =>
    refine ⟨rfl, ?_, ?_⟩
    · intro q hge hlt
      omega
    · intro addr _
      rfl
  | succ c ih =>
    obtain ⟨hqueue, hin, hout⟩ := ih
    rw [Function.iterate_succ_apply']
    generalize (mapTxq i)^[c] s = t at hqueue hin hout ⊢
    unfold mapTxq MacRegs.setField MacRegs.writel
    dsimp only
    rw [hqueue]
    refine ⟨by omega, ?_, ?_⟩
    · intro q hge hlt
      by_cases hq : q = s.1 + c
      · -- the queue of this pass, which no earlier one has written
        subst hq
        rw [Function.update_self, hout]
        intro q' _ hlt' heq
        have := mtlReg_inj heq
        omega
      · rw [Function.update_of_ne (fun heq => hq (mtlReg_inj heq))]
        exact hin q hge (by omega)
    · intro addr hne
      rw [Function.update_of_ne (hne _ (by omega) (by omega))]
      apply hout
      intro q hge hlt
      exact hne q hge (by omega)

/-- What the loop has written when it comes to class `m`. -/
theorem mapTxTcs_spec (regs : MacRegs) (m : Nat) :
    (mapTxTcs (n / k) (n % k) m regs).1 = start n k m
      ∧ ((∀ i < m, ∀ q, Held n k i q →
          (mapTxTcs (n / k) (n % k) m regs).2 (MAC_MTL_REG q MTL_Q_TQOMR)
            = Field.set (regs (MAC_MTL_REG q MTL_Q_TQOMR)) 8 3
              (BitVec.ofNat 32 i))
        ∧ ∀ addr, (∀ q < start n k m,
            addr ≠ MAC_MTL_REG q MTL_Q_TQOMR) →
          (mapTxTcs (n / k) (n % k) m regs).2 addr = regs addr) := by
  induction m with
  | zero =>
    refine ⟨start_zero.symm, ?_, ?_⟩
    · intro i hi
      omega
    · intro addr _
      rfl
  | succ m ih =>
    obtain ⟨hqueue, hin, hout⟩ := ih
    have hrun := iterate_mapTxq m (share n k m)
      (mapTxTcs (n / k) (n % k) m regs)
    rw [hqueue, ← start_succ] at hrun
    obtain ⟨hqueue', hin', hout'⟩ := hrun
    rw [mapTxTcs, mapTxTc_eq]
    refine ⟨hqueue', ?_, ?_⟩
    · intro i hi q hheld
      by_cases him : i = m
      · subst him
        rw [hin' q hheld.1 hheld.2, hout]
        intro q' hlt heq
        have := mtlReg_inj heq
        have := hheld.1
        omega
      · have hbefore : start n k (i + 1) ≤ start n k m :=
          start_mono (by omega)
        have hq := hheld.2
        rw [hout']
        · exact hin i (by omega) q hheld
        · intro q' hge _ heq
          have := mtlReg_inj heq
          omega
    · intro addr hne
      have hle : start n k m ≤ start n k (m + 1) := start_mono (by omega)
      rw [hout' addr (fun q _ hlt => hne q hlt)]
      apply hout
      intro q hlt
      exact hne q (by omega)

end Transmit

-- =============================================================== receive

section Receive

variable {k : Nat}

theorem queueMask_eq (i prio : Nat) :
    queueMask (8 / k) (8 % k) i prio
      = addPrio^[share 8 k i] (0, prio) :=
  iterate_share addPrio i (0, prio)

theorem getLsbD_bit {b prio : Nat} (hb : b < 32) :
    ((1 : U32) <<< prio).getLsbD b = decide (b = prio) := by
  have hone : (1 : U32) <<< prio = BitVec.twoPow 32 prio :=
    (BitVec.twoPow_eq 32 prio).symm
  rw [hone, BitVec.getLsbD_twoPow]
  by_cases heq : b = prio
  · have hprio : prio < 32 := by omega
    simp [heq, hprio]
  · have hne : ¬ prio = b := by omega
    simp [heq, hne]

/-- The mask that a run of the inner loop puts together. -/
theorem iterate_addPrio (c prio : Nat) :
    (addPrio^[c] (0, prio)).2 = prio + c
      ∧ ∀ b < 32, (addPrio^[c] (0, prio)).1.getLsbD b
        = decide (prio ≤ b ∧ b < prio + c) := by
  induction c with
  | zero =>
    refine ⟨rfl, ?_⟩
    intro b _
    have hnot : ¬ (prio ≤ b ∧ b < prio + 0) := by omega
    rw [decide_eq_false hnot]
    exact BitVec.getLsbD_zero
  | succ c ih =>
    obtain ⟨hprio, hbits⟩ := ih
    rw [Function.iterate_succ_apply']
    generalize addPrio^[c] (0, prio) = s at hprio hbits ⊢
    unfold addPrio
    dsimp only
    refine ⟨by omega, ?_⟩
    intro b hb
    rw [BitVec.getLsbD_or, hbits b hb, hprio, getLsbD_bit hb]
    by_cases heq : b = prio + c
    · have hin : prio ≤ b ∧ b < prio + (c + 1) := by omega
      rw [decide_eq_true heq, Bool.or_true, decide_eq_true hin]
    · have hiff : prio ≤ b ∧ b < prio + (c + 1)
          ↔ prio ≤ b ∧ b < prio + c := by omega
      rw [decide_eq_false heq, Bool.or_false]
      simp only [hiff]

/-- The priorities of queue `i` are its run. -/
theorem queueMask_bits (i : Nat) {b : Nat} (hb : b < 32) :
    (queueMask (8 / k) (8 % k) i (start 8 k i)).1.getLsbD b
      = decide (Held 8 k i b) := by
  rw [queueMask_eq, (iterate_addPrio _ _).2 b hb, ← start_succ]
  rfl

/-- The word holds the masks of the queues from `4 * r` on, up to queue
`bound`. -/
def RowBits (k bound r : Nat) (w : U32) : Prop :=
  ∀ b < 32, w.getLsbD b
    = decide (4 * r + b / 8 < bound ∧ Held 8 k (4 * r + b / 8) (b % 8))

theorem RowBits.empty (r : Nat) : RowBits k (4 * r) r 0 := by
  intro b _
  have hnot : ¬ (4 * r + b / 8 < 4 * r ∧ Held 8 k (4 * r + b / 8) (b % 8)) :=
    fun h => by omega
  rw [decide_eq_false hnot]
  exact BitVec.getLsbD_zero

/-- One more queue of the row. -/
theorem RowBits.add {i : Nat} {w : U32} (hk : i < k)
    (h : RowBits k i (i / 4) w) :
    RowBits k (i + 1) (i / 4)
      (w ||| ((queueMask (8 / k) (8 % k) i (start 8 k i)).1
        <<< ((i % 4) <<< 3))) := by
  intro b hb
  have hshift : (i % 4) <<< 3 = 8 * (i % 4) := by
    rw [Nat.shiftLeft_eq]
    omega
  rw [BitVec.getLsbD_or, h b hb, BitVec.getLsbD_shiftLeft,
    hshift, queueMask_bits i (by omega)]
  rcases Nat.lt_trichotomy (b / 8) (i % 4) with hlt | heq | hgt
  · -- a byte before the queue's own
    have hbelow : b < 8 * (i % 4) := by omega
    have hi : 4 * (i / 4) + b / 8 < i := by omega
    have hi' : 4 * (i / 4) + b / 8 < i + 1 := by omega
    simp only [hbelow, hi, hi', decide_true, Bool.not_true, true_and,
      Bool.and_false, Bool.false_and, Bool.or_false]
  · -- the queue's byte
    have hbelow : ¬ b < 8 * (i % 4) := by omega
    have hqueue : 4 * (i / 4) + b / 8 = i := by omega
    have hprio : b - 8 * (i % 4) = b % 8 := by omega
    simp only [hbelow, hqueue, hprio, hb, lt_irrefl, Nat.lt_succ_self,
      decide_true, decide_false, false_and, true_and, Bool.not_false,
      Bool.true_and, Bool.false_or]
  · -- a byte after it, which priorities below 8 do not reach
    have hi : ¬ 4 * (i / 4) + b / 8 < i := by omega
    have hi' : ¬ 4 * (i / 4) + b / 8 < i + 1 := by omega
    have hnot : ¬ Held 8 k i (b - 8 * (i % 4)) := by
      intro hheld
      have := hheld.lt (by omega) hk
      omega
    simp only [hi, hi', hnot, decide_false, false_and, Bool.and_false,
      Bool.false_or]

/-- What holds when the loop comes to queue `i`: `rows` registers have
been written. -/
structure RqmcInv (k : Nat) (regs : MacRegs) (i rows : Nat)
    (s : RqmcLoop) : Prop where
  prio : s.prio = start 8 k i
  reg : s.reg = MAC_RQMC + 4 * rows
  count : rows = if i = k then (k + 3) / 4 else i / 4
  row : i < k → RowBits k i (i / 4) s.regval
  done : ∀ r < rows, RowBits k k r (s.regs (MAC_RQMC + 4 * r))
  others : ∀ addr, (∀ r < rows, addr ≠ MAC_RQMC + 4 * r) →
    s.regs addr = regs addr

theorem mapRxq_inv {regs : MacRegs} {i rows : Nat} {s : RqmcLoop}
    (hi : i < k) (h : RqmcInv k regs i rows s) :
    ∃ rows', RqmcInv k regs (i + 1) rows'
      (mapRxq (8 / k) (8 % k) k i s) := by
  have hrow := (h.row hi).add hi
  have hcount : rows = i / 4 := by
    rw [h.count, if_neg (by omega)]
  have hprio : (queueMask (8 / k) (8 % k) i (start 8 k i)).2
      = start 8 k (i + 1) := by
    rw [queueMask_eq, (iterate_addPrio _ _).1, ← start_succ]
  unfold mapRxq MAC_RQMC_Q_PER_REG MAC_RQMC_INC
  rw [h.prio]
  generalize queueMask (8 / k) (8 % k) i (start 8 k i) = m at hrow hprio ⊢
  obtain ⟨mask, prio⟩ := m
  dsimp only at hrow hprio ⊢
  split
  · next hgo =>
    -- the register has room for the next queue
    have hsame : (i + 1) / 4 = i / 4 := by omega
    refine ⟨rows, hprio, h.reg, ?_, ?_, h.done, h.others⟩
    · rw [if_neg hgo.2, hsame, hcount]
    · intro _
      rw [hsame]
      exact hrow
  · next hstop =>
    have hlast : (i + 1) % 4 = 0 ∨ i + 1 = k := by omega
    refine ⟨rows + 1, hprio, ?_, ?_, ?_, ?_, ?_⟩
    · dsimp only
      rw [h.reg]
      omega
    · split
      · omega
      · omega
    · intro hlt
      have hempty : 4 * ((i + 1) / 4) = i + 1 := by omega
      have := RowBits.empty (k := k) ((i + 1) / 4)
      rw [hempty] at this
      exact this
    · intro r hr
      dsimp only [MacRegs.writel]
      by_cases heq : r = rows
      · subst heq
        rw [h.reg, Function.update_self]
        intro b hb
        rw [hcount, hrow b hb]
        have hiff : 4 * (i / 4) + b / 8 < i + 1
            ↔ 4 * (i / 4) + b / 8 < k := by omega
        simp only [hiff]
      · rw [h.reg, Function.update_of_ne (by omega)]
        exact h.done r (by omega)
    · intro addr hne
      dsimp only [MacRegs.writel]
      rw [h.reg, Function.update_of_ne (hne rows (by omega))]
      apply h.others
      intro r hr
      exact hne r (by omega)

theorem mapRxqs_inv (regs : MacRegs) :
    ∀ {i : Nat}, 0 < k → i ≤ k →
      ∃ rows, RqmcInv k regs i rows (mapRxqs (8 / k) (8 % k) k i regs)
  | 0, hk, _ => by
      refine ⟨0, start_zero.symm, rfl, ?_, ?_, ?_, ?_⟩
      · rw [if_neg (by omega)]
      · intro _
        exact RowBits.empty 0
      · intro r hr
        omega
      · intro addr _
        rfl
  | i + 1, hk, hi => by
      obtain ⟨rows, h⟩ := mapRxqs_inv regs hk (Nat.le_of_succ_le hi)
      exact mapRxq_inv (by omega) h

end Receive

-- ============================================================== channels

theorem get_or (a b : U32) {pos len : Nat} (h : pos + len ≤ 32) :
    Field.get (a ||| b) pos len = Field.get a pos len ||| Field.get b pos len := by
  refine BitVec.eq_of_getLsbD_eq fun i _ => ?_
  rw [BitVec.getLsbD_or, Field.getLsbD_get h, Field.getLsbD_get h,
    Field.getLsbD_get h, BitVec.getLsbD_or, Bool.and_or_distrib_left]

/-- The constants number the channels. -/
theorem rqdcm_bytes :
    (∀ i < 4, Field.get rqdcm0 (8 * i) 8 = BitVec.ofNat 32 i)
      ∧ (∀ i < 4, Field.get rqdcm1 (8 * i) 8 = BitVec.ofNat 32 (4 + i))
      ∧ ∀ i < 4, Field.get rqdcm2 (8 * i) 8 = BitVec.ofNat 32 (8 + i) := by
  decide

/-- A byte of a register in which bits were set. -/
theorem getField_orl (regs : MacRegs) (bits : U32) (addr : Nat) {j : Nat}
    (hj : j < 4) :
    (regs.orl bits addr).getField addr (8 * j) 8
      = regs.getField addr (8 * j) 8 ||| Field.get bits (8 * j) 8 := by
  unfold MacRegs.getField MacRegs.orl MacRegs.writel
  rw [Function.update_self, get_or _ _ (by omega)]

theorem getField_orl_of_ne {regs : MacRegs} {bits : U32} {addr addr' : Nat}
    (h : addr' ≠ addr) (pos len : Nat) :
    (regs.orl bits addr).getField addr' pos len
      = regs.getField addr' pos len := by
  unfold MacRegs.getField MacRegs.orl MacRegs.writel
  rw [Function.update_of_ne h]

theorem dmaChannel_map (regs : MacRegs) {i : Nat} (hi : i < 12) :
    dmaChannel (mapDmaChannels regs) i
      = dmaChannel regs i ||| BitVec.ofNat 32 i := by
  obtain ⟨hfirst, hsecond, hthird⟩ := rqdcm_bytes
  have hbyte : i % 4 < 4 := Nat.mod_lt i (by omega)
  have hrow : i / 4 = 0 ∨ i / 4 = 1 ∨ i / 4 = 2 := by omega
  unfold dmaChannel mapDmaChannels MTL_RQDCM_INC MTL_RQDCM0R
  rcases hrow with hrow | hrow | hrow
  · have hi' : i % 4 = i := by omega
    rw [hrow, getField_orl_of_ne (by omega), getField_orl_of_ne (by omega),
      getField_orl _ _ _ hbyte, hfirst _ hbyte, hi']
  · have hi' : 4 + i % 4 = i := by omega
    rw [hrow, getField_orl_of_ne (by omega), getField_orl _ _ _ hbyte,
      getField_orl_of_ne (by omega), hsecond _ hbyte, hi']
  · have hi' : 8 + i % 4 = i := by omega
    rw [hrow, getField_orl _ _ _ hbyte, getField_orl_of_ne (by omega),
      getField_orl_of_ne (by omega), hthird _ hbyte, hi']

/-- Only the three registers of the channels are written. -/
theorem mapDmaChannels_of_ne (regs : MacRegs) {addr : Nat}
    (h : addr < 0x1030 ∨ 0x1038 < addr) :
    mapDmaChannels regs addr = regs addr := by
  unfold mapDmaChannels MacRegs.orl MacRegs.writel MTL_RQDCM_INC
    MTL_RQDCM0R
  rw [Function.update_of_ne (by omega), Function.update_of_ne (by omega),
    Function.update_of_ne (by omega)]

-- ============================================================= the whole

/-- The queues are mapped as they are meant to be. -/
structure QueuesMapped (dev dev' : QueueDev) : Prop where
  /-- A transmit queue has the class whose run it is in. -/
  tx : ∀ q < dev.txQCount, ∀ i < dev.tcCnt,
    txClass dev'.regs q = BitVec.ofNat 32 i
      ↔ Held dev.txQCount dev.tcCnt i q
  /-- A class has its share of the queues. -/
  txShare : ∀ i < dev.tcCnt,
    ((Finset.range dev.txQCount).filter fun q =>
        txClass dev'.regs q = BitVec.ofNat 32 i).card
      = share dev.txQCount dev.tcCnt i
  /-- The queues of the registers that are written take the priorities of
  their runs, and those behind the last one none. -/
  rx : ∀ i < 4 * ((dev.prioQueues + 3) / 4), ∀ p < 8,
    takesPrio dev'.regs i p
      = decide (i < dev.prioQueues ∧ Held 8 dev.prioQueues i p)
  /-- Each priority has one queue, which the device has. -/
  rxQueue : ∀ p < 8,
    ∃! i, i < min 8 dev.rxQCount ∧ takesPrio dev'.regs i p = true
  /-- The channel of a queue is its own, but for bits that were there. -/
  channels : ∀ i < 12,
    dmaChannel dev'.regs i = dmaChannel dev.regs i ||| BitVec.ofNat 32 i
  /-- The rest of a transmit queue's register stays. -/
  keeps : ∀ q pos len, pos + len ≤ 32 → pos + len ≤ 8 ∨ 11 ≤ pos →
    dev'.regs.getField (MAC_MTL_REG q MTL_Q_TQOMR) pos len
      = dev.regs.getField (MAC_MTL_REG q MTL_Q_TQOMR) pos len
  /-- So do the registers of other things. -/
  others : ∀ addr, (∀ q < dev.txQCount, addr ≠ MAC_MTL_REG q MTL_Q_TQOMR) →
    addr < MAC_RQMC ∨ MAC_RQMC + 4 * ((dev.prioQueues + 3) / 4) ≤ addr →
    addr < MTL_RQDCM0R ∨ MTL_RQDCM0R + 8 < addr →
    dev'.regs addr = dev.regs addr

section Whole

variable (dev : QueueDev)

theorem prioQueues_pos : 0 < dev.prioQueues := by
  have := dev.rxQCount_pos
  unfold QueueDev.prioQueues IEEE_8021QAZ_MAX_TCS
  omega

theorem prioQueues_le : dev.prioQueues ≤ 8 := by
  unfold QueueDev.prioQueues IEEE_8021QAZ_MAX_TCS
  omega

/-- What the two loops and the mapping of the channels write. -/
theorem configQueueMapping_regs :
    (∀ i < dev.tcCnt, ∀ q, Held dev.txQCount dev.tcCnt i q →
      dev.configQueueMapping.regs (MAC_MTL_REG q MTL_Q_TQOMR)
        = Field.set (dev.regs (MAC_MTL_REG q MTL_Q_TQOMR)) 8 3
          (BitVec.ofNat 32 i))
      ∧ (∀ r < (dev.prioQueues + 3) / 4,
        RowBits dev.prioQueues dev.prioQueues r
          (dev.configQueueMapping.regs (MAC_RQMC + 4 * r)))
      ∧ (∀ i < 12, dmaChannel dev.configQueueMapping.regs i
        = dmaChannel dev.regs i ||| BitVec.ofNat 32 i)
      ∧ ∀ addr,
        (∀ q < dev.txQCount, addr ≠ MAC_MTL_REG q MTL_Q_TQOMR) →
        (∀ r < (dev.prioQueues + 3) / 4, addr ≠ MAC_RQMC + 4 * r) →
        addr < MTL_RQDCM0R ∨ MTL_RQDCM0R + 8 < addr →
        dev.configQueueMapping.regs addr = dev.regs addr := by
  obtain ⟨-, hin, hout⟩ :=
    mapTxTcs_spec (n := dev.txQCount) (k := dev.tcCnt) dev.regs dev.tcCnt
  rw [start_last dev.tcCnt_pos] at hout
  obtain ⟨rows, h⟩ := mapRxqs_inv (k := dev.prioQueues)
    (mapTxTcs (dev.txQCount / dev.tcCnt) (dev.txQCount % dev.tcCnt)
      dev.tcCnt dev.regs).2
    (prioQueues_pos dev) le_rfl
  have hrows : rows = (dev.prioQueues + 3) / 4 := by
    rw [h.count, if_pos rfl]
  have hfew := prioQueues_le dev
  have hregs : dev.configQueueMapping.regs = mapDmaChannels
      (mapRxqs (8 / dev.prioQueues) (8 % dev.prioQueues) dev.prioQueues
        dev.prioQueues
        (mapTxTcs (dev.txQCount / dev.tcCnt) (dev.txQCount % dev.tcCnt)
          dev.tcCnt dev.regs).2).regs := rfl
  have hdone := h.done
  have hothers := h.others
  rw [hrows] at hdone hothers
  rw [hregs]
  refine ⟨?_, ?_, ?_, ?_⟩
  · intro i hi q hheld
    have hq : 0x1100 ≤ MAC_MTL_REG q MTL_Q_TQOMR :=
      Nat.le_add_right 0x1100 (q * 0x80)
    rw [mapDmaChannels_of_ne _ (by omega), hothers]
    · exact hin i hi q hheld
    · intro r hr
      unfold MAC_RQMC
      omega
  · intro r hr
    rw [mapDmaChannels_of_ne]
    · exact hdone r hr
    · unfold MAC_RQMC
      omega
  · intro i hi
    have haddr : MTL_RQDCM0R + MTL_RQDCM_INC * (i / 4)
        = 0x1030 + 4 * (i / 4) := rfl
    rw [dmaChannel_map _ hi]
    unfold dmaChannel MacRegs.getField
    rw [hothers, hout]
    · intro q _
      rw [haddr]
      unfold MAC_MTL_REG MTL_Q_BASE MTL_Q_INC
      omega
    · intro r hr
      rw [haddr]
      unfold MAC_RQMC
      omega
  · intro addr htx hrx hdma
    rw [mapDmaChannels_of_ne _ hdma, hothers addr hrx, hout addr htx]

/-- A queue of the rows takes the priorities of its run. -/
theorem takesPrio_of_row {regs : MacRegs} {k i p : Nat} (hp : p < 8)
    (h : RowBits k k (i / 4) (regs (MAC_RQMC + 4 * (i / 4)))) :
    takesPrio regs i p = decide (i < k ∧ Held 8 k i p) := by
  have hqueue : 4 * (i / 4) + (8 * (i % 4) + p) / 8 = i := by omega
  have hprio : (8 * (i % 4) + p) % 8 = p := by omega
  have hbits := h (8 * (i % 4) + p) (by omega)
  rw [hqueue, hprio] at hbits
  exact hbits

theorem ofNat_class {i j : Nat} (hi : i < 8) (hj : j < 8) :
    Field.get (BitVec.ofNat 32 i : U32) 0 3 = BitVec.ofNat 32 j ↔ i = j := by
  have hfits : (BitVec.ofNat 32 i : U32).toNat < 2 ^ 3 := by
    rw [BitVec.toNat_ofNat]
    omega
  rw [Field.get_zero_of_lt (by omega) hfits]
  constructor
  · intro heq
    bv_omega
  · intro heq
    rw [heq]

/-- The class of a queue that is dealt out. -/
theorem txClass_iff {q i : Nat} (hq : q < dev.txQCount) (hi : i < dev.tcCnt) :
    txClass dev.configQueueMapping.regs q = BitVec.ofNat 32 i
      ↔ Held dev.txQCount dev.tcCnt i q := by
  obtain ⟨hin, -⟩ := configQueueMapping_regs dev
  have hle := dev.tcCnt_le
  obtain ⟨j, ⟨hj, hheld⟩, -⟩ := existsUnique_held dev.tcCnt_pos hq
  unfold txClass MacRegs.getField
  rw [hin j hj q hheld, Field.get_set (by omega),
    ofNat_class (by omega) (by omega)]
  constructor
  · intro heq
    rw [← heq]
    exact hheld
  · intro hheld'
    exact hheld.unique hheld'

/-- `mac_config_queue_mapping` maps the queues as it is meant to, whatever
their number and whatever the registers held. -/
theorem queues_mapped : QueuesMapped dev dev.configQueueMapping := by
  obtain ⟨hin, hrow, hchannels, hother⟩ := configQueueMapping_regs dev
  have hrx : ∀ i < 4 * ((dev.prioQueues + 3) / 4), ∀ p < 8,
      takesPrio dev.configQueueMapping.regs i p
        = decide (i < dev.prioQueues ∧ Held 8 dev.prioQueues i p) :=
    fun i hi p hp => takesPrio_of_row hp (hrow (i / 4) (by omega))
  refine ⟨fun q hq i hi => txClass_iff dev hq hi, ?_, hrx, ?_,
    hchannels, ?_, ?_⟩
  · intro i hi
    rw [← card_held dev.tcCnt_pos hi]
    congr 1
    apply Finset.filter_congr
    intro q hq
    exact txClass_iff dev (Finset.mem_range.1 hq) hi
  · intro p hp
    obtain ⟨i, ⟨hi, hheld⟩, hunique⟩ :=
      existsUnique_held (prioQueues_pos dev) hp
    refine ⟨i, ⟨hi, ?_⟩, ?_⟩
    · rw [hrx i (by omega) p hp]
      exact decide_eq_true ⟨hi, hheld⟩
    · intro j hj
      have hlt : j < dev.prioQueues := hj.1
      have htakes := hj.2
      rw [hrx j (by omega) p hp] at htakes
      exact hunique j (of_decide_eq_true htakes)
  · intro q pos len hlen hap
    by_cases hq : q < dev.txQCount
    · obtain ⟨j, ⟨hj, hheld⟩, -⟩ := existsUnique_held dev.tcCnt_pos hq
      unfold MacRegs.getField
      rw [hin j hj q hheld]
      exact Field.get_set_of_apart (by omega) hlen (by omega)
    · unfold MacRegs.getField
      rw [hother]
      · intro q' hq' heq
        have := mtlReg_inj heq
        omega
      · intro r hr
        have := prioQueues_le dev
        unfold MAC_MTL_REG MTL_Q_BASE MAC_RQMC
        omega
      · unfold MAC_MTL_REG MTL_Q_BASE MTL_RQDCM0R
        omega
  · intro addr htx hrq hdma
    apply hother addr htx _ hdma
    intro r hr
    omega

end Whole

end BxRnic.Mac
