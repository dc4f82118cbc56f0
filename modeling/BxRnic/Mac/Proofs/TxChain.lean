/-
The chain of descriptors `mac_dev_xmit` writes for a packet.

`TxRing.chainDesc` is the descriptor at a position of the chain, put
together as the code does: context, first or following, and on top of
that the marks of the last and of the first. `devXmit_descs` says that
the chain is what the ring holds afterwards and that nothing else has
changed, `devXmit_wrote` in which order its entries were written.
-/
import BxRnic.Mac.Proofs.TxLayout
import BxRnic.Mac.Proofs.TxWindow

namespace BxRnic.Mac

-- ========================================================== the write log

/-- The ring was written to, at these entries in this order. -/
def TxRing.Wrote (ring ring' : TxRing) (entries : List Nat) : Prop :=
  ∃ new, ring'.writes = ring.writes ++ new ∧ new.map (·.1) = entries

section Wrote

variable {ring ring' ring'' : TxRing} {xs ys : List Nat}

theorem TxRing.Wrote.refl (ring : TxRing) : ring.Wrote ring [] :=
  ⟨[], (List.append_nil _).symm, rfl⟩

theorem TxRing.Wrote.trans (h : ring.Wrote ring' xs)
    (h' : ring'.Wrote ring'' ys) : ring.Wrote ring'' (xs ++ ys) := by
  obtain ⟨new, heq, rfl⟩ := h
  obtain ⟨new', heq', rfl⟩ := h'
  exact ⟨new ++ new', by rw [heq', heq, List.append_assoc],
    List.map_append⟩

theorem TxRing.Wrote.updDesc (h : ring.Sized) (k : Nat)
    (f : DmaDesc → DmaDesc) :
    ring.Wrote (ring.updDesc (BitVec.ofNat 32 k) f) [k % 4096] :=
  ⟨_, rfl, congrArg (fun i => [i]) (tx_entry_ofNat h k)⟩

theorem TxRing.Wrote.wroteOnly {P : Nat × DmaDesc → Prop}
    (h : ring.Wrote ring' xs) (hP : ∀ w : Nat × DmaDesc, w.1 ∈ xs → P w) :
    ring.WroteOnly P ring' := by
  obtain ⟨new, heq, rfl⟩ := h
  exact ⟨new, heq, fun w hw => hP w (List.mem_map_of_mem hw)⟩

end Wrote

-- ============================================================ the chain

/-- How many context descriptors a packet has. -/
def TxRing.contextCount (ring : TxRing) : Nat :=
  if ring.needsContext ring.pktInfo then 1 else 0

/-- The descriptor at position `j` of a chain, without the marks. -/
def TxRing.chainBody (ring : TxRing) (c j : Nat) : DmaDesc :=
  let pkt := ring.pktInfo
  if j < ring.contextCount then
    pkt.contextDesc (pkt.tso && pkt.mss ≠ ring.curMss)
      (pkt.vlan && pkt.vlanCtag ≠ ring.curVlanCtag) (ring.descs c j)
  else if j = ring.contextCount then
    pkt.firstDesc (ring.datas c j) (ring.contextCount ≠ 0)
      (ring.descs c j)
  else pkt.nextDesc (ring.datas c j) (ring.descs c j)

/-- The descriptor at position `j` of a chain of `m`. -/
def TxRing.chainDesc (ring : TxRing) (txFrames : U32) (c m j : Nat) :
    DmaDesc :=
  let marked :=
    if j + 1 = m then (ring.chainBody c j).setLast (ring.setIc txFrames)
    else ring.chainBody c j
  if j = 0 then marked.setOwn else marked

section Chain

variable {ring : TxRing} {c m : Nat} (txFrames : U32)

theorem contextCount_le (ring : TxRing) : ring.contextCount ≤ 1 := by
  unfold TxRing.contextCount
  split
  · exact Nat.le_refl 1
  · exact Nat.zero_le 1

/-- The context descriptor, if there is one. -/
theorem putContext_spec (h : ring.Sized)
    (hcur : ring.cur = BitVec.ofNat 32 c) :
    ring.putContext.1 = BitVec.ofNat 32 (c + ring.contextCount)
      ∧ ring.putContext.2.Sized
      ∧ ring.putContext.2.pktInfo = ring.pktInfo
      ∧ ring.putContext.2.descDataHead = ring.descDataHead
      ∧ ring.Wrote ring.putContext.2
        ((List.range ring.contextCount).map fun j => (c + j) % 4096)
      ∧ ∀ j, j < 4096 → ring.putContext.2.descs c j
        = if j < ring.contextCount then
            ring.pktInfo.contextDesc
              (ring.pktInfo.tso && ring.pktInfo.mss ≠ ring.curMss)
              (ring.pktInfo.vlan
                && ring.pktInfo.vlanCtag ≠ ring.curVlanCtag)
              (ring.descs c j)
          else ring.descs c j := by
  have hneeds : ring.needsContext ring.pktInfo
      = ((ring.pktInfo.tso && ring.pktInfo.mss ≠ ring.curMss)
        || (ring.pktInfo.vlan
          && ring.pktInfo.vlanCtag ≠ ring.curVlanCtag)) := rfl
  rw [TxRing.putContext, TxRing.contextCount]
  dsimp only
  rw [← hneeds]
  cases ring.needsContext ring.pktInfo with
  | false =>
    simp only [Bool.false_eq_true, if_false]
    refine ⟨hcur, h, ?_, ?_, .refl ring,
      fun j _ => (if_neg (Nat.not_lt_zero j)).symm⟩
    · trivial
    · trivial
  | true =>
    simp only [if_true]
    refine ⟨?_, h, rfl, rfl, ?_, fun j hj => ?_⟩
    · rw [hcur]
      exact Counter.add_one
    · rw [hcur]
      exact TxRing.Wrote.updDesc h c _
    · have hdescs := descs_updDesc (c := c)
        (ring.pktInfo.contextDesc
          (ring.pktInfo.tso && ring.pktInfo.mss ≠ ring.curMss)
          (ring.pktInfo.vlan
            && ring.pktInfo.vlanCtag ≠ ring.curVlanCtag))
        h (a := 0) (by omega) hj
      rw [Nat.add_zero, ← hcur] at hdescs
      show (ring.updDesc ring.cur _).descs c j = _
      rw [hdescs]
      by_cases hj0 : j = 0
      · rw [if_pos hj0, if_pos (by omega), hj0]
      · rw [if_neg hj0, if_neg (by omega)]

/-- The entries the loop writes. -/
theorem xmitFrom_wrote (left : Nat) {ring : TxRing} {a : Nat}
    (h : ring.Sized) :
    ring.Wrote (ring.xmitFrom left (BitVec.ofNat 32 (c + a))).2
      ((List.range' (a + 1) left).map fun j => (c + j) % 4096) := by
  induction left generalizing ring a with
  | zero => exact .refl ring
  | succ left ih =>
    have hnext : BitVec.ofNat 32 (c + a) + 1
        = BitVec.ofNat 32 (c + (a + 1)) := Counter.add_one
    rw [TxRing.xmitFrom, hnext, List.range'_succ, List.map_cons]
    exact (TxRing.Wrote.updDesc h _ _).trans (ih (a := a + 1) h)

/-- The data descriptors, the first of them at position `x`. -/
theorem putDatas_spec (first : DmaDesc → DmaDesc) {x : Nat}
    (h : ring.Sized) (hx : x < m) (hm : m ≤ 4096)
    {out : U32 × TxRing}
    (hout : out = (ring.updDesc (BitVec.ofNat 32 (c + x)) first).xmitFrom
      (m - (x + 1)) (BitVec.ofNat 32 (c + x))) :
    out.1 = BitVec.ofNat 32 (c + (m - 1))
      ∧ out.2.Sized
      ∧ out.2.pktInfo = ring.pktInfo
      ∧ out.2.descDataHead = ring.descDataHead
      ∧ ring.Wrote out.2
        ((List.range' x (m - x)).map fun j => (c + j) % 4096)
      ∧ ∀ j, j < 4096 → out.2.descs c j
        = if j = x then first (ring.descs c x)
          else if x < j ∧ j < m then
            ring.pktInfo.nextDesc (ring.datas c j) (ring.descs c j)
          else ring.descs c j := by
  subst hout
  have hsized : (ring.updDesc (BitVec.ofNat 32 (c + x)) first).Sized := h
  obtain ⟨hidx, hrest, hdescs⟩ :=
    xmitFrom_spec (c := c) (m - (x + 1)) (a := x) hsized (by omega)
  have hlast : x + (m - (x + 1)) = m - 1 := by omega
  have hmore : m - x = m - (x + 1) + 1 := by omega
  have hsize := congrArg TxRing.dmaDescCount hrest
  have hpkt := congrArg TxRing.pktInfo hrest
  have hdata := congrArg TxRing.descDataHead hrest
  refine ⟨?_, hsize.trans h, hpkt, hdata, ?_, fun j hj => ?_⟩
  · rw [hidx, hlast]
  · rw [hmore, List.range'_succ, List.map_cons]
    exact (TxRing.Wrote.updDesc h _ first).trans
      (xmitFrom_wrote (m - (x + 1)) hsized)
  · rw [hdescs j hj, descs_updDesc _ h (by omega) hj]
    by_cases hjx : j = x
    · rw [if_neg (by omega), if_pos hjx, if_pos hjx]
    · rw [if_neg hjx, if_neg hjx]
      by_cases hin : x < j ∧ j < m
      · rw [if_pos hin, if_pos (by omega)]
        rfl
      · rw [if_neg hin, if_neg (by omega)]

/-- The marks of the last descriptor and the first, and the report. -/
theorem putMarks_spec (last own : DmaDesc → DmaDesc)
    (report : TxDescData → TxDescData) (h : ring.Sized) (hm0 : 0 < m)
    (hm : m ≤ 4096) {out : TxRing}
    (hout : out = ((ring.updDesc (BitVec.ofNat 32 (c + (m - 1))) last
        ).updData (BitVec.ofNat 32 (c + (m - 1))) report
        ).updDesc (BitVec.ofNat 32 c) own) :
    ring.Wrote out ([m - 1, 0].map fun j => (c + j) % 4096)
      ∧ (∀ j, j < 4096 → out.descs c j
        = if j = 0 then
            own (if j + 1 = m then last (ring.descs c j)
              else ring.descs c j)
          else if j + 1 = m then last (ring.descs c j)
          else ring.descs c j)
      ∧ ∀ j, j < 4096 → out.datas c j
        = if j + 1 = m then report (ring.datas c j)
          else ring.datas c j := by
  subst hout
  have hlast : ∀ j, j < 4096 →
      (ring.updDesc (BitVec.ofNat 32 (c + (m - 1))) last).descs c j
        = if j + 1 = m then last (ring.descs c j)
          else ring.descs c j := fun j hj => by
    rw [descs_updDesc last h (by omega) hj]
    by_cases hjm : j + 1 = m
    · rw [if_pos (by omega), if_pos hjm, ← hjm, Nat.add_sub_cancel]
    · rw [if_neg (by omega), if_neg hjm]
  refine ⟨?_, fun j hj => ?_, fun j hj => ?_⟩
  · have hsized : ((ring.updDesc (BitVec.ofNat 32 (c + (m - 1))) last
        ).updData (BitVec.ofNat 32 (c + (m - 1))) report).Sized := h
    exact (TxRing.Wrote.updDesc h _ last).trans
      (TxRing.Wrote.updDesc hsized c own)
  · have hsized : ((ring.updDesc (BitVec.ofNat 32 (c + (m - 1))) last
        ).updData (BitVec.ofNat 32 (c + (m - 1))) report).Sized := h
    have hown := descs_updDesc (c := c) own hsized (a := 0) (by omega) hj
    rw [Nat.add_zero] at hown
    rw [hown]
    by_cases hj0 : j = 0
    · rw [if_pos hj0, if_pos hj0, hj0]
      exact congrArg own (hlast 0 (by omega))
    · rw [if_neg hj0, if_neg hj0]
      exact hlast j hj
  · have hsized :
        (ring.updDesc (BitVec.ofNat 32 (c + (m - 1))) last).Sized := h
    have hreport := datas_updData (c := c) report hsized (a := m - 1)
      (by omega) hj
    refine hreport.trans ?_
    by_cases hjm : j + 1 = m
    · rw [if_pos (by omega), if_pos hjm, ← hjm, Nat.add_sub_cancel]
      rfl
    · rw [if_neg (by omega), if_neg hjm]
      rfl

/-- `mac_dev_xmit` by its parts: the context descriptor, which the data
descriptors follow from position `x` on, the loop and the marks. -/
private theorem devXmit_parts {x : Nat} {r1 : TxRing}
    (hcur : ring.cur = BitVec.ofNat 32 c)
    (hcount : ring.pktInfo.descCount = BitVec.ofNat 32 m)
    (hx : x ≤ 1) (hm : m ≤ 4096)
    (hput : TxRing.putContext { ring with
        coalesceCount := ring.coalesceCount + ring.pktInfo.txPackets }
      = (BitVec.ofNat 32 (c + x), r1))
    (hsized : r1.Sized) (hdata : r1.descDataHead = ring.descDataHead) :
    ring.devXmit txFrames
      = (let out := (r1.updDesc (BitVec.ofNat 32 (c + x))
          (ring.pktInfo.firstDesc (ring.datas c x) (x ≠ 0))).xmitFrom
          (m - (x + 1)) (BitVec.ofNat 32 (c + x))
        { ((out.2.updDesc out.1 fun d =>
              d.setLast (ring.setIc txFrames)).updData out.1 fun d =>
            { d with
              packets := ring.pktInfo.txPackets
              bytes := ring.pktInfo.txBytes }).updDesc (BitVec.ofNat 32 c)
            DmaDesc.setOwn with cur := out.1 + 1 }) := by
  have hentry : r1.descDataHead (r1.entry (BitVec.ofNat 32 (c + x)))
      = ring.datas c x := by
    rw [tx_entry_ofNat hsized, hdata]
    rfl
  have hstart : BitVec.ofNat 32 (c + x) ≠ BitVec.ofNat 32 c ↔ x ≠ 0 := by
    refine not_congr ⟨fun heq => ?_, fun hzero => by rw [hzero]; rfl⟩
    have hnat := congrArg BitVec.toNat heq
    rw [BitVec.toNat_ofNat, BitVec.toNat_ofNat] at hnat
    omega
  have hleft : ring.pktInfo.descCount.toNat
      - ((BitVec.ofNat 32 (c + x) - BitVec.ofNat 32 c).toNat + 1)
      = m - (x + 1) := by
    rw [hcount, Counter.sub_toNat (Nat.le_add_right c x) (by omega),
      BitVec.toNat_ofNat, Nat.mod_eq_of_lt (by omega)]
    omega
  unfold TxRing.devXmit
  dsimp only
  rw [hput]
  dsimp only
  rw [hentry, hcur, hleft]
  simp only [hstart]

/-- The context descriptor and the data descriptors make up the chain. -/
private theorem range_split {x : Nat} (h : x ≤ m) :
    List.range x ++ List.range' x (m - x) = List.range m := by
  have happend := List.range'_append_1 (s := 0) (m := x) (n := m - x)
  rw [Nat.zero_add, Nat.add_sub_cancel' h] at happend
  rw [List.range_eq_range', List.range_eq_range', happend]

/-- A position of the chain, from what the context step and the loop
leave there. -/
private theorem chainBody_parts {x : Nat} (hx : ring.contextCount = x)
    (hxm : x < m) {put : Nat → DmaDesc} {j : Nat}
    (hput : put j = if j < x then
        ring.pktInfo.contextDesc
          (ring.pktInfo.tso && ring.pktInfo.mss ≠ ring.curMss)
          (ring.pktInfo.vlan && ring.pktInfo.vlanCtag ≠ ring.curVlanCtag)
          (ring.descs c j)
      else ring.descs c j) :
    (if j = x then
        ring.pktInfo.firstDesc (ring.datas c x) (x ≠ 0) (ring.descs c x)
      else if x < j ∧ j < m then
        ring.pktInfo.nextDesc (ring.datas c j) (put j)
      else put j)
      = if j < m then ring.chainBody c j else ring.descs c j := by
  rw [hput, TxRing.chainBody, hx]
  rcases Nat.lt_trichotomy j x with hlt | heq | hgt
  · have hnot : ¬ (x < j ∧ j < m) := fun hboth => Nat.lt_asymm hlt hboth.1
    rw [if_neg (Nat.ne_of_lt hlt), if_neg hnot, if_pos hlt,
      if_pos (hlt.trans hxm), if_pos hlt]
  · rw [if_pos heq, heq, if_pos hxm, if_neg (Nat.lt_irrefl x), if_pos rfl]
  · have hne : ¬ j = x := Nat.ne_of_gt hgt
    have hnot : ¬ j < x := Nat.lt_asymm hgt
    rw [if_neg hne, if_neg hnot]
    by_cases hjm : j < m
    · rw [if_pos ⟨hgt, hjm⟩, if_pos hjm, if_neg hnot, if_neg hne]
    · rw [if_neg fun hboth => hjm hboth.2, if_neg hjm]

/-- What `mac_dev_xmit` leaves in the ring: the chain from position `c`
on, and the report in its last entry. -/
theorem devXmit_spec (h : ring.Sized)
    (hcur : ring.cur = BitVec.ofNat 32 c)
    (hcount : ring.pktInfo.descCount = BitVec.ofNat 32 m)
    (hctx : ring.contextCount < m) (hm : m ≤ 4096) :
    (ring.devXmit txFrames).cur = BitVec.ofNat 32 (c + m)
      ∧ ring.Wrote (ring.devXmit txFrames)
        ((List.range m ++ [m - 1, 0]).map fun j => (c + j) % 4096)
      ∧ (∀ j, j < 4096 → (ring.devXmit txFrames).descs c j
        = if j < m then ring.chainDesc txFrames c m j
          else ring.descs c j)
      ∧ ∀ j, j < 4096 → (ring.devXmit txFrames).datas c j
        = if j + 1 = m then
            { ring.datas c j with
              packets := ring.pktInfo.txPackets
              bytes := ring.pktInfo.txBytes }
          else ring.datas c j := by
  -- the context descriptor
  let r0 : TxRing :=
    { ring with
      coalesceCount := ring.coalesceCount + ring.pktInfo.txPackets }
  obtain ⟨hidx1, hsized1, hpkt1, hdata1, hwrote1, hdescs1⟩ :=
    putContext_spec (c := c) (show r0.Sized from h) hcur
  have hx0 : r0.contextCount = ring.contextCount := rfl
  rw [hx0] at hidx1 hwrote1 hdescs1
  have hctx1 := contextCount_le ring
  generalize hx : ring.contextCount = x at *
  generalize hput : r0.putContext = put at *
  obtain ⟨idx, r1⟩ := put
  dsimp only at hidx1 hsized1 hpkt1 hdata1 hwrote1 hdescs1
  subst hidx1
  rw [devXmit_parts txFrames hcur hcount hctx1 hm hput hsized1 hdata1]
  generalize hout : (r1.updDesc (BitVec.ofNat 32 (c + x))
    (ring.pktInfo.firstDesc (ring.datas c x) (x ≠ 0))).xmitFrom
    (m - (x + 1)) (BitVec.ofNat 32 (c + x)) = out
  -- the data descriptors, then the marks
  obtain ⟨hidx2, hsized2, -, hdata2, hwrote2, hdescs2⟩ :=
    putDatas_spec _ hsized1 hctx hm hout.symm
  obtain ⟨hwrote3, hdescs3, hdatas3⟩ :=
    putMarks_spec (c := c) (m := m)
      (fun d => d.setLast (ring.setIc txFrames)) DmaDesc.setOwn
      (fun d => { d with
        packets := ring.pktInfo.txPackets
        bytes := ring.pktInfo.txBytes }) hsized2 (by omega) hm rfl
  dsimp only
  rw [hidx2]
  refine ⟨?_, ?_, fun j hj => ?_, fun j hj => ?_⟩
  · rw [Counter.add_one]
    congr 1
    omega
  · have hwrote := (hwrote1.trans hwrote2).trans hwrote3
    rw [← List.map_append, range_split (Nat.le_of_lt hctx),
      ← List.map_append] at hwrote
    exact hwrote
  · refine (hdescs3 j hj).trans ?_
    have hdata : r1.datas c j = ring.datas c j :=
      congrFun hdata1 ((c + j) % 4096)
    have hfirst : r1.descs c x = ring.descs c x :=
      (hdescs1 x (by omega)).trans (if_neg (Nat.lt_irrefl x))
    have hbody : out.2.descs c j
        = if j < m then ring.chainBody c j else ring.descs c j := by
      rw [hdescs2 j hj, hfirst, hdata, hpkt1]
      exact chainBody_parts hx hctx (hdescs1 j hj)
    rw [hbody, TxRing.chainDesc]
    by_cases hjm : j < m
    · rw [if_pos hjm, if_pos hjm]
    · rw [if_neg hjm, if_neg hjm, if_neg (by omega), if_neg (by omega)]
  · refine (hdatas3 j hj).trans ?_
    have hsame : out.2.datas c j = ring.datas c j := by
      show out.2.descDataHead _ = _
      rw [hdata2, hdata1]
      rfl
    rw [hsame]

/-- Where the loop of `mac_dev_xmit` ends. -/
theorem xmitFrom_index (left : Nat) (idx : U32) (ring : TxRing) :
    (ring.xmitFrom left idx).1 = idx + BitVec.ofNat 32 left := by
  induction left generalizing idx ring with
  | zero => exact (BitVec.add_zero idx).symm
  | succ left ih =>
    have hmore : BitVec.ofNat 32 (left + 1) = 1 + BitVec.ofNat 32 left := by
      rw [Nat.add_comm, BitVec.ofNat_add]
      rfl
    rw [TxRing.xmitFrom, ih, hmore, BitVec.add_assoc]

/-- What `mac_dev_xmit` leaves as it was. -/
def TxRing.frame (ring : TxRing) : U32 × U32 × Bool × Nat × Nat :=
  (ring.dmaDescCount, ring.dirty, ring.queueStopped, ring.head,
    ring.completed)

theorem xmitFrom_frame (left : Nat) (idx : U32) (ring : TxRing) :
    (ring.xmitFrom left idx).2.frame = ring.frame := by
  induction left generalizing idx ring with
  | zero => rfl
  | succ left ih => exact (ih _ _).trans rfl

theorem putContext_frame (ring : TxRing) :
    ring.putContext.2.frame = ring.frame := by
  unfold TxRing.putContext
  dsimp only
  split
  · rfl
  · rfl

theorem devXmit_frame (ring : TxRing) :
    (ring.devXmit txFrames).frame = ring.frame := by
  have hcontext := putContext_frame
    { ring with
      coalesceCount := ring.coalesceCount + ring.pktInfo.txPackets }
  unfold TxRing.devXmit
  dsimp only
  generalize TxRing.putContext _ = put at hcontext ⊢
  exact (xmitFrom_frame _ _ _).trans hcontext

/-- The segment size and the tag that were sent last. -/
def TxRing.context (ring : TxRing) : U16 × U16 :=
  (ring.curMss, ring.curVlanCtag)

theorem xmitFrom_context (left : Nat) (idx : U32) (ring : TxRing) :
    (ring.xmitFrom left idx).2.context = ring.context := by
  induction left generalizing idx ring with
  | zero => rfl
  | succ left ih => exact (ih _ _).trans rfl

/-- What is told anew only where it differs is the last told. -/
theorem last_told {α : Type} [DecidableEq α] (b : Bool) (new old : α) :
    (if (b && decide (new ≠ old)) = true then new else old)
      = if b = true then new else old := by
  cases b with
  | false => rfl
  | true =>
    by_cases h : new = old
    · simp [h]
    · simp [h]

theorem putContext_context (ring : TxRing) :
    ring.putContext.2.context
      = (if ring.pktInfo.tso then ring.pktInfo.mss else ring.curMss,
        if ring.pktInfo.vlan then ring.pktInfo.vlanCtag
        else ring.curVlanCtag) := by
  rw [← last_told ring.pktInfo.tso, ← last_told ring.pktInfo.vlan]
  unfold TxRing.putContext TxRing.context
  dsimp only
  split
  · rfl
  · rename_i hneither
    obtain ⟨htso, hvlan⟩ := not_or.1 fun h =>
      hneither (Bool.or_eq_true_iff.2 h)
    rw [if_neg htso, if_neg hvlan]

theorem devXmit_context (ring : TxRing) :
    (ring.devXmit txFrames).context
      = (if ring.pktInfo.tso then ring.pktInfo.mss else ring.curMss,
        if ring.pktInfo.vlan then ring.pktInfo.vlanCtag
        else ring.curVlanCtag) := by
  have hcontext := putContext_context
    { ring with
      coalesceCount := ring.coalesceCount + ring.pktInfo.txPackets }
  unfold TxRing.devXmit
  dsimp only
  generalize TxRing.putContext _ = put at hcontext ⊢
  exact (xmitFrom_context _ _ _).trans hcontext

end Chain

end BxRnic.Mac
