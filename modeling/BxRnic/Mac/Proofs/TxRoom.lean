/-
A running transmit queue has room for any packet.

`mac_xmit` stops the queue when fewer than `MAC_TX_MAX_DESC_NR`
descriptors are left, and `mac_tx_poll` wakes it when more than
`MAC_TX_DESC_MIN_FREE` are. In between a poll only gives descriptors
back, so a queue that runs has the former many
(`TxChannel.HasRoom`), and no packet the network stack makes is counted
for more (`reserved_le_max`).
-/
import BxRnic.Mac.Proofs.TxReserve

namespace BxRnic.Mac

-- ============================================================== the poll

section Poll

variable {ch : TxChannel}

/-- What the loop of `mac_tx_poll` does to the counts. -/
theorem pollLoop_counts (cur : U32) (left processed : Nat)
    (ch : TxChannel) :
    (ch.pollLoop cur left processed).2.logs.posted = ch.logs.posted
      ∧ ch.logs.reclaimed
        ≤ (ch.pollLoop cur left processed).2.logs.reclaimed
      ∧ (ch.pollLoop cur left processed).2.netStopped
        = ch.netStopped := by
  induction left generalizing ch processed with
  | zero => exact ⟨rfl, Nat.le_refl _, rfl⟩
  | succ left ih =>
    rw [pollLoop_succ]
    split
    · exact ⟨rfl, Nat.le_refl _, rfl⟩
    · split
      · exact ⟨rfl, Nat.le_refl _, rfl⟩
      · obtain ⟨haccepted, hreclaimed⟩ := reclaim_logs ch
        obtain ⟨hposted, hmore, hstopped⟩ := ih (processed + 1) ch.reclaim
        have hsame : ch.reclaim.logs.posted = ch.logs.posted := by
          rw [TxLogs.posted, haccepted]
          rfl
        exact ⟨hposted.trans hsame, by omega, hstopped⟩

/-- A poll wakes the queue only over more free descriptors than
`MAC_TX_DESC_MIN_FREE`. -/
theorem poll_wakes (ch : TxChannel) :
    let out := (ch.pollLoop ch.ring.cur txDescMaxProc 0).2
    ch.poll.ring.availDesc = out.ring.availDesc
      ∧ (ch.poll.netStopped = out.netStopped
        ∨ out.ring.availDesc > txDescMinFree) := by
  unfold TxChannel.poll
  generalize ch.pollLoop ch.ring.cur txDescMaxProc 0 = out
  obtain ⟨processed, ch'⟩ := out
  cases processed with
  | zero => exact ⟨rfl, Or.inl rfl⟩
  | succ n =>
    dsimp only
    split
    · rename_i hwake
      rw [Bool.and_eq_true, decide_eq_true_iff] at hwake
      exact ⟨rfl, Or.inr hwake.2⟩
    · exact ⟨rfl, Or.inl rfl⟩

end Poll

-- ========================================================== the invariant

/-- If the network queue is not stopped, any packet has room. -/
def TxChannel.HasRoom (ch : TxChannel) : Prop :=
  ch.netStopped = false → txMaxDescNr ≤ ch.ring.availDesc

/-- A packet as the network stack makes them. -/
def Skb.Bounded (skb : Skb) : Prop :=
  skb.frags.length ≤ maxSkbFrags ∧ skb.len.toNat ≤ gsoMaxSize

/-- A packet is not sent back for lack of descriptors. -/
def TxChannel.Takes (ch : TxChannel) : ChannelAct → Prop
  | .xmit env skb => ch.netStopped = false → skb.Bounded →
      ch.xmitRet env skb ≠ netdevTxBusy
  | .poll => True
  | .complete _ => True

section Room

variable {ch ch' : TxChannel} {env : XmitEnv} {skb : Skb}

/-- A bounded packet is counted for at most `MAC_TX_MAX_DESC_NR`. -/
theorem descCount_le_max (h : skb.Bounded) (ring : TxRing) :
    (ring.prepTxPkt skb).descCount ≤ txMaxDescNr := by
  rw [BitVec.le_def, descCount_prepTxPkt_toNat]
  exact reserved_le_max h.1 h.2 _ _

theorem maybeStop_room (ch : TxChannel) :
    (ch.maybeStop txMaxDescNr).2.HasRoom := by
  unfold TxChannel.maybeStop
  split
  · exact fun hrun => Bool.noConfusion hrun
  · rename_i henough
    exact fun _ => BitVec.not_lt.1 henough

theorem TxChannel.HasRoom.xmit (h : ch.HasRoom) (env : XmitEnv)
    (skb : Skb) : (ch.xmit env skb).HasRoom := by
  have hcase := xmit_cases env skb ch
  generalize ch.xmit env skb = out at hcase ⊢
  generalize ch.xmitRet env skb = ret at hcase
  cases hcase with
  | linkDown _ => exact h
  | empty _ => exact h
  | full _ _ => exact fun hrun => Bool.noConfusion hrun
  | noHeader _ => exact h
  | @unmapped logs ring _ _ hmap =>
    obtain ⟨hkept, -⟩ := mapTxSkb_kept ch.logs ch.ring hmap.symm
    have havail := congrArg TxRing.availDesc hkept
    intro hrun
    exact (h hrun).trans_eq havail.symm
  | @sent logs ring _ _ _ _ _ => exact maybeStop_room _

theorem TxChannel.HasRoom.poll (h : ch.HasRoom) (hring : ch.RingInv) :
    ch.poll.HasRoom := by
  obtain ⟨hout, -⟩ := pollLoop_kept (P := fun _ => True) txDescMaxProc 0
    hring fun _ _ _ => trivial
  obtain ⟨hposted, hmore, hstopped⟩ :=
    pollLoop_counts ch.ring.cur txDescMaxProc 0 ch
  obtain ⟨havail, hwake⟩ := poll_wakes ch
  intro hrun
  rw [havail]
  rcases hwake with hsame | hfree
  · have hbefore := BitVec.le_def.1
      (h (by rw [← hstopped, ← hsame, hrun]))
    rw [hring.avail] at hbefore
    rw [BitVec.le_def, hout.avail, hposted]
    omega
  · have hless := BitVec.lt_def.1 hfree
    have hmin : txMaxDescNr.toNat ≤ txDescMinFree.toNat := by decide
    rw [BitVec.le_def]
    omega

theorem TxChannel.HasRoom.step (h : ch.HasRoom) (hring : ch.RingInv)
    (act : ChannelAct) : (ch.step act).HasRoom := by
  cases act with
  | xmit env skb => exact h.xmit env skb
  | poll => exact h.poll hring
  | complete back =>
    have hsame : (ch.ring.complete back).availDesc
        = ch.ring.availDesc := by
      unfold TxRing.complete
      dsimp only
      split
      · rfl
      · rfl
    intro hrun
    exact (h hrun).trans_eq hsame.symm

/-- With room nothing is sent back. -/
theorem TxChannel.HasRoom.takes (h : ch.HasRoom) (act : ChannelAct) :
    ch.Takes act := by
  cases act with
  | xmit env skb =>
    intro hrun hbounded hbusy
    have hcase := xmit_cases env skb ch
    generalize ch.xmit env skb = out at hcase
    rw [hbusy] at hcase
    have hcount := descCount_le_max hbounded ch.ring
    cases hcase with
    | full _ hfull =>
      exact absurd hfull
        (BitVec.not_lt.2 (BitVec.le_trans hcount (h hrun)))
  | poll => trivial
  | complete back => trivial

end Room

-- ================================================================== runs

/-- Over every run a queue that is not stopped has
`MAC_TX_MAX_DESC_NR` descriptors, no bounded packet is counted for more
or takes more, and none is sent back by a queue that runs. -/
theorem running_queue_has_room :
    (∀ (ring : TxRing) (skb : Skb), skb.Bounded →
        (ring.prepTxPkt skb).descCount ≤ txMaxDescNr
          ∧ (skb.HeadersLinear →
            skb.needed ring.curMss ring.curVlanCtag
              ≤ txMaxDescNr.toNat))
      ∧ ∀ (txFrames : U32) (acts : List ChannelAct),
        (∀ act ∈ acts, act.HeadersLinear) →
        Run.Always TxChannel.step TxChannel.HasRoom (.fresh txFrames) acts
          ∧ Run.Each TxChannel.step TxChannel.Takes (.fresh txFrames)
            acts := by
  constructor
  · intro ring skb hbounded
    refine ⟨descCount_le_max hbounded ring, fun hheaders => ?_⟩
    exact (needed_le_reserved hheaders _ _).trans
      (reserved_le_max hbounded.1 hbounded.2 _ _)
  · intro txFrames acts hacts
    have heach : Run.Each TxChannel.step (fun _ act => act.HeadersLinear)
        (.fresh txFrames) acts := Run.each_of_forall_mem hacts _
    have hstart : (TxChannel.fresh txFrames).RingInv
        ∧ (TxChannel.fresh txFrames).HasRoom :=
      ⟨TxChannel.ringInv_fresh txFrames,
        fun _ => show txMaxDescNr ≤ TxRing.fresh.availDesc by decide⟩
    have hstep : ∀ (ch : TxChannel) (act : ChannelAct),
        ch.RingInv ∧ ch.HasRoom → act.HeadersLinear →
        (ch.step act).RingInv ∧ (ch.step act).HasRoom :=
      fun ch act h hact =>
        ⟨(h.1.step hact).1, h.2.step h.1 act⟩
    constructor
    · exact (heach.always hstep hstart).mono fun _ h => h.2
    · exact heach.each_of_inv hstep hstart fun _ act h _ => h.2.takes act

/-- The tagged packet is sent until the queue stops, which the 815th does;
the NIC completes all of the ring, two polls give it back, and the queue
takes the packet again. -/
def stopAndWake : List ChannelAct :=
  let send : ChannelAct := .xmit ⟨true, true, fun _ => some 0x1000⟩ taggedTso
  List.replicate 815 send ++ List.replicate 4096 (.complete .zero)
    ++ [.poll, .poll, send]

theorem running_queue_takes_one :
    Run.Always TxChannel.step TxChannel.HasRoom (.fresh 25) stopAndWake
      ∧ Run.Each TxChannel.step TxChannel.Takes (.fresh 25)
        stopAndWake := by
  refine running_queue_has_room.2 25 _ fun act hact => ?_
  unfold stopAndWake at hact
  simp only [List.mem_append, List.mem_replicate, List.mem_cons,
    List.not_mem_nil, or_false] at hact
  rcases hact with (⟨-, rfl⟩ | ⟨-, rfl⟩) | rfl | rfl | rfl
  · exact headersLinear_taggedTso
  · trivial
  · trivial
  · trivial
  · exact headersLinear_taggedTso

-- ======================================================= headers outside

section Overrun

variable {ring : TxRing} {c m : Nat}

theorem own_nextDesc (pkt : PktInfo) (data : TxDescData) (d : DmaDesc) :
    (pkt.nextDesc data d).own = true := by
  have hset : Field.get (Field.set (Field.set d.desc3 31 1 1) 30 1 0) 31 1
      = 1 := by
    rw [Field.get_set_of_apart (by decide) (by decide) (by decide),
      Field.get_set (by decide)]
    rfl
  rw [DmaDesc.own, decide_eq_true_iff]
  unfold PktInfo.nextDesc
  dsimp only
  split
  · rw [Field.get_set_of_apart (by decide) (by decide) (by decide)]
    exact hset
  · exact hset

theorem own_setLast (d : DmaDesc) (ic : Bool) :
    (d.setLast ic).own = d.own := by
  unfold DmaDesc.own DmaDesc.setLast
  dsimp only
  rw [Field.get_set_of_apart (by decide) (by decide) (by decide)]

theorem own_setOwn (d : DmaDesc) : d.setOwn.own = true := by
  unfold DmaDesc.own DmaDesc.setOwn
  dsimp only
  rw [Field.get_set (by decide)]
  rfl

/-- The NIC owns every descriptor. -/
def TxRing.AllOwned (ring : TxRing) : Prop :=
  ∀ p < 4096, (ring.dmaDescs p).own = true

theorem TxRing.AllOwned.updDesc (h : ring.AllOwned) (idx : U32)
    {f : DmaDesc → DmaDesc} (hf : ∀ d, d.own = true → (f d).own = true) :
    (ring.updDesc idx f).AllOwned := by
  intro p hp
  show (Function.update ring.dmaDescs (ring.entry idx) _ p).own = true
  by_cases hhere : p = ring.entry idx
  · rw [hhere, Function.update_self]
    rw [← hhere]
    exact hf _ (h p hp)
  · rw [Function.update_of_ne hhere]
    exact h p hp

/-- The descriptors that the loop of `mac_dev_xmit` writes. -/
theorem xmitFrom_owns (left a : Nat) {ring : TxRing} (hsized : ring.Sized)
    {p : Nat} (hp : (ring.dmaDescs p).own = true
      ∨ ∃ i < left, p = (a + 1 + i) % 4096) :
    ((ring.xmitFrom left (BitVec.ofNat 32 a)).2.dmaDescs p).own = true := by
  induction left generalizing a ring with
  | zero =>
    obtain hown | ⟨i, hi, -⟩ := hp
    · exact hown
    · exact absurd hi (Nat.not_lt_zero i)
  | succ left ih =>
    rw [TxRing.xmitFrom, Counter.add_one]
    let ring' := ring.updDesc (BitVec.ofNat 32 (a + 1))
      (ring.pktInfo.nextDesc (ring.descDataHead
        (ring.entry (BitVec.ofNat 32 (a + 1)))))
    have hsized' : ring'.Sized := hsized
    apply ih (a + 1) hsized'
    show (Function.update ring.dmaDescs
      (ring.entry (BitVec.ofNat 32 (a + 1))) _ p).own = true ∨ _
    rw [tx_entry_ofNat hsized]
    by_cases hhere : p = (a + 1) % 4096
    · rw [hhere, Function.update_self]
      exact Or.inl (own_nextDesc _ _ _)
    · rw [Function.update_of_ne hhere]
      obtain hown | ⟨i, hi, heq⟩ := hp
      · exact Or.inl hown
      · cases i with
        | zero => exact absurd heq hhere
        | succ i =>
          refine Or.inr ⟨i, Nat.lt_of_succ_lt_succ hi, ?_⟩
          rw [heq, Nat.add_right_comm (a + 1) 1, Nat.add_assoc (a + 1)]

/-- A chain that is longer than the ring makes every descriptor the
NIC's. -/
theorem devXmit_all (txFrames : U32) (hsized : ring.Sized)
    (hcur : ring.cur = BitVec.ofNat 32 c)
    (hcount : ring.pktInfo.descCount = BitVec.ofNat 32 m)
    (hmany : 4098 ≤ m) (hlt : m < 2 ^ 32) :
    (ring.devXmit txFrames).AllOwned
      ∧ (ring.devXmit txFrames).cur = BitVec.ofNat 32 (c + m) := by
  obtain ⟨hidx, hsized', -⟩ := putContext_spec (c := c)
    (show ({ ring with coalesceCount := ring.coalesceCount
      + ring.pktInfo.txPackets } : TxRing).Sized from hsized) hcur
  change _ = BitVec.ofNat 32 (c + ring.contextCount) at hidx
  have hone := contextCount_le ring
  generalize ring.contextCount = x at *
  unfold TxRing.devXmit
  dsimp only
  generalize TxRing.putContext _ = put at *
  obtain ⟨idx, ring'⟩ := put
  dsimp only at hidx hsized' ⊢
  subst hidx
  have hleft : ring.pktInfo.descCount.toNat
      - ((BitVec.ofNat 32 (c + x) - ring.cur).toNat + 1)
      = m - (x + 1) := by
    rw [hcount, hcur, Counter.sub_toNat (Nat.le_add_right c x) (by omega),
      BitVec.toNat_ofNat, Nat.mod_eq_of_lt hlt]
    omega
  rw [hleft]
  constructor
  · apply TxRing.AllOwned.updDesc _ _ fun d _ => own_setOwn d
    apply TxRing.AllOwned.updDesc _ _ fun d hd => (own_setLast d _).trans hd
    intro p hp
    apply xmitFrom_owns _ _ _ (Or.inr
      ⟨(p + (4096 - (c + x + 1) % 4096)) % 4096, ?_, ?_⟩)
    · exact hsized'
    · have hmod := Nat.mod_lt (p + (4096 - (c + x + 1) % 4096))
        (show 0 < 4096 by decide)
      omega
    · omega
  · rw [xmitFrom_index, ← BitVec.ofNat_add, Counter.add_one]
    congr 1
    omega

/-- A ring that was overrun: `taken` descriptors were counted, the NIC has
completed the first `done` entries and `back` descriptors were given
back. -/
structure TxChannel.Overrun (ch : TxChannel) (taken done back : Nat) :
    Prop where
  sized : ch.ring.Sized
  cur : ch.ring.cur = BitVec.ofNat 32 taken
  dirty : ch.ring.dirty = BitVec.ofNat 32 back
  head : ch.ring.head = done % 4096
  own : ∀ p < 4096, (ch.ring.dmaDescs p).own = decide (done ≤ p)
  running : ch.netStopped = false

variable {ch : TxChannel} {taken done back : Nat}

/-- The NIC completes an entry. -/
theorem TxChannel.Overrun.complete (h : ch.Overrun taken done back)
    (hdone : done < 4096) (desc : DmaDesc) :
    (ch.step (.complete desc)).Overrun taken (done + 1) back := by
  have hhead : ch.ring.head = done :=
    h.head.trans (Nat.mod_eq_of_lt hdone)
  have hown : (ch.ring.dmaDescs ch.ring.head).own = true := by
    rw [hhead, h.own done hdone, decide_eq_true_iff]
  have hstep : ch.step (.complete desc)
      = { ch with ring := ch.ring.complete desc } := rfl
  rw [hstep]
  unfold TxRing.complete
  dsimp only
  rw [if_pos hown]
  refine ⟨h.sized, h.cur, h.dirty, ?_, fun p hp => ?_, h.running⟩
  · show (ch.ring.head + 1) % ch.ring.dmaDescCount.toNat = _
    rw [hhead, h.sized]
    rfl
  · show (Function.update ch.ring.dmaDescs ch.ring.head _ p).own = _
    rw [hhead]
    by_cases hhere : p = done
    · rw [hhere, Function.update_self, own_complete, eq_comm,
        decide_eq_false_iff_not]
      omega
    · rw [Function.update_of_ne hhere, h.own p hp]
      refine decide_eq_decide.2 ?_
      omega

theorem TxChannel.Overrun.completes (h : ch.Overrun taken done back)
    (desc : DmaDesc) (n : Nat) (hn : done + n ≤ 4096) :
    (Run.exec TxChannel.step ch
      (List.replicate n (.complete desc))).Overrun taken (done + n)
      back := by
  induction n generalizing ch done with
  | zero => exact h
  | succ n ih =>
    rw [List.replicate_succ, Run.exec_cons]
    have hrest := ih (h.complete (by omega) desc) (by omega)
    rw [Nat.add_right_comm, Nat.add_assoc] at hrest
    exact hrest

/-- An entry that the NIC has completed is given back, whether its packet
is the first in it or not. -/
theorem TxChannel.Overrun.reclaim (h : ch.Overrun taken done back)
    (hback : back % 4096 < done) :
    ch.reclaim.Overrun taken done (back + 1) := by
  have hentry := tx_entry_ofNat h.sized back
  rw [← h.dirty] at hentry
  have hdescs : ch.reclaim.ring.dmaDescs
      = Function.update ch.ring.dmaDescs (back % 4096) .zero := by
    rw [← hentry]
    rfl
  refine ⟨h.sized, h.cur, ?_, h.head, fun p hp => ?_, h.running⟩
  · rw [← Counter.add_one, ← h.dirty]
    rfl
  · rw [hdescs]
    by_cases hhere : p = back % 4096
    · rw [hhere, Function.update_self, eq_comm, decide_eq_false_iff_not.2]
      · rfl
      · omega
    · rw [Function.update_of_ne hhere]
      exact h.own p hp

/-- The loop of `mac_tx_poll` goes on as long as entries are completed. -/
theorem TxChannel.Overrun.pollLoop (n left processed : Nat)
    (h : ch.Overrun taken done back) (htaken : taken < 2 ^ 32)
    (hle : back + n ≤ taken)
    (hdone : ∀ i < n, (back + i) % 4096 < done)
    (hstop : n = left ∨ n < left ∧ done ≤ (back + n) % 4096) :
    (ch.pollLoop (BitVec.ofNat 32 taken) left processed).2.Overrun taken
      done (back + n) := by
  induction n generalizing ch left processed back with
  | zero =>
    cases left with
    | zero => exact h
    | succ left =>
      have hown := h.own (back % 4096) (Nat.mod_lt _ (by decide))
      have hentry := tx_entry_ofNat h.sized back
      rw [← h.dirty] at hentry
      obtain hzero | ⟨-, hstop⟩ := hstop
      · cases hzero
      · rw [pollLoop_succ, hentry, hown,
          if_pos (decide_eq_true (show done ≤ back % 4096 from hstop))]
        split
        · exact h
        · exact h
  | succ n ih =>
    cases left with
    | zero => omega
    | succ left =>
      have hfirst := hdone 0 (Nat.succ_pos n)
      rw [Nat.add_zero] at hfirst
      have hown := h.own (back % 4096) (Nat.mod_lt _ (by decide))
      have hentry := tx_entry_ofNat h.sized back
      rw [← h.dirty] at hentry
      have hmore : ¬ ch.ring.dirty = BitVec.ofNat 32 taken := fun heq => by
        have hnat := congrArg BitVec.toNat (h.dirty.symm.trans heq)
        rw [BitVec.toNat_ofNat, BitVec.toNat_ofNat] at hnat
        omega
      rw [pollLoop_succ, if_neg hmore, hentry, hown,
        if_neg (by rw [decide_eq_true_iff]; omega)]
      have hrest := ih left (processed + 1)
        (h.reclaim hfirst) (by omega)
        (fun i hi => by
          have hnext := hdone (i + 1) (Nat.succ_lt_succ hi)
          rwa [Nat.add_comm i 1, ← Nat.add_assoc] at hnext)
        (by rw [Nat.add_assoc, Nat.add_comm 1 n]; omega)
      rw [Nat.add_assoc, Nat.add_comm 1 n] at hrest
      exact hrest

/-- A poll gives back what is completed, up to `MAC_TX_DESC_MAX_PROC`. -/
theorem TxChannel.Overrun.poll (n : Nat) (h : ch.Overrun taken done back)
    (htaken : taken < 2 ^ 32) (hle : back + n ≤ taken)
    (hdone : ∀ i < n, (back + i) % 4096 < done)
    (hstop : n = txDescMaxProc
      ∨ n < txDescMaxProc ∧ done ≤ (back + n) % 4096) :
    (ch.step .poll).Overrun taken done (back + n) := by
  have hloop := h.pollLoop n _ 0 htaken hle hdone hstop
  show ch.poll.Overrun _ _ _
  unfold TxChannel.poll
  rw [h.cur]
  generalize ch.pollLoop _ _ _ = out at hloop
  obtain ⟨processed, ch'⟩ := out
  cases processed with
  | zero => exact hloop
  | succ p =>
    dsimp only
    split
    · exact ⟨hloop.sized, hloop.cur, hloop.dirty, hloop.head, hloop.own,
        rfl⟩
    · exact hloop

/-- Once every entry is completed each poll gives back the most it can,
round and round. -/
theorem TxChannel.Overrun.polls (h : ch.Overrun taken 4096 back)
    (htaken : taken < 2 ^ 32) (n : Nat)
    (hle : back + n * txDescMaxProc ≤ taken) :
    (Run.exec TxChannel.step ch (List.replicate n .poll)).Overrun taken
      4096 (back + n * txDescMaxProc) := by
  induction n generalizing ch back with
  | zero =>
    rw [Nat.zero_mul]
    exact h
  | succ n ih =>
    rw [List.replicate_succ, Run.exec_cons]
    have hmul : back + txDescMaxProc + n * txDescMaxProc
        = back + (n + 1) * txDescMaxProc := by
      rw [Nat.add_mul, Nat.one_mul, Nat.add_assoc, Nat.add_comm (n * _)]
    have hpoll := h.poll txDescMaxProc htaken (by omega)
      (fun i _ => Nat.mod_lt _ (by decide)) (Or.inl rfl)
    have hrest := ih hpoll (by omega)
    rw [hmul] at hrest
    exact hrest

/-- Of a packet that takes more than the ring has, the counted many are
free and the rest overruns it: the count of what is free wraps, and the
queue runs on. -/
theorem TxChannel.Overrun.of_xmit {dma : Nat → Option U64} {skb : Skb}
    (hall : ∀ i, (dma i).isSome = true) (hsized : ch.ring.Sized)
    (hcur : ch.ring.cur = 0) (hdirty : ch.ring.dirty = 0)
    (hhead : ch.ring.head = 0) (hrun : ch.netStopped = false)
    (hlen : skb.len ≠ 0)
    (hroom : ¬ (ch.ring.prepTxPkt skb).descCount > ch.ring.availDesc)
    (htaken : skb.needed ch.ring.curMss ch.ring.curVlanCtag = taken)
    (hmany : 4098 ≤ taken) (hlt : taken < 2 ^ 32)
    (hwraps : ¬ 4096 - (BitVec.ofNat 32 taken - 0) < txMaxDescNr) :
    (ch.step (.xmit ⟨true, true, dma⟩ skb)).Overrun taken 0 0 := by
  obtain ⟨logs, ring, hmap⟩ := mapTxSkb_true dma hall skb ch.logs ch.ring
  obtain ⟨hkept, -⟩ := mapTxSkb_kept _ _ hmap.symm
  have hmapped := mapped_of_sent (c := 0) hsized hcur hmap
  have hcount : ring.pktInfo.descCount = BitVec.ofNat 32 taken := by
    rw [← htaken]
    exact hmapped.descCount
  obtain ⟨hown, hcur'⟩ :=
    devXmit_all ch.txFrames hmapped.sized hmapped.cur hcount hmany hlt
  rw [Nat.zero_add] at hcur'
  have hframe := devXmit_frame ch.txFrames ring
  have hsize : (ring.devXmit ch.txFrames).dmaDescCount
      = ring.dmaDescCount := congrArg (fun f => f.1) hframe
  have hsame : (ring.devXmit ch.txFrames).dirty = ring.dirty :=
    congrArg (fun f => f.2.1) hframe
  have hstill : (ring.devXmit ch.txFrames).head = ring.head :=
    congrArg (fun f => f.2.2.2.1) hframe
  have hsized' := hsize.trans hmapped.sized
  have hdirty' := (hsame.trans hmapped.dirty).trans hdirty
  have hkeep := congrArg TxRing.head hkept
  have hhead' := (hstill.trans hkeep).trans hhead
  have hstep : ch.step (.xmit ⟨true, true, dma⟩ skb)
      = ((ch.sent skb logs ring).maybeStop txMaxDescNr).2 :=
    xmit_of_mapped rfl hlen rfl hroom hmap
  have havail : (ch.sent skb logs ring).ring.availDesc
      = 4096 - (BitVec.ofNat 32 taken - 0) := by
    show (ring.devXmit ch.txFrames).availDesc = _
    rw [TxRing.availDesc, hsized', hcur', hdirty']
    rfl
  have hgo : ((ch.sent skb logs ring).maybeStop txMaxDescNr).2
      = ch.sent skb logs ring := by
    rw [TxChannel.maybeStop, havail, if_neg hwraps]
  rw [hstep, hgo]
  refine ⟨hsized', hcur', hdirty', hhead', fun p hp => ?_, hrun⟩
  rw [decide_eq_true (Nat.zero_le p)]
  exact hown p hp

theorem needed_headersInFrag : headersInFrag.needed 0 0 = 263176 := by
  rw [Skb.needed, length_layout]
  rfl

/-- A packet whose headers are outside of its linear part overruns a ring
that has just been started. -/
theorem overrun_headersInFrag (txFrames : U32) :
    ((TxChannel.fresh txFrames).step
      (.xmit ⟨true, true, fun _ => some 0x1000⟩ headersInFrag)).Overrun
      263176 0 0 := by
  have hroom : ¬ (TxRing.fresh.prepTxPkt headersInFrag).descCount
      > TxRing.fresh.availDesc := by
    rw [prepTxPkt_descCount]
    decide
  exact TxChannel.Overrun.of_xmit (fun _ => rfl) rfl rfl rfl rfl rfl
    (by decide) hroom needed_headersInFrag (by decide) (by decide)
    (by decide)

/-- It is counted for 3 descriptors and takes 263176. The available count
wraps, the queue is not stopped, and when the NIC has completed the ring
and 127 polls have given back what they find, 8 descriptors are left to a
queue that runs. -/
theorem headers_outside_no_room :
    let send : ChannelAct :=
      .xmit ⟨true, true, fun _ => some 0x1000⟩ headersInFrag
    let completes (n : Nat) : List ChannelAct :=
      List.replicate n (.complete .zero)
    let acts : List ChannelAct :=
      send :: (completes 1040 ++ .poll :: (completes 3056
        ++ List.replicate 126 .poll))
    headersInFrag.Bounded
      ∧ headersInFrag.needed 0 0 = 263176
      ∧ (Run.exec TxChannel.step (.fresh 25) acts).netStopped = false
      ∧ (Run.exec TxChannel.step (.fresh 25) acts).ring.availDesc = 8
      ∧ ¬ Run.Always TxChannel.step TxChannel.HasRoom (.fresh 25)
        acts := by
  intro send completes acts
  have hstart := overrun_headersInFrag 25
  have hfirst := hstart.completes .zero 1040 (by decide)
  have hpoll := hfirst.poll 1040 (by decide) (by decide)
    (fun i hi => by omega) (Or.inr ⟨by decide, by decide⟩)
  have hrest := hpoll.completes .zero 3056 (by decide)
  have hpolls := hrest.polls (by decide) 126 (by decide)
  rw [← Run.exec_append, ← Run.exec_cons, ← Run.exec_append,
    ← Run.exec_cons] at hpolls
  change (Run.exec TxChannel.step (.fresh 25) acts).Overrun _ _ _ at hpolls
  have havail : (Run.exec TxChannel.step (.fresh 25) acts).ring.availDesc
      = 8 := by
    rw [TxRing.availDesc, hpolls.cur, hpolls.dirty, hpolls.sized]
    rfl
  refine ⟨⟨by decide, by decide⟩, needed_headersInFrag, hpolls.running,
    havail, fun halways => ?_⟩
  have hroom := halways.last hpolls.running
  rw [havail] at hroom
  exact absurd hroom (by decide)

end Overrun

end BxRnic.Mac
