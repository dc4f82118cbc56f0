/-
Who owns a packet when `mac_xmit` returns.

The network core reads it off the returned code: `NETDEV_TX_BUSY` hands
the packet back, a code below `NET_XMIT_MASK` says that the driver has
consumed it. A consumed packet is freed by the call, or it is in one
entry of the ring, the last before the index (`TxChannel.Owes`), until a
poll gets there and frees it (`TxChannel.Paid`).

With the link down `mac_xmit` returns 1, which is below `NET_XMIT_MASK`,
and has done neither.
-/
import BxRnic.Mac.Proofs.TxReclaim

namespace BxRnic.Mac

-- ========================================================== the contract

/-- `NET_XMIT_MASK` -/
def netXmitMask : Int := 0x0f

/-- No entry holds the packet. -/
def TxRing.NotHeld (ring : TxRing) (id : Nat) : Prop :=
  ∀ i, (ring.descDataHead i).skb ≠ some id

/-- One entry holds the packet, the last before the index, and a poll has
yet to get there; it was freed so many times before. -/
structure TxChannel.Owes (ch : TxChannel) (id freed : Nat) : Prop where
  pending : ch.ring.dirty ≠ ch.ring.cur
  held : ∀ i, (ch.ring.descDataHead i).skb = some id
    ↔ i = ch.ring.entry (ch.ring.cur - 1)
  freed : ch.logs.freed.count id = freed

/-- The packet was freed, once, and no entry holds it. -/
structure TxChannel.Paid (ch : TxChannel) (id freed : Nat) : Prop where
  held : ch.ring.NotHeld id
  freed : ch.logs.freed.count id = freed + 1

/-- Not a transmission. -/
def ChannelAct.Quiet : ChannelAct → Prop
  | .xmit _ _ => False
  | .poll => True
  | .complete _ => True

/-- The packet is left in the ring: `mac_xmit` has not freed it, and
whatever the NIC completes, polls free it once; if the NIC owns nothing,
some number of them does. -/
structure TxChannel.Left (ch ch' : TxChannel) (skb : Skb) : Prop where
  dropped : ch'.logs.dropped = ch.logs.dropped
  owes : ch'.Owes skb.id (ch.logs.freed.count skb.id)
  kept : ∀ acts, (∀ act ∈ acts, act.Quiet) →
    (Run.exec TxChannel.step ch' acts).Owes skb.id
        (ch.logs.freed.count skb.id)
      ∨ (Run.exec TxChannel.step ch' acts).Paid skb.id
        (ch.logs.freed.count skb.id)
  polled : ∀ acts, (∀ act ∈ acts, act.Quiet) →
    (∀ i, ((Run.exec TxChannel.step ch' acts).ring.dmaDescs i).own
      = false) →
    ∃ n, (Run.exec TxChannel.step ch'
      (acts ++ List.replicate n .poll)).Paid skb.id
      (ch.logs.freed.count skb.id)

/-- The packet was freed by `mac_xmit`, once, and no entry holds it. -/
structure TxChannel.Freed (ch ch' : TxChannel) (skb : Skb) : Prop where
  dropped : ch'.logs.dropped = ch.logs.dropped ++ [skb.id]
  held : ch'.ring.NotHeld skb.id
  freed : ch'.logs.freed.count skb.id = ch.logs.freed.count skb.id

/-- The returned code says who owns the packet. -/
def TxChannel.Honours (ch : TxChannel) (env : XmitEnv) (skb : Skb) :
    Prop :=
  (ch.xmitRet env skb = netdevTxBusy
      ∧ (ch.xmit env skb).logs = ch.logs
      ∧ (ch.xmit env skb).ring.besideFlags = ch.ring.besideFlags)
    ∨ (ch.xmitRet env skb < netXmitMask
      ∧ (ch.Freed (ch.xmit env skb) skb
        ∨ ch.Left (ch.xmit env skb) skb))

-- ============================================================== mac_tx_poll

section Poll

variable {ch : TxChannel} {id freed : Nat}

/-- What reclaiming an entry does to the packets. -/
theorem reclaim_entries (ch : TxChannel) :
    (∀ i, (ch.reclaim.ring.descDataHead i).skb
        = if i = ch.ring.entry ch.ring.dirty then none
          else (ch.ring.descDataHead i).skb)
      ∧ ch.reclaim.logs.freed = ch.logs.freed
        ++ (ch.ring.descDataHead
          (ch.ring.entry ch.ring.dirty)).skb.toList := by
  unfold TxChannel.reclaim
  dsimp only
  rw [unmapTxDesc_eq]
  constructor
  · intro i
    show (Function.update ch.ring.descDataHead
      (ch.ring.entry ch.ring.dirty) _ i).skb = _
    by_cases hi : i = ch.ring.entry ch.ring.dirty
    · rw [if_pos hi, hi, Function.update_self]
      rfl
    · rw [if_neg hi, Function.update_of_ne hi]
  · dsimp only
    split
    · rfl
    · rfl

theorem reclaim_descs (ch : TxChannel) :
    ch.reclaim.ring.dmaDescs = Function.update ch.ring.dmaDescs
      (ch.ring.entry ch.ring.dirty) .zero := rfl

/-- A packet that is freed stays so. -/
theorem TxChannel.Paid.reclaim (h : ch.Paid id freed) :
    ch.reclaim.Paid id freed := by
  obtain ⟨hskbs, hfreed⟩ := reclaim_entries ch
  refine ⟨fun i => ?_, ?_⟩
  · rw [hskbs]
    split
    · exact Option.some_ne_none id |>.symm
    · exact h.held i
  · rw [hfreed, List.count_append, h.freed]
    refine Nat.add_eq_left.2 (List.count_eq_zero.2 fun hmem => ?_)
    exact h.held _ (Option.mem_toList.1 hmem)

/-- A packet is freed when the entry that holds it is reclaimed. -/
theorem TxChannel.Owes.reclaim (h : ch.Owes id freed) :
    ch.reclaim.Owes id freed ∨ ch.reclaim.Paid id freed := by
  obtain ⟨hskbs, hfreed⟩ := reclaim_entries ch
  by_cases hat : ch.ring.entry ch.ring.dirty
      = ch.ring.entry (ch.ring.cur - 1)
  · refine Or.inr ⟨fun i => ?_, ?_⟩
    · rw [hskbs]
      by_cases hi : i = ch.ring.entry ch.ring.dirty
      · rw [if_pos hi]
        exact Option.some_ne_none id |>.symm
      · rw [if_neg hi]
        exact fun hheld => hi (((h.held i).1 hheld).trans hat.symm)
    · rw [hfreed, (h.held _).2 hat, List.count_append, h.freed]
      exact congrArg (freed + ·) List.count_singleton_self
  · refine Or.inl ⟨?_, fun i => ?_, ?_⟩
    · show ch.ring.dirty + 1 ≠ ch.ring.cur
      intro heq
      refine hat (congrArg ch.ring.entry ?_)
      rw [← heq, BitVec.add_sub_cancel]
    · rw [hskbs]
      show _ ↔ i = ch.ring.entry (ch.ring.cur - 1)
      by_cases hi : i = ch.ring.entry ch.ring.dirty
      · rw [if_pos hi]
        constructor
        · exact fun hnone => absurd hnone.symm (Option.some_ne_none id)
        · exact fun hlast => absurd (hi.symm.trans hlast) hat
      · rw [if_neg hi]
        exact h.held i
    · rw [hfreed, List.count_append, h.freed]
      refine Nat.add_eq_left.2 (List.count_eq_zero.2 fun hmem => ?_)
      exact hat ((h.held _).1 (Option.mem_toList.1 hmem))

theorem pollLoop_pays (left processed : Nat) (ch : TxChannel)
    (h : ch.Owes id freed ∨ ch.Paid id freed) :
    ((ch.pollLoop ch.ring.cur left processed).2.Owes id freed
        ∨ (ch.pollLoop ch.ring.cur left processed).2.Paid id freed) := by
  induction left generalizing ch processed with
  | zero => exact h
  | succ left ih =>
    rw [pollLoop_succ]
    split
    · exact h
    · split
      · exact h
      · refine ih (processed + 1) ch.reclaim ?_
        rcases h with howes | hpaid
        · exact howes.reclaim
        · exact Or.inr hpaid.reclaim

/-- The flags of a queue say nothing of packets. -/
theorem TxChannel.Owes.flags {ch' : TxChannel} (h : ch.Owes id freed)
    (hring : ch'.ring.besideFlags = ch.ring.besideFlags)
    (hlogs : ch'.logs = ch.logs) : ch'.Owes id freed := by
  have hdatas := congrArg TxRing.descDataHead hring
  have hcur := congrArg TxRing.cur hring
  have hdirty := congrArg TxRing.dirty hring
  have hentry := congrArg TxRing.entry hring
  change ch'.ring.descDataHead = ch.ring.descDataHead at hdatas
  change ch'.ring.cur = ch.ring.cur at hcur
  change ch'.ring.dirty = ch.ring.dirty at hdirty
  change ch'.ring.entry = ch.ring.entry at hentry
  refine ⟨?_, ?_, ?_⟩
  · rw [hcur, hdirty]
    exact h.pending
  · rw [hdatas, hentry, hcur]
    exact h.held
  · rw [hlogs]
    exact h.freed

theorem TxChannel.Paid.flags {ch' : TxChannel} (h : ch.Paid id freed)
    (hring : ch'.ring.besideFlags = ch.ring.besideFlags)
    (hlogs : ch'.logs = ch.logs) : ch'.Paid id freed := by
  have hdatas := congrArg TxRing.descDataHead hring
  change ch'.ring.descDataHead = ch.ring.descDataHead at hdatas
  refine ⟨?_, ?_⟩
  · unfold TxRing.NotHeld
    rw [hdatas]
    exact h.held
  · rw [hlogs]
    exact h.freed

/-- Whatever happens but transmissions, a packet is owed or paid. -/
theorem quiet_pays {acts : List ChannelAct} (hacts : ∀ act ∈ acts, act.Quiet)
    (h : ch.Owes id freed ∨ ch.Paid id freed) :
    (Run.exec TxChannel.step ch acts).Owes id freed
      ∨ (Run.exec TxChannel.step ch acts).Paid id freed := by
  induction acts generalizing ch with
  | nil => exact h
  | cons act acts ih =>
    obtain ⟨hact, hacts⟩ := List.forall_mem_cons.1 hacts
    refine ih hacts ?_
    cases act with
    | xmit env skb => exact hact.elim
    | poll =>
      obtain ⟨hring, hlogs⟩ := poll_flags ch
      exact (pollLoop_pays txDescMaxProc 0 ch h).imp
        (fun howes => howes.flags hring hlogs)
        fun hpaid => hpaid.flags hring hlogs
    | complete back =>
      show TxChannel.Owes { ch with ring := ch.ring.complete back } _ _
        ∨ TxChannel.Paid { ch with ring := ch.ring.complete back } _ _
      unfold TxRing.complete
      dsimp only
      split
      · exact h.imp (fun howes => ⟨howes.pending, howes.held, howes.freed⟩)
          fun hpaid => ⟨hpaid.held, hpaid.freed⟩
      · exact h

/-- How many entries lie between `dirty` and the index. -/
def TxRing.used (ring : TxRing) : Nat := (ring.cur - ring.dirty).toNat

theorem dirty_of_used {ring : TxRing} (h : ring.used = 0) :
    ring.dirty = ring.cur := by
  have hzero : ring.cur - ring.dirty = 0 := BitVec.eq_of_toNat_eq h
  have hcur := BitVec.sub_eq_iff_eq_add.1 hzero
  exact (hcur.trans (BitVec.zero_add _)).symm

theorem used_succ {ring : TxRing} (h : ring.dirty ≠ ring.cur) :
    (ring.cur - (ring.dirty + 1)).toNat = ring.used - 1 := by
  have hsub : ring.cur - (ring.dirty + 1) = ring.cur - ring.dirty - 1 := by
    rw [BitVec.sub_sub]
  have hone : (1 : U32) ≤ ring.cur - ring.dirty := by
    rw [BitVec.le_def]
    exact Nat.one_le_iff_ne_zero.2 fun hzero => h (dirty_of_used hzero)
  rw [hsub, BitVec.toNat_sub_of_le hone]
  rfl

/-- With nothing left to the NIC the loop of a poll gets as far as its
bound. -/
theorem pollLoop_used (left processed : Nat) {ch : TxChannel}
    (hown : ∀ i, (ch.ring.dmaDescs i).own = false) :
    (ch.pollLoop ch.ring.cur left processed).2.ring.used
        = ch.ring.used - left
      ∧ ∀ i, ((ch.pollLoop ch.ring.cur left processed).2.ring.dmaDescs
        i).own = false := by
  induction left generalizing ch processed with
  | zero => exact ⟨rfl, hown⟩
  | succ left ih =>
    rw [pollLoop_succ]
    split
    · rename_i hsame
      refine ⟨?_, hown⟩
      have hzero : ch.ring.used = 0 := by
        unfold TxRing.used
        rw [hsame, BitVec.sub_self]
        rfl
      dsimp only
      omega
    · rename_i hmore
      rw [if_neg (by rw [hown]; exact Bool.false_ne_true)]
      have hfree : ∀ i, (ch.reclaim.ring.dmaDescs i).own = false :=
        fun i => by
          rw [reclaim_descs]
          by_cases hi : i = ch.ring.entry ch.ring.dirty
          · rw [hi, Function.update_self]
            rfl
          · rw [Function.update_of_ne hi]
            exact hown i
      have hless : ch.reclaim.ring.used = ch.ring.used - 1 :=
        used_succ hmore
      obtain ⟨hused, hrest⟩ := ih (processed + 1) hfree
      refine ⟨hused.trans ?_, hrest⟩
      omega

/-- Some number of polls gets to the index. -/
theorem polls_used (n : Nat) {ch : TxChannel}
    (hown : ∀ i, (ch.ring.dmaDescs i).own = false) :
    (Run.exec TxChannel.step ch (List.replicate n .poll)).ring.used
      = ch.ring.used - n * txDescMaxProc := by
  induction n generalizing ch with
  | zero =>
    rw [Nat.zero_mul]
    rfl
  | succ n ih =>
    obtain ⟨hring, -⟩ := poll_flags ch
    obtain ⟨hused, hfree⟩ := pollLoop_used txDescMaxProc 0 hown
    have hdescs := congrArg TxRing.dmaDescs hring
    have hsame := congrArg TxRing.used hring
    change ch.poll.ring.dmaDescs = _ at hdescs
    change ch.poll.ring.used = _ at hsame
    have hown' : ∀ i, (ch.poll.ring.dmaDescs i).own = false := fun i => by
      rw [hdescs]
      exact hfree i
    have hrest := ih hown'
    rw [List.replicate_succ]
    show (Run.exec TxChannel.step ch.poll _).ring.used = _
    have hless : ch.poll.ring.used = ch.ring.used - txDescMaxProc :=
      hsame.trans hused
    rw [hrest, hless, Nat.succ_mul]
    omega

/-- A packet that is owed is paid when there is nothing left to the
NIC. -/
theorem polls_pay (h : ch.Owes id freed ∨ ch.Paid id freed)
    (hown : ∀ i, (ch.ring.dmaDescs i).own = false) :
    ∃ n, (Run.exec TxChannel.step ch (List.replicate n .poll)).Paid id
      freed := by
  refine ⟨ch.ring.used, ?_⟩
  have hquiet : ∀ act ∈ List.replicate ch.ring.used ChannelAct.poll,
      act.Quiet := fun act hact => by
    rw [List.eq_of_mem_replicate hact]
    trivial
  rcases quiet_pays hquiet h with howes | hpaid
  · have hused := polls_used ch.ring.used hown
    have hmax : txDescMaxProc = 2048 := rfl
    rw [hmax] at hused
    have hzero : (Run.exec TxChannel.step ch
        (List.replicate ch.ring.used .poll)).ring.used = 0 := by
      omega
    exact absurd (dirty_of_used hzero) howes.pending
  · exact hpaid

end Poll

-- ============================================================== mac_xmit

section Xmit

variable {ch : TxChannel} {env : XmitEnv} {skb : Skb} {id : Nat}
  {dma : Nat → Option U64}

/-- An entry is rewritten, and its packet is not. -/
theorem skb_updData {ring : TxRing} {idx : U32}
    {f : TxDescData → TxDescData} (h : ∀ d, (f d).skb = d.skb) (i : Nat) :
    ((ring.updData idx f).descDataHead i).skb
      = (ring.descDataHead i).skb := by
  show (Function.update ring.descDataHead (ring.entry idx) _ i).skb = _
  by_cases hi : i = ring.entry idx
  · rw [hi, Function.update_self, h]
  · rw [Function.update_of_ne hi]

/-- The entries' packets do not change while pieces are mapped. -/
theorem mapAll_skbs (dma : Nat → Option U64) (skb : Skb)
    (ps : List Piece) (st : MapState) (i : Nat) :
    ((st.mapAll dma skb ps).1.ring.descDataHead i).skb
      = (st.ring.descDataHead i).skb := by
  induction ps generalizing st with
  | nil => rfl
  | cons piece ps ih =>
    rw [MapState.mapAll, MapState.mapPiece]
    cases dma st.calls with
    | none => rfl
    | some addr =>
      rw [ih]
      dsimp only
      rw [skb_updData]
      exact fun _ => rfl

/-- A rollback over entries that do not hold the packet. -/
theorem unmapFrom_notHeld (left : Nat) (idx : U32) (logs : TxLogs)
    {ring : TxRing} (h : ring.NotHeld id) :
    (unmapFrom left idx logs ring).2.NotHeld id
      ∧ (unmapFrom left idx logs ring).1.freed.count id
        = logs.freed.count id := by
  induction left generalizing idx logs ring with
  | zero => exact ⟨h, rfl⟩
  | succ left ih =>
    rw [unmapFrom, unmapTxDesc_eq]
    dsimp only
    have hkept : (ring.updData idx fun _ =>
        (ring.descDataHead (ring.entry idx)).cleared).NotHeld id :=
      fun i => by
        show (Function.update ring.descDataHead (ring.entry idx) _ i).skb
          ≠ some id
        by_cases hi : i = ring.entry idx
        · rw [hi, Function.update_self]
          exact (Option.some_ne_none id).symm
        · rw [Function.update_of_ne hi]
          exact h i
    obtain ⟨hheld, hcount⟩ := ih (idx + 1)
      { logs with
        unmaps := logs.unmaps
          ++ (ring.descDataHead (ring.entry idx)).unmapCalls
        freed := logs.freed
          ++ (ring.descDataHead (ring.entry idx)).skb.toList } hkept
    refine ⟨hheld, hcount.trans ?_⟩
    rw [List.count_append]
    refine Nat.add_eq_left.2 (List.count_eq_zero.2 fun hmem => ?_)
    exact h _ (Option.mem_toList.1 hmem)

/-- What a mapping does with the packets of the entries. -/
theorem mapTxSkb_held {logs logs' : TxLogs} {ring ring' : TxRing}
    {ok : Bool} (h : ring.NotHeld skb.id)
    (hmap : TxRing.mapTxSkb dma skb logs
      { ring with pktInfo := ring.prepared skb } = (logs', ring', ok)) :
    logs'.freed.count skb.id = logs.freed.count skb.id
      ∧ (ok = false → ring'.NotHeld skb.id)
      ∧ (ok = true → ∀ i, (ring'.descDataHead i).skb = some skb.id
        ↔ i = ring.entry (ring.cur
          + BitVec.ofNat 32 (skb.contextCount ring + skb.layout.length)
          - 1)) := by
  have hsame := mapAll_kept dma skb skb.layout (ring.mapStart skb logs)
  have hskbs := mapAll_skbs dma skb skb.layout (ring.mapStart skb logs)
  rw [TxRing.mapTxSkb] at hmap
  dsimp only at hmap
  rw [mapTxSkb_index, mapSkb_eq] at hmap
  generalize hwalk : MapState.mapAll dma skb _ skb.layout = walked at hmap
  change (ring.mapStart skb logs).mapAll dma skb skb.layout = walked
    at hwalk
  rw [hwalk] at hsame hskbs
  obtain ⟨st, done⟩ := walked
  have hbefore : ∀ i, (st.ring.descDataHead i).skb
      = (ring.descDataHead i).skb := hskbs
  cases done with
  | false =>
    cases hmap
    obtain ⟨hheld, hcount⟩ := unmapFrom_notHeld
      (if ring.cur < st.curIndex then (st.curIndex - ring.cur).toNat
        else 0) ring.cur { logs with maps := st.maps }
      (show st.ring.NotHeld skb.id from fun i => by
        rw [hbefore]
        exact h i)
    exact ⟨hcount, fun _ => hheld, fun hyes => Bool.noConfusion hyes⟩
  | true =>
    have hlast : st.curIndex = ring.cur
        + BitVec.ofNat 32 (skb.contextCount ring + skb.layout.length) := by
      rw [mapAll_index hwalk, BitVec.ofNat_add, ← BitVec.add_assoc]
      show BitVec.ofNat 32 _ + _ = _
      rw [BitVec.ofNat_add, BitVec.ofNat_toNat, BitVec.setWidth_eq]
    have hentry := congrArg TxRing.entry hsame
    change st.ring.entry = ring.entry at hentry
    cases hmap
    refine ⟨rfl, fun hno => Bool.noConfusion hno, fun _ i => ?_⟩
    show (Function.update st.ring.descDataHead
      (st.ring.entry (st.curIndex - 1)) _ i).skb = _ ↔ _
    rw [hentry, hlast]
    by_cases hi : i = ring.entry (ring.cur + BitVec.ofNat 32
        (skb.contextCount ring + skb.layout.length) - 1)
    · rw [hi, Function.update_self]
      exact ⟨fun _ => rfl, fun _ => rfl⟩
    · rw [Function.update_of_ne hi, hbefore]
      exact ⟨fun hheld => absurd hheld (h i), fun heq => absurd heq hi⟩

theorem datas_updDesc (ring : TxRing) (idx : U32)
    (f : DmaDesc → DmaDesc) :
    (ring.updDesc idx f).descDataHead = ring.descDataHead := rfl

theorem xmitFrom_datas (left : Nat) (idx : U32) (ring : TxRing) :
    (ring.xmitFrom left idx).2.descDataHead = ring.descDataHead := by
  induction left generalizing idx ring with
  | zero => rfl
  | succ left ih => exact (ih _ _).trans rfl

theorem putContext_datas (ring : TxRing) :
    ring.putContext.2.descDataHead = ring.descDataHead
      ∧ ring.putContext.1 = ring.cur
        + BitVec.ofNat 32 ring.contextCount := by
  unfold TxRing.putContext TxRing.contextCount TxRing.needsContext
  dsimp only
  split
  · exact ⟨rfl, rfl⟩
  · exact ⟨rfl, (BitVec.add_zero _).symm⟩

/-- What `mac_dev_xmit` does with the packets of the entries and with the
index, on any ring. -/
theorem devXmit_held (txFrames : U32) {ring : TxRing} {m : Nat}
    (hcount : ring.pktInfo.descCount = BitVec.ofNat 32 m)
    (hctx : ring.contextCount < m) (hm : m < 2 ^ 32) :
    (ring.devXmit txFrames).cur = ring.cur + BitVec.ofNat 32 m
      ∧ ∀ i, ((ring.devXmit txFrames).descDataHead i).skb
        = (ring.descDataHead i).skb := by
  obtain ⟨hdatas, hidx⟩ := putContext_datas
    { ring with
      coalesceCount := ring.coalesceCount + ring.pktInfo.txPackets }
  have hx : ({ ring with
      coalesceCount := ring.coalesceCount + ring.pktInfo.txPackets }
      : TxRing).contextCount = ring.contextCount := rfl
  rw [hx] at hidx
  have hone := contextCount_le ring
  have hsub : ring.cur + BitVec.ofNat 32 ring.contextCount - ring.cur
      = BitVec.ofNat 32 ring.contextCount := by
    rw [BitVec.add_comm, BitVec.add_sub_cancel]
  have hleft : ring.pktInfo.descCount.toNat
      - ((ring.cur + BitVec.ofNat 32 ring.contextCount
        - ring.cur).toNat + 1) = m - (ring.contextCount + 1) := by
    rw [hcount, hsub, BitVec.toNat_ofNat, BitVec.toNat_ofNat,
      Nat.mod_eq_of_lt hm, Nat.mod_eq_of_lt (by omega)]
  unfold TxRing.devXmit
  dsimp only
  generalize hput : TxRing.putContext _ = put at hdatas hidx ⊢
  obtain ⟨idx, r1⟩ := put
  dsimp only at hdatas hidx ⊢
  rw [hidx, hleft, xmitFrom_index]
  constructor
  · have hsum : m = ring.contextCount + (m - (ring.contextCount + 1)) + 1 :=
      by omega
    have hend : BitVec.ofNat 32 m = BitVec.ofNat 32 ring.contextCount
        + (BitVec.ofNat 32 (m - (ring.contextCount + 1)) + 1) := by
      conv_lhs => rw [hsum]
      rw [BitVec.ofNat_add, BitVec.ofNat_add, BitVec.add_assoc]
      rfl
    rw [hend, BitVec.add_assoc, BitVec.add_assoc]
  · intro i
    rw [datas_updDesc, skb_updData, datas_updDesc, xmitFrom_datas,
      datas_updDesc, hdatas]
    exact fun _ => rfl

/-- A packet that is handed to the NIC is in one entry of the ring. -/
theorem sent_owes {logs : TxLogs} {ring : TxRing} (hfits : ch.Fits)
    (hsized : ch.ring.Sized) (hlen : skb.len ≠ 0)
    (hnone : ch.ring.NotHeld skb.id)
    (hmap : TxRing.mapTxSkb dma skb ch.logs
      { ch.ring with pktInfo := ch.ring.prepared skb }
      = (logs, ring, true)) :
    (ch.sent skb logs ring).Owes skb.id (ch.logs.freed.count skb.id) := by
  have hpos := layout_pos hlen
  have hlt : skb.contextCount ch.ring + skb.layout.length < 2 ^ 20 :=
    needed_lt skb _ _
  obtain ⟨hcount, -, hheld⟩ := mapTxSkb_held hnone hmap
  obtain ⟨length, hpkt⟩ := mapTxSkb_sent hmap
  obtain ⟨hkept, -⟩ := mapTxSkb_kept ch.logs ch.ring hmap.symm
  have hcontext : ring.contextCount = skb.contextCount ch.ring :=
    (mapped_of_sent (c := ch.ring.cur.toNat) hsized
      (by rw [BitVec.ofNat_toNat, BitVec.setWidth_eq]) hmap).contextCount
  generalize hm : skb.contextCount ch.ring + skb.layout.length = m at *
  obtain ⟨hcur, hskbs⟩ := devXmit_held ch.txFrames
    (by rw [hpkt]) (by rw [hcontext]; omega) (by omega)
  have hframe := devXmit_frame ch.txFrames ring
  have hsame := congrArg TxRing.cur hkept
  have hentryMap := congrArg TxRing.entry hkept
  have hdirtyMap := congrArg TxRing.dirty hkept
  change ring.cur = ch.ring.cur at hsame
  change ring.entry = ch.ring.entry at hentryMap
  change ring.dirty = ch.ring.dirty at hdirtyMap
  have hdirty : (ring.devXmit ch.txFrames).dirty = ch.ring.dirty :=
    (congrArg (fun f => f.2.1) hframe).trans hdirtyMap
  have hentry : (ring.devXmit ch.txFrames).entry = ch.ring.entry := by
    rw [← hentryMap]
    have hsize : (ring.devXmit ch.txFrames).dmaDescCount
        = ring.dmaDescCount := congrArg (fun f => f.1) hframe
    funext idx
    unfold TxRing.entry
    rw [hsize]
  refine ⟨?_, fun i => ?_, hcount⟩
  · show (ring.devXmit ch.txFrames).dirty
      ≠ (ring.devXmit ch.txFrames).cur
    rw [hdirty, hcur, hsame]
    intro heq
    have hused := hfits
    unfold TxChannel.Fits at hused
    rw [hsized] at hused
    have hsum : ch.ring.cur - ch.ring.dirty + BitVec.ofNat 32 m = 0 := by
      rw [BitVec.sub_add_comm, ← heq, BitVec.sub_self]
      rfl
    have hnat := congrArg BitVec.toNat hsum
    change _ ≤ 4096 at hused
    rw [BitVec.toNat_add, BitVec.toNat_ofNat] at hnat
    change _ = 0 at hnat
    omega
  · show ((ring.devXmit ch.txFrames).descDataHead i).skb = _
      ↔ i = (ring.devXmit ch.txFrames).entry
        ((ring.devXmit ch.txFrames).cur - 1)
    rw [hskbs, hentry, hcur, hsame]
    exact hheld rfl i

/-- A packet that an entry holds, and that was not freed, is left. -/
theorem left_of_owes {ch' : TxChannel}
    (hdropped : ch'.logs.dropped = ch.logs.dropped)
    (h : ch'.Owes skb.id (ch.logs.freed.count skb.id)) :
    ch.Left ch' skb := by
  refine ⟨hdropped, h, fun acts hacts => quiet_pays hacts (Or.inl h),
    fun acts hacts hown => ?_⟩
  obtain ⟨n, hpaid⟩ := polls_pay (quiet_pays hacts (Or.inl h)) hown
  refine ⟨n, ?_⟩
  rw [Run.exec_append]
  exact hpaid

/-- With the link down nobody owns the packet. -/
theorem not_honours_down (hlink : env.linkUp = false)
    (hnone : ch.ring.NotHeld skb.id) : ¬ ch.Honours env skb := by
  have hsame : ch.xmit env skb = ch := by
    rw [TxChannel.xmit, hlink]
    rfl
  have hret : ch.xmitRet env skb = 1 := by
    rw [TxChannel.xmitRet, hlink]
    rfl
  unfold TxChannel.Honours
  rw [hsame, hret]
  rintro (⟨hbusy, -, -⟩ | ⟨-, hfreed | hleft⟩)
  · exact absurd hbusy (by decide)
  · have hlen := congrArg List.length hfreed.dropped
    rw [List.length_append, List.length_singleton] at hlen
    omega
  · exact hnone _ ((hleft.owes.held _).2 rfl)

/-- With the link up the returned code says who owns the packet. -/
theorem honours_up (hlink : env.linkUp = true) (hsized : ch.ring.Sized)
    (hfits : ch.Fits) (hnone : ch.ring.NotHeld skb.id) :
    ch.Honours env skb := by
  unfold TxChannel.Honours
  have hcase := xmit_cases env skb ch
  generalize ch.xmit env skb = out at hcase ⊢
  generalize ch.xmitRet env skb = ret at hcase ⊢
  cases hcase with
  | linkDown hdown =>
    rw [hlink] at hdown
    cases hdown
  | empty _ => exact Or.inr ⟨by decide, Or.inl ⟨rfl, hnone, rfl⟩⟩
  | full _ _ => exact Or.inl ⟨rfl, rfl, rfl⟩
  | noHeader _ => exact Or.inr ⟨by decide, Or.inl ⟨rfl, hnone, rfl⟩⟩
  | @unmapped logs ring _ _ hmap =>
    obtain ⟨hcount, hheld, -⟩ := mapTxSkb_held hnone hmap
    obtain ⟨-, hlogs⟩ := mapTxSkb_kept ch.logs ch.ring hmap.symm
    have hdropped := congrArg TxLogs.dropped hlogs
    exact Or.inr ⟨by decide, Or.inl
      ⟨congrArg (· ++ [skb.id]) hdropped, hheld rfl, hcount⟩⟩
  | @sent logs ring _ hlen _ _ hmap =>
    obtain ⟨-, hlogs⟩ := mapTxSkb_kept ch.logs ch.ring hmap.symm
    have hdropped := congrArg TxLogs.dropped hlogs
    have howes := sent_owes hfits hsized hlen hnone hmap
    obtain ⟨hring, hsame⟩ :=
      maybeStop_flags (ch.sent skb logs ring) txMaxDescNr
    refine Or.inr ⟨by decide, Or.inr (left_of_owes ?_ ?_)⟩
    · rw [hsame]
      exact hdropped
    · exact howes.flags hring hsame

/-- Exactly when the returned code says who owns the packet. -/
theorem honours_iff_up (ch : TxChannel) (env : XmitEnv) (skb : Skb)
    (hsized : ch.ring.Sized) (hfits : ch.Fits)
    (hnone : ch.ring.NotHeld skb.id) :
    ch.Honours env skb ↔ env.linkUp = true := by
  constructor
  · intro h
    by_contra hdown
    exact not_honours_down (Bool.of_not_eq_true hdown) hnone h
  · exact fun hlink => honours_up hlink hsized hfits hnone

theorem notHeld_fresh (id : Nat) : TxRing.fresh.NotHeld id :=
  fun _ => (Option.some_ne_none id).symm

theorem honours_fresh :
    (TxChannel.fresh 0).Honours ⟨true, true, fun _ => some 0x1000⟩
      twoParts :=
  (honours_iff_up (.fresh 0) _ twoParts rfl
    (TxChannel.ringInv_fresh 0).fits_ring (notHeld_fresh _)).2 rfl

/-- With the link down a packet is lost: it is called consumed, and it is
neither freed nor in the ring. -/
theorem link_down_leaks :
    (TxChannel.fresh 0).ring.Sized ∧ (TxChannel.fresh 0).Fits
      ∧ (TxChannel.fresh 0).ring.NotHeld twoParts.id
      ∧ ¬ (TxChannel.fresh 0).Honours ⟨false, true, fun _ => some 0x1000⟩
        twoParts :=
  ⟨rfl, (TxChannel.ringInv_fresh 0).fits_ring, notHeld_fresh 0,
    not_honours_down rfl (notHeld_fresh 0)⟩

end Xmit

end BxRnic.Mac
