/-
The check of `mac_xmit` keeps the ring from being overrun.

`cur` and `dirty` are the descriptors posted and reclaimed, cut to 32
bits. What lies between them is at most the ring, and the NIC owns
nothing outside (`TxChannel.RingInv`). A packet is let in if what it is
counted for fits, and it takes no more than that (`mapTxSkb_sent`), so
the chain goes into descriptors the NIC does not own.
-/
import BxRnic.Lib.Run
import BxRnic.Mac.Proofs.TxChain
import BxRnic.Mac.Proofs.TxRollback

namespace BxRnic.Mac

-- ============================================================== a mapping

section Mapping

variable {dma : Nat → Option U64} {skb : Skb}

/-- A ring without what a mapping changes, and the flag of a stop. -/
def TxRing.besideMap (ring : TxRing) : TxRing :=
  { ring with
    descDataHead := fun _ => .zero
    pktInfo := .zero
    queueStopped := false }

/-- A walk that gets to the end. -/
theorem mapAll_index {ps : List Piece} {st st' : MapState}
    (h : st.mapAll dma skb ps = (st', true)) :
    st'.curIndex = st.curIndex + BitVec.ofNat 32 ps.length := by
  induction ps generalizing st with
  | nil =>
    cases h
    exact (BitVec.add_zero _).symm
  | cons piece ps ih =>
    rw [MapState.mapAll, MapState.mapPiece] at h
    cases hdma : dma st.calls with
    | none =>
      rw [hdma] at h
      cases h
    | some addr =>
      rw [hdma] at h
      have hmore : BitVec.ofNat 32 (ps.length + 1)
          = 1 + BitVec.ofNat 32 ps.length := by
        rw [Nat.add_comm, BitVec.ofNat_add]
        rfl
      rw [ih h, List.length_cons, hmore, ← BitVec.add_assoc]

/-- What a mapping leaves as it was, whether it fails or not. -/
theorem mapTxSkb_kept (logs : TxLogs) (ring : TxRing)
    {out : TxLogs × TxRing × Bool}
    (hout : out = TxRing.mapTxSkb dma skb logs
      { ring with pktInfo := ring.prepared skb }) :
    out.2.1.besideMap = ring.besideMap
      ∧ out.1.besideMap = logs.besideMap := by
  subst hout
  have hwalk := mapAll_kept dma skb skb.layout
    (ring.mapStart skb logs)
  rw [TxRing.mapTxSkb]
  dsimp only
  rw [mapTxSkb_index, mapSkb_eq]
  rw [TxRing.mapStart] at hwalk
  generalize MapState.mapAll dma skb _ skb.layout = walked at *
  obtain ⟨st, ok⟩ := walked
  have hkept : st.ring.besideMap = ring.besideMap :=
    congrArg (fun r : TxRing => { r with
      pktInfo := .zero, queueStopped := false }) hwalk
  cases ok with
  | true => exact ⟨hkept, rfl⟩
  | false =>
    obtain ⟨hback, hlogs⟩ := unmapFrom_kept
      (if ring.cur < st.curIndex then (st.curIndex - ring.cur).toNat
        else 0) ring.cur { logs with maps := st.maps } st.ring
    refine ⟨?_, hlogs⟩
    exact (congrArg (fun r : TxRing => { r with
      pktInfo := .zero, queueStopped := false }) hback).trans hkept

/-- A packet that is mapped takes a context descriptor, if it needs one,
and a descriptor for each of its pieces. -/
theorem mapTxSkb_sent {logs logs' : TxLogs} {ring ring' : TxRing}
    (h : TxRing.mapTxSkb dma skb logs
      { ring with pktInfo := ring.prepared skb } = (logs', ring', true)) :
    ∃ length, ring'.pktInfo = { ring.prepared skb with
      length := length
      descCount := BitVec.ofNat 32
        (skb.contextCount ring + skb.layout.length) } := by
  rw [TxRing.mapTxSkb] at h
  dsimp only at h
  rw [mapTxSkb_index, mapSkb_eq] at h
  generalize hwalk : MapState.mapAll dma skb _ skb.layout = walked at h
  obtain ⟨st, ok⟩ := walked
  cases ok with
  | false => cases h
  | true =>
    cases h
    refine ⟨st.length, ?_⟩
    have hidx : st.curIndex - ring.cur
        = BitVec.ofNat 32 (skb.contextCount ring + skb.layout.length) := by
      rw [mapAll_index hwalk, ← BitVec.ofNat_add, Nat.add_assoc,
        BitVec.ofNat_add, BitVec.ofNat_toNat, BitVec.setWidth_eq,
        BitVec.add_comm, BitVec.add_sub_cancel]
    exact congrArg (fun n => { ring.prepared skb with
      length := st.length, descCount := n }) hidx

end Mapping

-- ============================================================= mac_xmit

/-- What is noted of a packet that is handed to the NIC. -/
def TxChannel.note (ch : TxChannel) (skb : Skb) (logs : TxLogs)
    (ring : TxRing) : Accepted where
  skb := skb.id
  start := ch.logs.posted
  descCount := ring.pktInfo.descCount.toNat
  firstMap := ch.logs.maps.length
  mapCount := logs.maps.length - ch.logs.maps.length
  bytes := (ch.ring.prepared skb).txBytes

/-- The channel when a packet is handed to the NIC. -/
def TxChannel.sent (ch : TxChannel) (skb : Skb) (logs : TxLogs)
    (ring : TxRing) : TxChannel :=
  { ch with
    ring := ring.devXmit ch.txFrames
    logs := { logs with
      accepted := logs.accepted ++ [ch.note skb logs ring]
      sentBytes := logs.sentBytes ++ [(ch.ring.prepared skb).txBytes] } }

/-- The ways `mac_xmit` ends, and what it returns. -/
inductive XmitCase (env : XmitEnv) (skb : Skb) (ch : TxChannel) :
    TxChannel → Int → Prop
  | linkDown (hlink : env.linkUp = false) : XmitCase env skb ch ch 1
  | empty (hlink : env.linkUp = true) :
      XmitCase env skb ch (ch.free skb) netdevTxOk
  | full (hlink : env.linkUp = true)
      (hfull : (ch.ring.prepTxPkt skb).descCount > ch.ring.availDesc) :
      XmitCase env skb ch
        { ch with
          ring := { ch.ring with
            pktInfo := ch.ring.prepTxPkt skb, queueStopped := true }
          netStopped := true } netdevTxBusy
  | noHeader (hlink : env.linkUp = true) :
      XmitCase env skb ch (TxChannel.free
        { ch with ring := { ch.ring with
          pktInfo := ch.ring.prepTxPkt skb } } skb) cowHeadError
  | unmapped {logs : TxLogs} {ring : TxRing} (hlink : env.linkUp = true)
      (hroom : ¬ (ch.ring.prepTxPkt skb).descCount > ch.ring.availDesc)
      (hmap : TxRing.mapTxSkb env.dma skb ch.logs
        { ch.ring with pktInfo := ch.ring.prepared skb }
        = (logs, ring, false)) :
      XmitCase env skb ch
        (TxChannel.free { ch with ring := ring, logs := logs } skb)
        netdevTxOk
  | sent {logs : TxLogs} {ring : TxRing} (hlink : env.linkUp = true)
      (hlen : skb.len ≠ 0) (hcow : skb.isTso = true → env.cowHead = true)
      (hroom : ¬ (ch.ring.prepTxPkt skb).descCount > ch.ring.availDesc)
      (hmap : TxRing.mapTxSkb env.dma skb ch.logs
        { ch.ring with pktInfo := ch.ring.prepared skb }
        = (logs, ring, true)) :
      XmitCase env skb ch
        ((ch.sent skb logs ring).maybeStop txMaxDescNr).2 netdevTxOk

theorem xmit_cases (env : XmitEnv) (skb : Skb) (ch : TxChannel) :
    XmitCase env skb ch (ch.xmit env skb) (ch.xmitRet env skb) := by
  unfold TxChannel.xmit TxChannel.xmitRet
  by_cases hlink : env.linkUp = true
  · rw [hlink]
    by_cases hlen : skb.len = 0
    · rw [if_pos hlen, if_pos hlen]
      exact .empty hlink
    · rw [if_neg hlen, if_neg hlen]
      dsimp only
      let ch' : TxChannel :=
        { ch with ring := { ch.ring with pktInfo := ch.ring.prepTxPkt skb } }
      by_cases hfull :
          (ch.ring.prepTxPkt skb).descCount > ch.ring.availDesc
      · have hstop : ch'.maybeStop (ch.ring.prepTxPkt skb).descCount
            = (true, _) := if_pos hfull
        rw [hstop]
        exact .full hlink hfull
      · have hstop : ch'.maybeStop (ch.ring.prepTxPkt skb).descCount
            = (false, ch') := if_neg hfull
        rw [hstop]
        dsimp only
        by_cases hcow : ((ch.ring.prepTxPkt skb).tso && !env.cowHead) = true
        · rw [if_pos hcow, if_pos hcow]
          exact .noHeader hlink
        · rw [if_neg hcow, if_neg hcow]
          rw [prepTxPkt_tso] at hcow
          have hcow : skb.isTso = true → env.cowHead = true := fun htso => by
            rw [htso, Bool.true_and] at hcow
            simpa using hcow
          generalize hmap : TxRing.mapTxSkb env.dma skb ch'.logs _ = out
          obtain ⟨logs, ring, ok⟩ := out
          cases ok with
          | false => exact .unmapped hlink hfull hmap
          | true => exact .sent hlink hlen hcow hfull hmap
  · have hlink := Bool.of_not_eq_true hlink
    rw [hlink]
    exact .linkDown hlink

/-- A packet that can be mapped is handed to the NIC. -/
theorem xmit_of_mapped {env : XmitEnv} {skb : Skb} {ch : TxChannel}
    {logs : TxLogs} {ring : TxRing} (hlink : env.linkUp = true)
    (hlen : skb.len ≠ 0) (hcow : env.cowHead = true)
    (hroom : ¬ (ch.ring.prepTxPkt skb).descCount > ch.ring.availDesc)
    (hmap : TxRing.mapTxSkb env.dma skb ch.logs
      { ch.ring with pktInfo := ch.ring.prepared skb }
      = (logs, ring, true)) :
    ch.xmit env skb
      = ((ch.sent skb logs ring).maybeStop txMaxDescNr).2 := by
  let ch' : TxChannel :=
    { ch with ring := { ch.ring with pktInfo := ch.ring.prepTxPkt skb } }
  have hgo : ch'.maybeStop (ch.ring.prepTxPkt skb).descCount
      = (false, ch') := if_neg hroom
  have hmap' : TxRing.mapTxSkb env.dma skb ch'.logs
      { ch'.ring with
        pktInfo := prepVlan skb (prepTso skb (ch.ring.prepTxPkt skb)) }
      = (logs, ring, true) := hmap
  unfold TxChannel.xmit
  rw [hlink, hcow, if_neg hlen]
  dsimp only
  rw [hgo]
  simp only [Bool.not_true, Bool.and_false, Bool.false_eq_true, if_false]
  rw [hmap']
  rfl

-- ============================================================ the channel

/-- What is between `dirty` and `cur`, and who owns the rest. Positions
are those of the stream, not cut to 32 bits. -/
structure TxChannel.RingInv (ch : TxChannel) : Prop where
  sized : ch.ring.Sized
  cur : ch.ring.cur = BitVec.ofNat 32 ch.logs.posted
  dirty : ch.ring.dirty = BitVec.ofNat 32 ch.logs.reclaimed
  ordered : ch.logs.reclaimed ≤ ch.logs.posted
  fits : ch.logs.posted ≤ ch.logs.reclaimed + 4096
  free : ∀ k, ch.logs.posted ≤ k → k < ch.logs.reclaimed + 4096 →
    (ch.ring.dmaDescs (k % 4096)).own = false

/-- The descriptors in use are no more than there are. -/
def TxChannel.Fits (ch : TxChannel) : Prop :=
  (ch.ring.cur - ch.ring.dirty).toNat ≤ ch.ring.dmaDescCount.toNat

/-- A call writes no descriptor that the NIC owns. -/
def TxChannel.Spares (ch : TxChannel) (act : ChannelAct) : Prop :=
  ch.ring.WroteOnly (fun w => (ch.ring.dmaDescs w.1).own = false)
    (ch.step act).ring

/-- A call that does not touch descriptors or counters. -/
structure TxChannel.Untouched (ch ch' : TxChannel) : Prop where
  ring : ch'.ring.besideMap = ch.ring.besideMap
  accepted : ch'.logs.accepted = ch.logs.accepted
  reclaimed : ch'.logs.reclaimed = ch.logs.reclaimed

section Channel

variable {ch ch' : TxChannel} {env : XmitEnv} {skb : Skb}

theorem TxChannel.RingInv.used (h : ch.RingInv) :
    (ch.ring.cur - ch.ring.dirty).toNat
      = ch.logs.posted - ch.logs.reclaimed := by
  have hfits := h.fits
  rw [h.cur, h.dirty, Counter.sub_toNat h.ordered (by omega)]

theorem TxChannel.RingInv.fits_ring (h : ch.RingInv) : ch.Fits := by
  have hfits := h.fits
  unfold TxChannel.Fits
  rw [h.used, h.sized]
  show _ ≤ 4096
  omega

theorem TxChannel.RingInv.untouched (h : ch.RingInv)
    (hsame : ch.Untouched ch') : ch'.RingInv := by
  have hposted : ch'.logs.posted = ch.logs.posted := by
    rw [TxLogs.posted, hsame.accepted]
    rfl
  have hdescs := congrArg TxRing.dmaDescs hsame.ring
  refine ⟨?_, ?_, ?_, ?_, ?_, ?_⟩
  · exact (congrArg TxRing.dmaDescCount hsame.ring).trans h.sized
  · rw [hposted]
    exact (congrArg TxRing.cur hsame.ring).trans h.cur
  · rw [hsame.reclaimed]
    exact (congrArg TxRing.dirty hsame.ring).trans h.dirty
  · rw [hposted, hsame.reclaimed]
    exact h.ordered
  · rw [hposted, hsame.reclaimed]
    exact h.fits
  · rw [hposted, hsame.reclaimed]
    intro k hlo hhi
    rw [show ch'.ring.dmaDescs = ch.ring.dmaDescs from hdescs]
    exact h.free k hlo hhi

theorem TxChannel.Untouched.wroteOnly {P : Nat × DmaDesc → Prop}
    (h : ch.Untouched ch') : ch.ring.WroteOnly P ch'.ring :=
  ⟨[], (congrArg TxRing.writes h.ring).trans (List.append_nil _).symm,
    fun _ hw => absurd hw List.not_mem_nil⟩

theorem pieceCount_pos {n : Nat} (h : n ≠ 0) : 0 < pieceCount n := by
  rw [pieceCount_step h]
  exact Nat.succ_pos _

theorem fragCount_pos {sizes : List U32}
    (h : (sizes.map (·.toNat)).sum ≠ 0) : 0 < fragCount sizes := by
  induction sizes with
  | nil => exact absurd rfl h
  | cons size sizes ih =>
    rw [fragCount_cons]
    by_cases hsize : size.toNat = 0
    · rw [List.map_cons, List.sum_cons, hsize, Nat.zero_add] at h
      exact Nat.lt_of_lt_of_le (ih h) (Nat.le_add_left _ _)
    · exact Nat.lt_of_lt_of_le (pieceCount_pos hsize)
        (Nat.le_add_right _ _)

/-- A packet that is not empty has a piece. -/
theorem layout_pos (h : skb.len ≠ 0) : 0 < skb.layout.length := by
  rw [length_layout]
  split
  · omega
  · have hlen : skb.len.toNat ≠ 0 := fun h0 =>
      h (BitVec.eq_of_toNat_eq h0)
    rw [skb.len_eq] at hlen
    by_cases hhead : skb.headlen.toNat = 0
    · rw [hhead, Nat.zero_add] at hlen
      exact Nat.lt_of_lt_of_le (fragCount_pos hlen) (Nat.le_add_left _ _)
    · exact Nat.lt_of_lt_of_le (pieceCount_pos hhead)
        (Nat.le_add_right _ _)

theorem TxChannel.maybeStop_untouched (ch : TxChannel) (count : U32) :
    ch.Untouched (ch.maybeStop count).2 := by
  unfold TxChannel.maybeStop
  split
  · exact ⟨rfl, rfl, rfl⟩
  · exact ⟨rfl, rfl, rfl⟩

/-- A ring as `mac_dev_xmit` gets it. -/
structure TxRing.Mapped (ring' ring : TxRing) (skb : Skb) (c : Nat) :
    Prop where
  sized : ring'.Sized
  cur : ring'.cur = BitVec.ofNat 32 c
  descCount : ring'.pktInfo.descCount = BitVec.ofNat 32
    (skb.contextCount ring + skb.layout.length)
  contextCount : ring'.contextCount = skb.contextCount ring
  dmaDescs : ring'.dmaDescs = ring.dmaDescs
  writes : ring'.writes = ring.writes
  dirty : ring'.dirty = ring.dirty

theorem mapped_of_sent {dma : Nat → Option U64} {logs logs' : TxLogs}
    {ring ring' : TxRing} {c : Nat} (hsized : ring.Sized)
    (hcur : ring.cur = BitVec.ofNat 32 c)
    (hmap : TxRing.mapTxSkb dma skb logs
      { ring with pktInfo := ring.prepared skb } = (logs', ring', true)) :
    ring'.Mapped ring skb c := by
  obtain ⟨hkept, -⟩ := mapTxSkb_kept logs ring hmap.symm
  obtain ⟨length, hpkt⟩ := mapTxSkb_sent hmap
  have hsize := congrArg TxRing.dmaDescCount hkept
  have hsame := congrArg TxRing.cur hkept
  have hmss := congrArg TxRing.curMss hkept
  have hvlan := congrArg TxRing.curVlanCtag hkept
  have hdescs := congrArg TxRing.dmaDescs hkept
  have hwrites := congrArg TxRing.writes hkept
  have hdirty := congrArg TxRing.dirty hkept
  refine ⟨hsize.trans hsized, hsame.trans hcur, ?_, ?_, hdescs, hwrites,
    hdirty⟩
  · rw [hpkt]
  · have hneeds : ring'.needsContext (ring.prepared skb) = _ :=
      needsContext_prepared ring ring'
    rw [show ring'.curMss = ring.curMss from hmss,
      show ring'.curVlanCtag = ring.curVlanCtag from hvlan] at hneeds
    rw [TxRing.contextCount, Skb.contextCount, ← hneeds, hpkt]
    rfl

/-- What `mac_tx_avail_desc` says. -/
theorem TxChannel.RingInv.avail (h : ch.RingInv) :
    ch.ring.availDesc.toNat
      = 4096 - (ch.logs.posted - ch.logs.reclaimed) := by
  have hle : ch.ring.cur - ch.ring.dirty ≤ ch.ring.dmaDescCount :=
    BitVec.le_def.2 h.fits_ring
  rw [TxRing.availDesc, BitVec.toNat_sub_of_le hle, h.used, h.sized]
  rfl

/-- A packet whose count fits takes no more than is free. -/
theorem TxChannel.RingInv.room (h : ch.RingInv)
    (hheaders : skb.HeadersLinear)
    (hroom : ¬ (ch.ring.prepTxPkt skb).descCount > ch.ring.availDesc) :
    ch.logs.posted + (skb.contextCount ch.ring + skb.layout.length)
      ≤ ch.logs.reclaimed + 4096 := by
  have hneeded :=
    needed_le_reserved hheaders ch.ring.curMss ch.ring.curVlanCtag
  have hordered := h.ordered
  have hfits := h.fits
  have havail := h.avail
  have hle := BitVec.le_def.1 (BitVec.not_lt.1 hroom)
  rw [descCount_prepTxPkt_toNat, havail] at hle
  have hused := hneeded.trans hle
  change skb.contextCount ch.ring + skb.layout.length ≤ _ at hused
  omega

/-- A packet is handed to the NIC: it takes free descriptors, and these
only. -/
theorem TxChannel.RingInv.sent (h : ch.RingInv) {logs : TxLogs}
    {ring : TxRing} {dma : Nat → Option U64} (hlen : skb.len ≠ 0)
    (hheaders : skb.HeadersLinear)
    (hroom : ¬ (ch.ring.prepTxPkt skb).descCount > ch.ring.availDesc)
    (hmap : TxRing.mapTxSkb dma skb ch.logs
      { ch.ring with pktInfo := ch.ring.prepared skb }
      = (logs, ring, true)) :
    (ch.sent skb logs ring).RingInv
      ∧ ch.ring.WroteOnly (fun w => (ch.ring.dmaDescs w.1).own = false)
        (ch.sent skb logs ring).ring := by
  have hfits := h.room hheaders hroom
  have hordered := h.ordered
  have hpos := layout_pos hlen
  obtain ⟨-, hlogs⟩ := mapTxSkb_kept ch.logs ch.ring hmap.symm
  have haccepted := congrArg TxLogs.accepted hlogs
  have hreclaimed := congrArg TxLogs.reclaimed hlogs
  change logs.accepted = ch.logs.accepted at haccepted
  have hmapped := mapped_of_sent h.sized h.cur hmap
  generalize hm : skb.contextCount ch.ring + skb.layout.length = m at *
  have hcount := hmapped.descCount
  rw [hm] at hcount
  obtain ⟨hcur, hwrote, hdescs, -⟩ :=
    devXmit_spec ch.txFrames hmapped.sized hmapped.cur hcount
      (by rw [hmapped.contextCount]; omega) (by omega)
  have hframe := devXmit_frame ch.txFrames ring
  have hsize : (ch.sent skb logs ring).ring.dmaDescCount
      = ring.dmaDescCount := congrArg (fun f => f.1) hframe
  have hdirty : (ch.sent skb logs ring).ring.dirty = ring.dirty :=
    congrArg (fun f => f.2.1) hframe
  have hdone : (ch.sent skb logs ring).logs.reclaimed
      = ch.logs.reclaimed := hreclaimed
  have hposted : (ch.sent skb logs ring).logs.posted
      = ch.logs.posted + m := by
    have hnote : (ch.note skb logs ring).descCount = m := by
      show ring.pktInfo.descCount.toNat = m
      rw [hcount, BitVec.toNat_ofNat, Nat.mod_eq_of_lt (by omega)]
    show ((logs.accepted ++ [ch.note skb logs ring]).map
      (·.descCount)).sum = _
    rw [haccepted, List.map_append, List.sum_append]
    exact congrArg (ch.logs.posted + ·) ((Nat.add_zero _).trans hnote)
  -- nothing outside of the chain changes
  have hfree : ∀ j, m ≤ j → ch.logs.posted + j < ch.logs.reclaimed + 4096 →
      ((ch.sent skb logs ring).ring.dmaDescs
        ((ch.logs.posted + j) % 4096)).own = false := fun j hlo hhi => by
    have hdesc := hdescs j (by omega)
    rw [if_neg (by omega)] at hdesc
    refine (congrArg DmaDesc.own hdesc).trans ?_
    show (ring.dmaDescs _).own = false
    rw [hmapped.dmaDescs]
    exact h.free _ (Nat.le_add_right _ _) hhi
  refine ⟨⟨?_, ?_, ?_, ?_, ?_, ?_⟩, ?_⟩
  · exact hsize.trans hmapped.sized
  · rw [hposted]
    exact hcur
  · rw [hdone, hdirty, hmapped.dirty, h.dirty]
  · omega
  · omega
  · rw [hposted, hdone]
    intro k hlo hhi
    obtain ⟨j, rfl⟩ := Nat.exists_eq_add_of_le
      ((Nat.le_add_right _ m).trans hlo)
    exact hfree j (by omega) hhi
  · have hchain : ch.ring.Wrote (ch.sent skb logs ring).ring
        ((List.range m ++ [m - 1, 0]).map
          fun j => (ch.logs.posted + j) % 4096) := by
      obtain ⟨new, heq, hentries⟩ := hwrote
      exact ⟨new, heq.trans (by rw [hmapped.writes]), hentries⟩
    refine hchain.wroteOnly fun w hw => ?_
    obtain ⟨j, hj, hentry⟩ := List.mem_map.1 hw
    show (ch.ring.dmaDescs w.1).own = false
    rw [← hentry]
    have hjm : j < m := by
      cases List.mem_append.1 hj with
      | inl hrange => exact List.mem_range.1 hrange
      | inr hmark =>
        rw [List.mem_cons, List.mem_singleton] at hmark
        omega
    exact h.free _ (Nat.le_add_right _ _) (by omega)

/-- What is undone of an entry that is reclaimed. -/
def TxChannel.reclaim (ch : TxChannel) : TxChannel :=
  let ring := ch.ring
  let i := ring.entry ring.dirty
  let data := ring.descDataHead i
  let logs :=
    if (ring.dmaDescs i).isLast then
      { ch.logs with
        completedBytes := ch.logs.completedBytes ++ [data.bytes] }
    else ch.logs
  let (logs, data) := logs.unmapDescData data
  let ring := ring.updData ring.dirty fun _ => data
  let ring := ring.updDesc ring.dirty fun _ => .zero
  { ch with
    ring := { ring with dirty := ring.dirty + 1 }
    logs := { logs with reclaimed := logs.reclaimed + 1 } }

theorem pollLoop_succ (cur : U32) (left processed : Nat)
    (ch : TxChannel) :
    ch.pollLoop cur (left + 1) processed
      = if ch.ring.dirty = cur then (processed, ch)
        else if (ch.ring.dmaDescs (ch.ring.entry ch.ring.dirty)).own then
          (processed, ch)
        else ch.reclaim.pollLoop cur left (processed + 1) := rfl

theorem reclaim_logs (ch : TxChannel) :
    ch.reclaim.logs.accepted = ch.logs.accepted
      ∧ ch.reclaim.logs.reclaimed = ch.logs.reclaimed + 1 := by
  unfold TxChannel.reclaim
  dsimp only
  split
  · exact ⟨rfl, rfl⟩
  · exact ⟨rfl, rfl⟩

theorem reclaim_dmaDescs (h : ch.RingInv) :
    ch.reclaim.ring.dmaDescs
      = Function.update ch.ring.dmaDescs (ch.logs.reclaimed % 4096)
        .zero := by
  have hentry := tx_entry_ofNat h.sized ch.logs.reclaimed
  rw [← h.dirty] at hentry
  rw [← hentry]
  rfl

/-- An entry behind `dirty` is reclaimed. -/
theorem TxChannel.RingInv.reclaim (h : ch.RingInv)
    (hmore : ¬ ch.ring.dirty = ch.ring.cur) : ch.reclaim.RingInv := by
  obtain ⟨haccepted, hreclaimed⟩ := reclaim_logs ch
  have hposted : ch.reclaim.logs.posted = ch.logs.posted := by
    rw [TxLogs.posted, haccepted]
    rfl
  have hordered := h.ordered
  have hfits := h.fits
  have hless : ch.logs.reclaimed ≠ ch.logs.posted := fun heq =>
    hmore (by rw [h.dirty, h.cur, heq])
  refine ⟨h.sized, ?_, ?_, ?_, ?_, ?_⟩
  · rw [hposted]
    exact h.cur
  · rw [hreclaimed, ← Counter.add_one, ← h.dirty]
    rfl
  · omega
  · omega
  · rw [hposted, hreclaimed, reclaim_dmaDescs h]
    intro k hlo hhi
    by_cases hk : k % 4096 = ch.logs.reclaimed % 4096
    · rw [hk, Function.update_self]
      rfl
    · rw [Function.update_of_ne hk]
      refine h.free k hlo ?_
      have hne : k ≠ ch.logs.reclaimed + 4096 := fun heq =>
        hk (by rw [heq, Nat.add_mod_right])
      omega

/-- The loop of `mac_tx_poll` writes only what the NIC has given back. -/
theorem pollLoop_kept {P : Nat × DmaDesc → Prop} (left processed : Nat)
    (h : ch.RingInv)
    (hP : ∀ i d, (ch.ring.dmaDescs i).own = false → P (i, d)) :
    (ch.pollLoop ch.ring.cur left processed).2.RingInv
      ∧ ch.ring.WroteOnly P
        (ch.pollLoop ch.ring.cur left processed).2.ring := by
  induction left generalizing ch processed with
  | zero => exact ⟨h, .refl⟩
  | succ left ih =>
    rw [pollLoop_succ]
    split
    · exact ⟨h, .refl⟩
    · rename_i hmore
      split
      · exact ⟨h, .refl⟩
      · rename_i hown
        have hfree := Bool.of_not_eq_true hown
        have hentry := tx_entry_ofNat h.sized ch.logs.reclaimed
        rw [← h.dirty] at hentry
        have hkept : ∀ i, (ch.reclaim.ring.dmaDescs i).own = false →
            (ch.ring.dmaDescs i).own = false := fun i hi => by
          by_cases heq : i = ch.logs.reclaimed % 4096
          · rw [heq, ← hentry]
            exact hfree
          · rw [reclaim_dmaDescs h, Function.update_of_ne heq] at hi
            exact hi
        obtain ⟨hinv, hwrote⟩ := ih (processed + 1) (h.reclaim hmore)
          fun i d hi => hP i d (hkept i hi)
        refine ⟨hinv, TxRing.WroteOnly.trans ⟨_, rfl, fun w hw => ?_⟩
          hwrote⟩
        rw [List.mem_singleton.1 hw]
        exact hP _ _ hfree

theorem poll_untouched (ch : TxChannel) :
    (ch.pollLoop ch.ring.cur txDescMaxProc 0).2.Untouched ch.poll := by
  unfold TxChannel.poll
  generalize ch.pollLoop ch.ring.cur txDescMaxProc 0 = out
  obtain ⟨processed, ch'⟩ := out
  cases processed with
  | zero => exact ⟨rfl, rfl, rfl⟩
  | succ n =>
    dsimp only
    split
    · exact ⟨rfl, rfl, rfl⟩
    · exact ⟨rfl, rfl, rfl⟩

theorem own_complete (back : DmaDesc) (last : U32) :
    DmaDesc.own { back with
      desc3 := Field.set (Field.set back.desc3 31 1 0) 28 1 last }
      = false := by
  rw [DmaDesc.own,
    Field.get_set_of_apart (by decide) (by decide) (by decide),
    Field.get_set (by decide)]
  rfl

/-- The NIC gives descriptors back and takes none. -/
theorem TxChannel.RingInv.complete (h : ch.RingInv) (back : DmaDesc) :
    TxChannel.RingInv { ch with ring := ch.ring.complete back } := by
  unfold TxRing.complete
  dsimp only
  split
  · refine ⟨h.sized, h.cur, h.dirty, h.ordered, h.fits,
      fun k hlo hhi => ?_⟩
    dsimp only
    by_cases hk : k % 4096 = ch.ring.head
    · rw [hk, Function.update_self]
      exact own_complete back _
    · rw [Function.update_of_ne hk]
      exact h.free k hlo hhi
  · exact h

/-- What a transmission may be of: the headers of a packet that is to be
segmented are in its linear part. -/
def ChannelAct.HeadersLinear : ChannelAct → Prop
  | .xmit _ skb => skb.HeadersLinear
  | .poll => True
  | .complete _ => True

/-- Every call keeps the ring from being overrun. -/
theorem TxChannel.RingInv.step (h : ch.RingInv) {act : ChannelAct}
    (hact : act.HeadersLinear) :
    (ch.step act).RingInv ∧ ch.Spares act := by
  cases act with
  | xmit env skb =>
    unfold TxChannel.Spares
    show (ch.xmit env skb).RingInv ∧ ch.ring.WroteOnly _
      (ch.xmit env skb).ring
    have hcase := xmit_cases env skb ch
    generalize ch.xmit env skb = out at hcase ⊢
    generalize ch.xmitRet env skb = ret at hcase
    cases hcase with
    | linkDown _ => exact ⟨h, .refl⟩
    | empty _ => exact ⟨h.untouched ⟨rfl, rfl, rfl⟩, .refl⟩
    | full _ _ => exact ⟨h.untouched ⟨rfl, rfl, rfl⟩, .refl⟩
    | noHeader _ => exact ⟨h.untouched ⟨rfl, rfl, rfl⟩, .refl⟩
    | @unmapped logs ring _ _ hmap =>
      obtain ⟨hring, hlogs⟩ := mapTxSkb_kept ch.logs ch.ring hmap.symm
      have haccepted := congrArg TxLogs.accepted hlogs
      have hreclaimed := congrArg TxLogs.reclaimed hlogs
      have hsame : ch.Untouched
          (TxChannel.free { ch with ring := ring, logs := logs } skb) :=
        ⟨hring, haccepted, hreclaimed⟩
      exact ⟨h.untouched hsame, hsame.wroteOnly⟩
    | @sent logs ring _ hlen _ hroom hmap =>
      obtain ⟨hinv, hwrote⟩ := h.sent hlen hact hroom hmap
      have hsame := TxChannel.maybeStop_untouched (ch.sent skb logs ring)
        txMaxDescNr
      exact ⟨hinv.untouched hsame, hwrote.trans hsame.wroteOnly⟩
  | poll =>
    obtain ⟨hinv, hwrote⟩ := pollLoop_kept
      (P := fun w => (ch.ring.dmaDescs w.1).own = false) txDescMaxProc 0 h
      fun i d hi => hi
    have hsame := poll_untouched ch
    exact ⟨hinv.untouched hsame, hwrote.trans hsame.wroteOnly⟩
  | complete back =>
    refine ⟨h.complete back, [], ?_, fun _ hw => absurd hw List.not_mem_nil⟩
    show (ch.ring.complete back).writes = _
    unfold TxRing.complete
    dsimp only
    split
    · exact (List.append_nil _).symm
    · exact (List.append_nil _).symm

theorem TxChannel.ringInv_fresh (txFrames : U32) :
    (TxChannel.fresh txFrames).RingInv :=
  ⟨rfl, rfl, rfl, Nat.le_refl 0, Nat.zero_le _,
    fun _ _ _ => show DmaDesc.zero.own = false from rfl⟩

end Channel

-- ================================================================== runs

/-- The count of `mac_prep_tx_pkt` is enough for what `mac_map_tx_skb`
takes, and so, over every run, the ring is never overrun. -/
theorem reservation_enough :
    (∀ (ring : TxRing) (skb : Skb) (dma : Nat → Option U64)
        (logs logs' : TxLogs) (ring' : TxRing), skb.HeadersLinear →
        TxRing.mapTxSkb dma skb logs
          { ring with pktInfo := ring.prepared skb } = (logs', ring', true) →
        ring'.pktInfo.descCount ≤ (ring.prepTxPkt skb).descCount)
      ∧ ∀ (txFrames : U32) (acts : List ChannelAct),
        (∀ act ∈ acts, act.HeadersLinear) →
        Run.Always TxChannel.step TxChannel.Fits (.fresh txFrames) acts
          ∧ Run.Each TxChannel.step TxChannel.Spares (.fresh txFrames)
            acts := by
  constructor
  · intro ring skb dma logs logs' ring' hheaders hmap
    obtain ⟨length, hpkt⟩ := mapTxSkb_sent hmap
    have hneeded := needed_le_reserved hheaders ring.curMss ring.curVlanCtag
    rw [hpkt, BitVec.le_def, descCount_prepTxPkt_toNat, BitVec.toNat_ofNat]
    exact (Nat.mod_le _ _).trans hneeded
  · intro txFrames acts hacts
    have heach : Run.Each TxChannel.step (fun _ act => act.HeadersLinear)
        (.fresh txFrames) acts := Run.each_of_forall_mem hacts _
    have hstart := TxChannel.ringInv_fresh txFrames
    constructor
    · exact (heach.always (fun _ _ h hact => (h.step hact).1) hstart).mono
        fun _ h => h.fits_ring
    · exact heach.each_of_inv (fun _ _ h hact => (h.step hact).1) hstart
        fun _ _ h hact => (h.step hact).2

/-- A packet to be segmented, of 1000 bytes in one fragment. -/
def headersInFrag : Skb where
  id := 0
  len := 1000
  headlen := 0
  frags := [1000]
  csumPartial := true
  gsoSize := 500
  gsoSegs := 2
  vlanTag := none
  transportOffset := 34
  tcpHdrlen := 20
  frags_le := by decide
  len_eq := by decide

theorem mapAll_true {dma : Nat → Option U64} (skb : Skb)
    (hall : ∀ i, (dma i).isSome = true) (ps : List Piece)
    (st : MapState) : (st.mapAll dma skb ps).2 = true := by
  induction ps generalizing st with
  | nil => rfl
  | cons piece ps ih =>
    obtain ⟨addr, haddr⟩ := Option.isSome_iff_exists.1 (hall st.calls)
    rw [MapState.mapAll, MapState.mapPiece, haddr]
    exact ih _

theorem mapTxSkb_true (dma : Nat → Option U64)
    (hall : ∀ i, (dma i).isSome = true) (skb : Skb) (logs : TxLogs)
    (ring : TxRing) :
    ∃ logs' ring', TxRing.mapTxSkb dma skb logs
      { ring with pktInfo := ring.prepared skb } = (logs', ring', true) := by
  have hok := mapAll_true skb hall skb.layout
    (ring.mapStart skb logs)
  rw [TxRing.mapTxSkb]
  dsimp only
  rw [mapTxSkb_index, mapSkb_eq]
  rw [TxRing.mapStart] at hok
  generalize MapState.mapAll dma skb _ skb.layout = walked at *
  obtain ⟨st, ok⟩ := walked
  obtain rfl : ok = true := hok
  exact ⟨_, _, rfl⟩

/-- What is left of an empty linear part without the header is nearly
2^32 bytes: counted for 3 descriptors, the packet takes 263176. -/
theorem headers_outside_overrun :
    ∃ logs ring, TxRing.mapTxSkb (fun _ => some 0x1000) headersInFrag .none
        { TxRing.fresh with
          pktInfo := TxRing.fresh.prepared headersInFrag }
        = (logs, ring, true)
      ∧ (TxRing.fresh.prepTxPkt headersInFrag).descCount = 3
      ∧ ring.pktInfo.descCount = 263176
      ∧ ¬ ring.pktInfo.descCount
        ≤ (TxRing.fresh.prepTxPkt headersInFrag).descCount := by
  obtain ⟨logs, ring, hmap⟩ := mapTxSkb_true (fun _ => some 0x1000)
    (fun _ => rfl) headersInFrag .none .fresh
  obtain ⟨length, hpkt⟩ := mapTxSkb_sent hmap
  have hcount : (TxRing.fresh.prepTxPkt headersInFrag).descCount = 3 := by
    rw [prepTxPkt_descCount]
    rfl
  have htaken : ring.pktInfo.descCount = 263176 := by
    rw [hpkt, length_layout]
    rfl
  refine ⟨logs, ring, hmap, hcount, htaken, ?_⟩
  rw [hcount, htaken]
  decide

theorem reservation_enough_once :
    (∃ logs ring, TxRing.mapTxSkb (fun _ => some 0x1000) taggedTso .none
        { TxRing.fresh with pktInfo := TxRing.fresh.prepared taggedTso }
        = (logs, ring, true)
      ∧ ring.pktInfo.descCount
        ≤ (TxRing.fresh.prepTxPkt taggedTso).descCount)
      ∧ Run.Always TxChannel.step TxChannel.Fits (.fresh 0)
        [.xmit ⟨true, true, fun _ => some 0x1000⟩ taggedTso, .poll] := by
  constructor
  · obtain ⟨logs, ring, hmap⟩ := mapTxSkb_true (fun _ => some 0x1000)
      (fun _ => rfl) taggedTso .none .fresh
    exact ⟨logs, ring, hmap,
      reservation_enough.1 _ _ _ _ _ _ headersLinear_taggedTso hmap⟩
  · refine (reservation_enough.2 0 _ fun act hact => ?_).1
    rw [List.mem_cons, List.mem_singleton] at hact
    rcases hact with rfl | rfl
    · exact headersLinear_taggedTso
    · trivial

end BxRnic.Mac
