/-
What becomes of the packets that were handed to the NIC.

`TxChannel.Books` ties the ring to the logs: the NIC owns the posted
descriptors it has not completed, the entry of each posted descriptor
holds what that stands for, and the other entries hold nothing of an
accepted packet. Every call keeps it, if the packets it accepts are sound
(`TxChannel.Sound`). It says of the logs what is wanted of a run
(`TxChannel.Settled`).
-/
import BxRnic.Mac.Proofs.TxPacket

namespace BxRnic.Mac

-- =========================================================== the invariant

/-- The ring and the logs. Positions are those of the stream. -/
structure TxChannel.Books (ch : TxChannel) : Prop where
  ring : ch.RingInv
  head : ch.ring.head = ch.ring.completed % 4096
  released : ch.logs.reclaimed ≤ ch.ring.completed
  posted : ch.ring.completed ≤ ch.logs.posted
  owned : ∀ k, ch.logs.reclaimed ≤ k → k < ch.logs.posted →
    (ch.ring.dmaDescs (k % 4096)).own = decide (ch.ring.completed ≤ k)
  zero : ∀ k, ch.logs.posted ≤ k → k < ch.logs.reclaimed + 4096 →
    ch.ring.dmaDescs (k % 4096) = .zero
  last : ∀ k s, ch.logs.reclaimed ≤ k → ch.logs.slots[k]? = some s →
    (ch.ring.dmaDescs (k % 4096)).isLast = s.last
  held : ∀ k s, ch.logs.reclaimed ≤ k → ch.logs.slots[k]? = some s →
    ch.logs.Holds s (ch.ring.descDataHead (k % 4096))
  loose : ∀ k, ch.logs.posted ≤ k → k < ch.logs.reclaimed + 4096 →
    ch.logs.Loose (ch.ring.descDataHead (k % 4096))
  logs : ch.logs.Kept

/-- A ring without what no descriptor depends on. -/
def TxRing.besideFlags (ring : TxRing) : TxRing :=
  { ring with pktInfo := .zero, queueStopped := false }

section Frame

variable {ch ch' : TxChannel} {skb : Skb}

theorem lt_posted {k : Nat} {s : TxSlot} (h : ch.logs.slots[k]? = some s) :
    k < ch.logs.posted := by
  obtain ⟨hlt, -⟩ := List.getElem?_eq_some_iff.1 h
  rw [← length_slots_logs]
  exact hlt

theorem TxChannel.Books.flags (h : ch.Books)
    (hring : ch'.ring.besideFlags = ch.ring.besideFlags)
    (hlogs : ch'.logs = ch.logs) : ch'.Books := by
  have hdescs := congrArg TxRing.dmaDescs hring
  have hdatas := congrArg TxRing.descDataHead hring
  have hhead := congrArg TxRing.head hring
  have hcompleted := congrArg TxRing.completed hring
  have hmap := congrArg TxRing.besideMap hring
  change ch'.ring.dmaDescs = ch.ring.dmaDescs at hdescs
  change ch'.ring.descDataHead = ch.ring.descDataHead at hdatas
  change ch'.ring.head = ch.ring.head at hhead
  change ch'.ring.completed = ch.ring.completed at hcompleted
  refine ⟨h.ring.untouched ⟨hmap, by rw [hlogs], by rw [hlogs]⟩,
    ?_, ?_, ?_, ?_, ?_, ?_, ?_, ?_, ?_⟩
  · rw [hhead, hcompleted]
    exact h.head
  · rw [hlogs, hcompleted]
    exact h.released
  · rw [hlogs, hcompleted]
    exact h.posted
  · rw [hlogs, hcompleted, hdescs]
    exact h.owned
  · rw [hlogs, hdescs]
    exact h.zero
  · rw [hlogs, hdescs]
    exact h.last
  · rw [hlogs, hdatas]
    exact h.held
  · rw [hlogs, hdatas]
    exact h.loose
  · rw [hlogs]
    exact h.logs

/-- A packet that is dropped is no packet of the NIC. -/
theorem TxChannel.Books.free (h : ch.Books) (skb : Skb) :
    (ch.free skb).Books := by
  refine ⟨h.ring.untouched ⟨rfl, rfl, rfl⟩, h.head, h.released, h.posted,
    h.owned, h.zero, h.last, fun k s hlo hk => ?_, fun k hlo hhi => ?_, ?_⟩
  · have hheld := h.held k s hlo hk
    exact ⟨hheld.skb, hheld.bytes, hheld.context, hheld.mapping⟩
  · have hloose := h.loose k hlo hhi
    exact ⟨hloose.skb, hloose.foreign⟩
  · have hlogs := h.logs
    exact ⟨hlogs.placed, hlogs.numbered, hlogs.apart, hlogs.known,
      hlogs.undone, hlogs.freed, hlogs.completed, hlogs.sent⟩

/-- The stop of the queue is no part of a chain. -/
theorem TxChannel.Describes.maybeStop {m : Nat} {maps : List TxMapping}
    (h : ch.Describes ch' skb m maps) (count : U32) :
    ch.Describes (ch'.maybeStop count).2 skb m maps := by
  unfold TxChannel.maybeStop
  split
  · exact ⟨h.wrote, h.cur, h.marks, h.buffers, h.count, h.bytes,
      h.context, h.logs⟩
  · exact h

theorem maybeStop_flags (ch : TxChannel) (count : U32) :
    (ch.maybeStop count).2.ring.besideFlags = ch.ring.besideFlags
      ∧ (ch.maybeStop count).2.logs = ch.logs := by
  unfold TxChannel.maybeStop
  split
  · exact ⟨rfl, rfl⟩
  · exact ⟨rfl, rfl⟩

theorem poll_flags (ch : TxChannel) :
    ch.poll.ring.besideFlags
        = (ch.pollLoop ch.ring.cur txDescMaxProc 0).2.ring.besideFlags
      ∧ ch.poll.logs
        = (ch.pollLoop ch.ring.cur txDescMaxProc 0).2.logs := by
  unfold TxChannel.poll
  generalize ch.pollLoop ch.ring.cur txDescMaxProc 0 = out
  obtain ⟨processed, ch'⟩ := out
  cases processed with
  | zero => exact ⟨rfl, rfl⟩
  | succ n =>
    dsimp only
    split
    · exact ⟨rfl, rfl⟩
    · exact ⟨rfl, rfl⟩

end Frame

-- ================================================================ the NIC

section Complete

variable {ch : TxChannel}

/-- A descriptor that the NIC owns is one that was posted. -/
theorem TxChannel.Books.more (h : ch.Books)
    (hown : (ch.ring.dmaDescs ch.ring.head).own = true) :
    ch.ring.completed < ch.logs.posted := by
  have hreleased := h.released
  have hposted := h.posted
  have hfits := h.ring.fits
  rw [h.head] at hown
  by_contra hnot
  have heq : ch.ring.completed = ch.logs.posted := by omega
  rcases Nat.lt_or_ge ch.logs.posted (ch.logs.reclaimed + 4096) with
    hfree | hfull
  · have hnone := h.ring.free ch.ring.completed (by omega) (by omega)
    rw [hnone] at hown
    cases hown
  · have howned := h.owned ch.logs.reclaimed (Nat.le_refl _) (by omega)
    have hlap : ch.ring.completed = ch.logs.reclaimed + 4096 := by omega
    rw [hlap, Nat.add_mod_right, howned, decide_eq_true_iff] at hown
    omega

/-- The LD bit is written back as it was. -/
theorem isLast_complete (back d : DmaDesc) :
    DmaDesc.isLast { back with
      desc3 := Field.set (Field.set back.desc3 31 1 0) 28 1
        (Field.get d.desc3 28 1) } = d.isLast := by
  unfold DmaDesc.isLast
  rw [Field.get_set (by decide), Field.get_get (by decide)]

/-- The NIC completes a descriptor. -/
theorem TxChannel.Books.complete (h : ch.Books) (back : DmaDesc) :
    TxChannel.Books { ch with ring := ch.ring.complete back } := by
  have hring := h.ring.complete back
  have hreleased := h.released
  have hposted := h.posted
  have hfits := h.ring.fits
  unfold TxRing.complete at hring ⊢
  dsimp only at hring ⊢
  split
  · rename_i hown
    rw [if_pos hown] at hring
    have hmore := h.more hown
    have hat : ∀ k, ch.logs.reclaimed ≤ k →
        k < ch.logs.reclaimed + 4096 → k % 4096 = ch.ring.head →
        k = ch.ring.completed := fun k hlo hhi heq =>
      Counter.mod_inj hlo hhi hreleased (by omega) (heq.trans h.head)
    have hcount : ch.ring.dmaDescCount.toNat = 4096 := by
      rw [h.ring.sized]
      rfl
    refine ⟨hring, ?_, by dsimp only; omega, hmore,
      fun k hlo hhi => ?_, fun k hlo hhi => ?_, fun k s hlo hk => ?_,
      h.held, h.loose, h.logs⟩
    · dsimp only
      rw [hcount, h.head, Nat.mod_add_mod]
    · dsimp only at hlo hhi ⊢
      by_cases hk : k % 4096 = ch.ring.head
      · have heq := hat k hlo (by omega) hk
        rw [hk, Function.update_self, own_complete,
          decide_eq_false (by omega)]
      · rw [Function.update_of_ne hk, h.owned k hlo hhi]
        have hne : k ≠ ch.ring.completed := fun heq =>
          hk (by rw [heq, h.head])
        exact decide_eq_decide.2 (by omega)
    · dsimp only at hlo hhi ⊢
      rw [Function.update_of_ne]
      · exact h.zero k hlo hhi
      · intro hk
        have heq := hat k (by omega) hhi hk
        omega
    · dsimp only at hlo hk ⊢
      have hlast := h.last k s hlo hk
      by_cases hkh : k % 4096 = ch.ring.head
      · rw [hkh] at hlast ⊢
        rw [Function.update_self, isLast_complete]
        exact hlast
      · rw [Function.update_of_ne hkh]
        exact hlast
  · exact h

end Complete

-- =========================================================== mac_tx_poll

section Reclaim

variable {ch : TxChannel}

/-- The entry that is reclaimed next. -/
def TxChannel.oldest (ch : TxChannel) : TxDescData :=
  ch.ring.descDataHead (ch.logs.reclaimed % 4096)

theorem reclaim_eq (h : ch.RingInv) :
    ch.reclaim.logs = ch.logs.reclaim
        (ch.ring.dmaDescs (ch.logs.reclaimed % 4096)).isLast ch.oldest
      ∧ ch.reclaim.ring.descDataHead
        = Function.update ch.ring.descDataHead
          (ch.logs.reclaimed % 4096) ch.oldest.cleared := by
  have hentry := tx_entry_ofNat h.sized ch.logs.reclaimed
  rw [← h.dirty] at hentry
  unfold TxChannel.reclaim TxLogs.reclaim TxChannel.oldest TxLogs.unmapAll
  dsimp only
  rw [hentry, unmapTxDesc_eq]
  dsimp only
  constructor
  · simp only [List.flatMap_cons, List.flatMap_nil, List.append_nil]
    split <;> rfl
  · unfold TxRing.updData TxRing.updDesc
    dsimp only
    rw [hentry]

/-- An entry behind `dirty` is reclaimed. -/
theorem TxChannel.Books.reclaim (h : ch.Books)
    (hmore : ¬ ch.ring.dirty = ch.ring.cur)
    (hown : (ch.ring.dmaDescs (ch.logs.reclaimed % 4096)).own = false) :
    ch.reclaim.Books ∧ ch.logs.reclaimed < ch.ring.completed := by
  have hfits := h.ring.fits
  have hordered := h.ring.ordered
  have hless : ch.logs.reclaimed < ch.logs.posted := by
    have hne : ch.logs.reclaimed ≠ ch.logs.posted := fun heq =>
      hmore (by rw [h.ring.dirty, h.ring.cur, heq])
    omega
  have hdone : ch.logs.reclaimed < ch.ring.completed := by
    have howned := h.owned ch.logs.reclaimed (Nat.le_refl _) hless
    rw [hown] at howned
    have hnot := of_decide_eq_false howned.symm
    omega
  refine ⟨?_, hdone⟩
  have hring := h.ring.reclaim hmore
  obtain ⟨hlogs, hdatas⟩ := reclaim_eq h.ring
  have hdescs := reclaim_dmaDescs h.ring
  obtain ⟨s, hs⟩ : ∃ s, ch.logs.slots[ch.logs.reclaimed]? = some s :=
    ⟨_, List.getElem?_eq_getElem (by rw [length_slots_logs]; exact hless)⟩
  have hholds := h.held _ s (Nat.le_refl _) hs
  have hapart : ∀ k, ch.logs.reclaimed < k →
      k < ch.logs.reclaimed + 4096 → k % 4096 ≠ ch.logs.reclaimed % 4096 :=
    fun k hlo hhi heq => by
      have hsame := Counter.mod_inj (Nat.le_of_lt hlo) hhi (Nat.le_refl _)
        (Nat.lt_add_of_pos_right (by decide)) heq
      omega
  rw [h.last _ s (Nat.le_refl _) hs] at hlogs
  have hposted : ch.reclaim.logs.posted = ch.logs.posted := by
    rw [hlogs]
    rfl
  have hreclaimed : ch.reclaim.logs.reclaimed = ch.logs.reclaimed + 1 := by
    rw [hlogs]
    rfl
  have hslots : ch.reclaim.logs.slots = ch.logs.slots := by
    rw [hlogs]
    rfl
  refine ⟨hring, h.head, ?_, ?_, fun k hlo hhi => ?_, fun k hlo hhi => ?_,
    fun k s' hlo hk => ?_, fun k s' hlo hk => ?_, fun k hlo hhi => ?_, ?_⟩
  · rw [hreclaimed]
    exact hdone
  · rw [hposted]
    exact h.posted
  · rw [hreclaimed] at hlo
    rw [hposted] at hhi
    rw [hdescs, Function.update_of_ne (hapart k (by omega) (by omega))]
    exact h.owned k (by omega) hhi
  · rw [hreclaimed] at hhi
    rw [hposted] at hlo
    rw [hdescs]
    by_cases hk : k % 4096 = ch.logs.reclaimed % 4096
    · rw [hk, Function.update_self]
    · rw [Function.update_of_ne hk]
      have hne : k ≠ ch.logs.reclaimed + 4096 := fun heq =>
        hk (by rw [heq, Nat.add_mod_right])
      exact h.zero k hlo (by omega)
  · rw [hreclaimed] at hlo
    rw [hslots] at hk
    have hlt := lt_posted hk
    rw [hdescs, Function.update_of_ne (hapart k (by omega) (by omega))]
    exact h.last k s' (by omega) hk
  · rw [hreclaimed] at hlo
    rw [hslots] at hk
    have hlt := lt_posted hk
    have hheld := h.held k s' (by omega) hk
    rw [hdatas, Function.update_of_ne (hapart k (by omega) (by omega)),
      hlogs]
    exact ⟨hheld.skb, hheld.bytes, hheld.context, hheld.mapping⟩
  · rw [hreclaimed] at hhi
    rw [hposted] at hlo
    rw [hdatas, hlogs]
    by_cases hk : k % 4096 = ch.logs.reclaimed % 4096
    · rw [hk, Function.update_self]
      refine ⟨rfl, fun u hu => ?_⟩
      rw [unmapCalls_cleared] at hu
      exact absurd hu List.not_mem_nil
    · rw [Function.update_of_ne hk]
      have hne : k ≠ ch.logs.reclaimed + 4096 := fun heq =>
        hk (by rw [heq, Nat.add_mod_right])
      have hloose := h.loose k hlo (by omega)
      exact ⟨hloose.skb, hloose.foreign⟩
  · rw [hlogs]
    exact h.logs.reclaimed hs hholds

/-- The loop of `mac_tx_poll` reclaims what the NIC has completed, up to
its bound. -/
theorem TxChannel.Books.pollLoop (h : ch.Books) (left processed : Nat) :
    (ch.pollLoop ch.ring.cur left processed).2.Books
      ∧ (ch.pollLoop ch.ring.cur left processed).2.logs.reclaimed
        = min ch.ring.completed (ch.logs.reclaimed + left) := by
  have hreleased := h.released
  have hposted := h.posted
  induction left generalizing ch processed with
  | zero =>
    refine ⟨h, ?_⟩
    show ch.logs.reclaimed = _
    omega
  | succ left ih =>
    have hentry := tx_entry_ofNat h.ring.sized ch.logs.reclaimed
    rw [← h.ring.dirty] at hentry
    rw [pollLoop_succ, hentry]
    split
    · rename_i hsame
      have hused := h.ring.used
      rw [hsame, BitVec.sub_self] at hused
      change 0 = _ at hused
      refine ⟨h, ?_⟩
      dsimp only
      omega
    · rename_i hmore
      split
      · rename_i hown
        refine ⟨h, ?_⟩
        have hordered := h.ring.ordered
        have hne : ch.logs.reclaimed ≠ ch.logs.posted := fun heq =>
          hmore (by rw [h.ring.dirty, h.ring.cur, heq])
        have howned := h.owned ch.logs.reclaimed (Nat.le_refl _) (by omega)
        rw [hown] at howned
        have hyes := of_decide_eq_true howned.symm
        dsimp only
        omega
      · rename_i hown
        obtain ⟨hbooks, hdone⟩ :=
          h.reclaim hmore (Bool.of_not_eq_true hown)
        obtain ⟨-, hreclaimed⟩ := reclaim_logs ch
        have hcompleted : ch.reclaim.ring.completed = ch.ring.completed :=
          rfl
        obtain ⟨hinv, hcount⟩ := ih hbooks (processed + 1)
          hbooks.released hbooks.posted
        refine ⟨hinv, hcount.trans ?_⟩
        rw [hcompleted, hreclaimed]
        omega

end Reclaim

-- ============================================================== mac_xmit

/-- What `mac_xmit` accepts: the kernel answers to every request. -/
structure TxChannel.Accepts (ch : TxChannel) (env : XmitEnv) (skb : Skb) :
    Prop where
  link : env.linkUp = true
  len : skb.len ≠ 0
  room : ¬ (ch.ring.prepTxPkt skb).descCount > ch.ring.availDesc
  header : skb.isTso = true → env.cowHead = true
  maps : ∀ i, i < skb.layout.length → (env.dma i).isSome = true

/-- A packet that can be told and undone: a TSO header is shorter than the
length field allows, no mapping is at address 0, and no entry that is given
to the linear part is left as one of a page. -/
structure TxChannel.Sound (ch : TxChannel) (env : XmitEnv) (skb : Skb) :
    Prop where
  header : skb.isTso = true → skb.headerLen.toNat < 2 ^ 14
  address : ∀ i, i < skb.layout.length → env.dma i ≠ some 0
  kind : ∀ i piece, skb.layout[i]? = some piece → piece.src = .linear →
    (ch.ring.datas ch.ring.cur.toNat
      (skb.contextCount ch.ring + i)).mappedAsPage = false

section Xmit

variable {ch : TxChannel} {env : XmitEnv} {skb : Skb} {logs : TxLogs}
  {ring : TxRing}

/-- The mappings are the kernel's answers. -/
theorem newMaps_answers {dma : Nat → Option U64} {calls : Nat}
    {ps : List Piece}
    (h : (newMaps dma skb calls ps).map (·.piece) = ps) :
    ∀ i (hi : i < (newMaps dma skb calls ps).length),
      dma (calls + i) = some (newMaps dma skb calls ps)[i].dma
        ∧ (newMaps dma skb calls ps)[i].skb = skb.id := by
  induction ps generalizing calls with
  | nil => exact fun i hi => absurd hi (Nat.not_lt_zero i)
  | cons piece ps ih =>
    rw [newMaps] at h ⊢
    cases hdma : dma calls with
    | none =>
      rw [hdma] at h
      cases h
    | some addr =>
      rw [hdma] at h
      intro i hi
      cases i with
      | zero => exact ⟨hdma, rfl⟩
      | succ i =>
        have hrest := ih (List.cons.inj h).2 i (Nat.lt_of_succ_lt_succ hi)
        rw [Nat.add_assoc, Nat.add_comm 1 i] at hrest
        exact hrest

/-- A packet that was mapped was accepted by the kernel. -/
theorem accepts_of_mapped (hlink : env.linkUp = true)
    (hlen : skb.len ≠ 0) (hcow : skb.isTso = true → env.cowHead = true)
    (hroom : ¬ (ch.ring.prepTxPkt skb).descCount > ch.ring.availDesc)
    (hpieces : (newMaps env.dma skb 0 skb.layout).map (·.piece)
      = skb.layout) : ch.Accepts env skb := by
  refine ⟨hlink, hlen, hroom, hcow, fun i hi => ?_⟩
  have hcount := congrArg List.length hpieces
  rw [List.length_map] at hcount
  obtain ⟨hanswer, -⟩ := newMaps_answers hpieces i (by omega)
  rw [Nat.zero_add] at hanswer
  rw [hanswer]
  rfl

/-- Every entry behind the window of a packet is an old one. -/
theorem old_entry {posted reclaimed m k : Nat}
    (hfits : posted + m ≤ reclaimed + 4096) (hlo : reclaimed ≤ k)
    (hhi : k < posted) :
    ∃ j, m ≤ j ∧ j < 4096 ∧ k % 4096 = (posted + j) % 4096 := by
  refine ⟨k + 4096 - posted, by omega, by omega, ?_⟩
  have hsum : posted + (k + 4096 - posted) = k + 4096 := by omega
  rw [hsum, Nat.add_mod_right]

/-- A mapping that is made for a packet not accepted yet. -/
theorem TxLogs.Loose.after {logs : TxLogs} {d : TxDescData}
    (h : logs.Loose d) (hlogs : logs.Kept) (ctx : Nat)
    (new : List TxMapping) (j : Nat) :
    (logs.mapped new).Loose (d.after ctx logs.maps.length new j) := by
  unfold TxDescData.after
  split
  · cases hat : new[j - ctx]? with
    | none => exact h.mapped
    | some m =>
      obtain ⟨hlt, -⟩ := List.getElem?_eq_some_iff.1 hat
      refine ⟨h.skb, fun u hu => ?_⟩
      change u ∈ (d.holding _ m).unmapCalls at hu
      unfold TxDescData.unmapCalls at hu
      split at hu
      · rw [List.mem_singleton.1 hu]
        refine ⟨logs.maps.length + (j - ctx), rfl, ?_, fun s hs heq => ?_⟩
        · show _ < (logs.maps ++ new).length
          rw [List.length_append]
          omega
        · have hless := hlogs.numbered s hs _ heq
          omega
      · exact absurd hu List.not_mem_nil
  · exact h.mapped

/-- Where only the entries and the mappings have changed, it is these the
books have to be checked for. -/
theorem TxChannel.Books.refilled (h : ch.Books)
    (hring : ring.besideMap = ch.ring.besideMap)
    (haccepted : logs.accepted = ch.logs.accepted)
    (hreclaimed : logs.reclaimed = ch.logs.reclaimed)
    (hheld : ∀ k s, ch.logs.reclaimed ≤ k → ch.logs.slots[k]? = some s →
      logs.Holds s (ring.descDataHead (k % 4096)))
    (hloose : ∀ k, ch.logs.posted ≤ k → k < ch.logs.reclaimed + 4096 →
      logs.Loose (ring.descDataHead (k % 4096)))
    (hlogs : logs.Kept) :
    TxChannel.Books { ch with ring := ring, logs := logs } := by
  have hdescs := congrArg TxRing.dmaDescs hring
  have hhead := congrArg TxRing.head hring
  have hcompleted := congrArg TxRing.completed hring
  change ring.dmaDescs = ch.ring.dmaDescs at hdescs
  change ring.head = ch.ring.head at hhead
  change ring.completed = ch.ring.completed at hcompleted
  have hposted : logs.posted = ch.logs.posted := by
    rw [TxLogs.posted, haccepted]
    rfl
  have hslots : logs.slots = ch.logs.slots := by
    rw [TxLogs.slots, haccepted]
    rfl
  refine ⟨h.ring.untouched ⟨hring, haccepted, hreclaimed⟩, ?_, ?_, ?_,
    fun k hlo hhi => ?_, fun k hlo hhi => ?_, fun k s hlo hk => ?_,
    fun k s hlo hk => ?_, fun k hlo hhi => ?_, hlogs⟩
  · exact hhead.trans (h.head.trans (by rw [hcompleted]))
  · show logs.reclaimed ≤ ring.completed
    rw [hreclaimed, hcompleted]
    exact h.released
  · show ring.completed ≤ logs.posted
    rw [hposted, hcompleted]
    exact h.posted
  · dsimp only at hlo hhi ⊢
    rw [hreclaimed] at hlo
    rw [hposted] at hhi
    rw [hdescs, hcompleted]
    exact h.owned k hlo hhi
  · dsimp only at hlo hhi ⊢
    rw [hreclaimed] at hhi
    rw [hposted] at hlo
    rw [hdescs]
    exact h.zero k hlo hhi
  · dsimp only at hlo hk ⊢
    rw [hreclaimed] at hlo
    rw [hslots] at hk
    rw [hdescs]
    exact h.last k s hlo hk
  · dsimp only at hlo hk ⊢
    rw [hreclaimed] at hlo
    rw [hslots] at hk
    exact hheld k s hlo hk
  · dsimp only at hlo hhi ⊢
    rw [hreclaimed] at hhi
    rw [hposted] at hlo
    exact hloose k hlo hhi

/-- A packet that cannot be mapped leaves nothing that matters. -/
theorem TxChannel.Books.unmapped (h : ch.Books)
    (hheaders : skb.HeadersLinear)
    (hroom : ¬ (ch.ring.prepTxPkt skb).descCount > ch.ring.availDesc)
    (hmap : TxRing.mapTxSkb env.dma skb ch.logs
      { ch.ring with pktInfo := ch.ring.prepared skb }
      = (logs, ring, false)) :
    TxChannel.Books { ch with ring := ring, logs := logs } := by
  have hfits := h.ring.room hheaders hroom
  have hordered := h.ring.ordered
  obtain ⟨hkept, hbeside⟩ := mapTxSkb_kept ch.logs ch.ring hmap.symm
  have hfew := length_newMaps_le env.dma skb 0 skb.layout
  obtain ⟨-, hlogs, hdatas⟩ :=
    mapTxSkb_rolled h.ring.sized (by omega) rfl hmap
  generalize newMaps env.dma skb 0 skb.layout = maps at *
  generalize hused : skb.contextCount ch.ring + maps.length = used at *
  have hrolled : ch.ring.rolled used ≤ used := by
    unfold TxRing.rolled
    split
    · exact Nat.le_refl used
    · exact Nat.zero_le used
  have hwindow : ∀ j, ch.ring.datas ch.ring.cur.toNat j
      = ch.ring.descDataHead ((ch.logs.posted + j) % 4096) := fun j =>
    congrArg ch.ring.descDataHead (h.ring.window j)
  have hview : ∀ j, j < 4096 →
      ring.descDataHead ((ch.logs.posted + j) % 4096)
        = if j < ch.ring.rolled used then
            (ch.ring.walked skb ch.logs.maps.length maps j).cleared
          else ch.ring.walked skb ch.logs.maps.length maps j :=
    fun j hj => by
      rw [← hdatas j hj]
      exact congrArg ring.descDataHead (h.ring.window j).symm
  have hwalked : ∀ j, ch.logs.posted + j < ch.logs.reclaimed + 4096 →
      (ch.logs.mapped maps).Loose
        (ch.ring.walked skb ch.logs.maps.length maps j) := fun j hj => by
    unfold TxRing.walked
    rw [hwindow]
    exact (h.loose _ (Nat.le_add_right _ _) hj).after h.logs _ _ _
  have haccepted := congrArg TxLogs.accepted hbeside
  have hreclaimed := congrArg TxLogs.reclaimed hbeside
  refine h.refilled hkept haccepted hreclaimed (fun k s hlo hk => ?_)
    (fun k hlo hhi => ?_) ?_
  · obtain ⟨j, hmj, hj, hentry⟩ := old_entry hfits hlo (lt_posted hk)
    have hheld : (ch.logs.mapped maps).Holds s _ :=
      (h.held k s hlo hk).mapped
    rw [hentry] at hheld ⊢
    rw [hview j hj, if_neg (by omega), TxRing.walked,
      after_behind _ _ (by omega), hwindow, hlogs]
    exact ⟨hheld.skb, hheld.bytes, hheld.context, hheld.mapping⟩
  · obtain ⟨j, rfl⟩ := Nat.exists_eq_add_of_le hlo
    have hloose := hwalked j hhi
    rw [hview j (by omega), hlogs]
    split
    · refine ⟨rfl, fun u hu => ?_⟩
      rw [unmapCalls_cleared] at hu
      exact absurd hu List.not_mem_nil
    · exact ⟨hloose.skb, hloose.foreign⟩
  · rw [hlogs]
    refine h.logs.rolledBack fun d hd => ?_
    obtain ⟨j, hj, rfl⟩ := List.mem_map.1 hd
    have hbound := List.mem_range'_1.1 hj
    exact hwalked j (by omega)

theorem skb_after (d : TxDescData) (a n : Nat) (maps : List TxMapping)
    (j : Nat) : (d.after a n maps j).skb = d.skb := by
  unfold TxDescData.after
  split
  · split
    · rfl
    · rfl
  · rfl

/-- The entries of a packet hold what its descriptors stand for. -/
theorem TxChannel.Chained.holds {m : Nat} {maps : List TxMapping}
    (h : ch.Chained skb ring m maps) (hm : m ≤ 4096)
    (hloose : ∀ j, j < m →
      ch.logs.Loose (ch.ring.datas ch.logs.posted j))
    (hsound : ∀ i (hi : i < maps.length), maps[i].dma ≠ 0
      ∧ (maps[i].piece.src = .linear → (ch.ring.datas ch.logs.posted
        (skb.contextCount ch.ring + i)).mappedAsPage = false))
    {j : Nat} (hj : j < m) :
    (ch.logs.accept (ch.noted skb m maps) maps).Holds
      ((ch.noted skb m maps).slot j)
      ((ring.devXmit ch.txFrames).datas ch.logs.posted j) := by
  have hcount := h.count
  have hctx : (ch.noted skb m maps).contextCount
      = skb.contextCount ch.ring := by
    show m - maps.length = _
    omega
  have hlast : ((ch.noted skb m maps).slot j).last
      = decide (j + 1 = m) := rfl
  have hfree := hloose j hj
  rw [h.datas j (by omega), h.entries j (by omega)]
  generalize hd : ch.ring.datas ch.logs.posted j = d at *
  have hskb := skb_after d (skb.contextCount ch.ring) ch.logs.maps.length
    maps j
  rw [hfree.skb] at hskb
  -- the last entry is told of the packet, its mapping is the same
  have hcalls : ∀ e : TxDescData, (if j + 1 = m then
        { (if j + 1 = m then { e with skb := some skb.id } else e) with
          packets := ring.pktInfo.txPackets
          bytes := (ch.ring.prepared skb).txBytes }
      else if j + 1 = m then { e with skb := some skb.id }
      else e).unmapCalls = e.unmapCalls := fun e => by
    split
    · rfl
    · rfl
  refine ⟨?_, fun hyes => ?_, fun hnone u hu => ?_, fun n hn => ?_⟩
  · rw [hlast]
    by_cases hjm : j + 1 = m
    · rw [if_pos hjm, if_pos hjm, if_pos (decide_eq_true hjm)]
      rfl
    · rw [if_neg hjm, if_neg hjm, if_neg (by simpa using hjm)]
      exact hskb
  · rw [hlast, decide_eq_true_iff] at hyes
    rw [if_pos hyes]
    rfl
  · rw [hcalls] at hu
    have hbefore : j < skb.contextCount ch.ring := by
      by_contra hnot
      have hmapping : ((ch.noted skb m maps).slot j).mapping
          = some _ := if_neg (by rw [hctx]; exact hnot)
      rw [hmapping] at hnone
      cases hnone
    rw [after_before _ _ _ hbefore] at hu
    exact (hfree.foreign u hu).accept rfl (by show maps.length ≤ m; omega)
  · obtain ⟨hle, rfl⟩ := slot_mapping hn
    rw [hctx] at hle ⊢
    obtain ⟨i, rfl⟩ := Nat.exists_eq_add_of_le hle
    have hi : i < maps.length := by omega
    obtain ⟨haddr, hkind⟩ := hsound i hi
    rw [Nat.add_sub_cancel_left]
    refine ⟨maps[i], ?_, ?_⟩
    · show (ch.logs.maps ++ maps)[ch.logs.maps.length + i]? = _
      rw [List.getElem?_append_right (Nat.le_add_right _ _),
        Nat.add_sub_cancel_left, List.getElem?_eq_getElem hi]
    · rw [hcalls, after_at _ _ _ hi, unmapCalls_holding, if_pos haddr,
        kind_iff.2 (fun hsrc => hd ▸ hkind hsrc)]
      rfl

/-- A chain of `m` descriptors joins the ring, and behind it nothing
changes. -/
structure TxChannel.Appends (ch ch' : TxChannel) (m : Nat) : Prop where
  head : ch'.ring.head = ch.ring.head
  completed : ch'.ring.completed = ch.ring.completed
  descs : ∀ j, m ≤ j → j < 4096 →
    ch'.ring.dmaDescs ((ch.logs.posted + j) % 4096)
      = ch.ring.dmaDescs ((ch.logs.posted + j) % 4096)
  datas : ∀ j, m ≤ j → j < 4096 →
    ch'.ring.descDataHead ((ch.logs.posted + j) % 4096)
      = ch.ring.descDataHead ((ch.logs.posted + j) % 4096)
  own : ∀ j, j < m →
    (ch'.ring.dmaDescs ((ch.logs.posted + j) % 4096)).own = true
  last : ∀ j, j < m →
    (ch'.ring.dmaDescs ((ch.logs.posted + j) % 4096)).isLast
      = decide (j + 1 = m)

theorem TxChannel.Chained.appends {m : Nat} {maps : List TxMapping}
    (h : ch.Chained skb ring m maps) (hring : ch.RingInv)
    (hkept : ring.besideMap = ch.ring.besideMap)
    (hdescribes : ch.Describes (ch.sent skb logs ring) skb m maps) :
    ch.Appends (ch.sent skb logs ring) m := by
  have hframe := devXmit_frame ch.txFrames ring
  have hhead := congrArg TxRing.head hkept
  have hcompleted := congrArg TxRing.completed hkept
  refine ⟨(congrArg (fun f => f.2.2.2.1) hframe).trans hhead,
    (congrArg (fun f => f.2.2.2.2) hframe).trans hcompleted,
    fun j hmj hj => ?_, fun j hmj hj => ?_, fun j hj => ?_,
    fun j hj => ?_⟩
  · exact (h.descs j hj).trans (if_neg (by omega))
  · refine (h.datas j hj).trans ?_
    have hcount := h.count
    rw [if_neg (by omega), h.entries j hj, if_neg (by omega),
      after_behind _ _ (by omega)]
    rfl
  · rw [← hring.window j]
    exact congrArg Marks.own (hdescribes.marks j hj)
  · rw [← hring.window j]
    exact congrArg Marks.ld (hdescribes.marks j hj)

/-- The pieces of a packet that can be undone. -/
theorem TxChannel.Sound.pieces {m : Nat} {maps : List TxMapping}
    (h : ch.Sound env skb) (hring : ch.RingInv)
    (hchained : ch.Chained skb ring m maps)
    (hanswers : ∀ i (hi : i < maps.length),
      env.dma (0 + i) = some maps[i].dma ∧ maps[i].skb = skb.id)
    (i : Nat) (hi : i < maps.length) :
    maps[i].dma ≠ 0
      ∧ (maps[i].piece.src = .linear → (ch.ring.datas ch.logs.posted
        (skb.contextCount ch.ring + i)).mappedAsPage = false) := by
  obtain ⟨hanswer, -⟩ := hanswers i hi
  rw [Nat.zero_add] at hanswer
  have hlayout := congrArg List.length hchained.pieces
  rw [List.length_map] at hlayout
  have hpiece : skb.layout[i]? = some maps[i].piece := by
    rw [← hchained.pieces, List.getElem?_map, List.getElem?_eq_getElem hi]
    rfl
  refine ⟨fun hzero => h.address i (by omega) ?_, fun hsrc => ?_⟩
  · rw [hanswer, hzero]
  · have hkind := h.kind i maps[i].piece hpiece hsrc
    unfold TxRing.datas at hkind ⊢
    rw [hring.window] at hkind
    exact hkind

/-- A packet that is handed to the NIC is told and noted. -/
theorem TxChannel.Books.sent (h : ch.Books) (hlen : skb.len ≠ 0)
    (hheaders : skb.HeadersLinear)
    (hroom : ¬ (ch.ring.prepTxPkt skb).descCount > ch.ring.availDesc)
    (hsound : ch.Sound env skb)
    (hmap : TxRing.mapTxSkb env.dma skb ch.logs
      { ch.ring with pktInfo := ch.ring.prepared skb }
      = (logs, ring, true)) :
    (ch.sent skb logs ring).Books
      ∧ ∃ m maps, ch.Describes (ch.sent skb logs ring) skb m maps := by
  have hfits := h.ring.room hheaders hroom
  have hordered := h.ring.ordered
  have hpos := layout_pos hlen
  have hring := (h.ring.sent hlen hheaders hroom hmap).1
  have hdescribes := h.ring.describes hlen hheaders hsound.header h.zero
    hroom hmap
  have hchained := h.ring.chained hlen hheaders hroom hmap
  have hanswers := newMaps_answers hchained.pieces
  have hpieces := hsound.pieces h.ring hchained hanswers
  obtain ⟨hkept, -⟩ := mapTxSkb_kept ch.logs ch.ring hmap.symm
  have happends := hchained.appends h.ring hkept hdescribes
  have hlayout := congrArg List.length hchained.pieces
  rw [List.length_map] at hlayout
  refine ⟨?_, _, _, hdescribes⟩
  generalize skb.contextCount ch.ring + skb.layout.length = m at *
  generalize newMaps env.dma skb 0 skb.layout = maps at *
  have hcount := hchained.count
  have hfirst : (ch.noted skb m maps).firstMap = ch.logs.maps.length := rfl
  have hfew : maps.length ≤ m := by omega
  have hlogs := hdescribes.logs
  have hposted := posted_accept ch.logs (ch.noted skb m maps) maps
  change _ = ch.logs.posted + m at hposted
  refine ⟨hring, ?_, ?_, ?_, ?_, ?_, ?_, ?_, ?_, ?_⟩
  · rw [happends.head, happends.completed]
    exact h.head
  · rw [hlogs, happends.completed]
    exact h.released
  · have hbefore := h.posted
    rw [hlogs, happends.completed, hposted]
    omega
  · rw [hlogs, happends.completed, hposted]
    intro k hlo hhi
    rcases Nat.lt_or_ge k ch.logs.posted with hold | hnew
    · obtain ⟨j, hmj, hj, hentry⟩ := old_entry hfits hlo hold
      rw [hentry, happends.descs j hmj hj, ← hentry]
      exact h.owned k hlo hold
    · have hbefore := h.posted
      obtain ⟨j, rfl⟩ := Nat.exists_eq_add_of_le hnew
      rw [happends.own j (by omega), decide_eq_true (by omega)]
  · rw [hlogs, hposted]
    intro k hlo hhi
    change k < ch.logs.reclaimed + 4096 at hhi
    obtain ⟨j, rfl⟩ := Nat.exists_eq_add_of_le
      ((Nat.le_add_right _ m).trans hlo)
    rw [happends.descs j (by omega) (by omega)]
    exact h.zero _ (Nat.le_add_right _ _) hhi
  · rw [hlogs]
    intro k s hlo hk
    rcases slots_accept_cases hk with hold | ⟨j, hj, rfl, rfl⟩
    · obtain ⟨j, hmj, hj, hentry⟩ := old_entry hfits hlo (lt_posted hold)
      rw [hentry, happends.descs j hmj hj, ← hentry]
      exact h.last k s hlo hold
    · exact happends.last j hj
  · rw [hlogs]
    intro k s hlo hk
    rcases slots_accept_cases hk with hold | ⟨j, hj, rfl, rfl⟩
    · obtain ⟨j, hmj, hj, hentry⟩ := old_entry hfits hlo (lt_posted hold)
      rw [hentry, happends.datas j hmj hj, ← hentry]
      exact (h.held k s hlo hold).accept hfirst hfew
    · exact hchained.holds (by omega) (fun j' hj' =>
        h.loose _ (Nat.le_add_right _ _) (by omega)) hpieces hj
  · rw [hlogs, hposted]
    intro k hlo hhi
    change k < ch.logs.reclaimed + 4096 at hhi
    obtain ⟨j, rfl⟩ := Nat.exists_eq_add_of_le
      ((Nat.le_add_right _ m).trans hlo)
    rw [happends.datas j (by omega) (by omega)]
    exact (h.loose _ (Nat.le_add_right _ _) hhi).accept hfirst hfew
  · rw [hlogs]
    refine h.logs.accepted rfl rfl rfl (by show 0 < maps.length; omega)
      hfew (fun p hp => ?_) hordered
    obtain ⟨i, hi, rfl⟩ := List.getElem_of_mem hp
    exact (hanswers i hi).2

end Xmit

-- ================================================================== runs

/-- The accepted packets all of whose descriptors are reclaimed. -/
def TxLogs.done (logs : TxLogs) : List Accepted :=
  logs.accepted.filter fun a => a.start + a.descCount ≤ logs.reclaimed

/-- What is wanted of the logs: nothing is reclaimed before the NIC has
completed it; the packets that are done are freed and reported, each once
and in order, and no others; and of the mappings of accepted packets those
whose descriptors are reclaimed are undone, each by one call. -/
structure TxChannel.Settled (ch : TxChannel) : Prop where
  released : ch.logs.reclaimed ≤ ch.ring.completed
  freed : ch.logs.freed = ch.logs.done.map (·.skb)
  completed : ch.logs.completedBytes = ch.logs.done.map (·.bytes)
  sent : ch.logs.sentBytes = ch.logs.accepted.map (·.bytes)
  undone : ∀ a ∈ ch.logs.accepted, ∀ i, i < a.mapCount →
    ∃ m, ch.logs.maps[a.firstMap + i]? = some m ∧ m.skb = a.skb
      ∧ ch.logs.unmaps.filter (fun u => u.mapping = some (a.firstMap + i))
        = if a.start + (a.contextCount + i) < ch.logs.reclaimed then
            [m.undo (a.firstMap + i)]
          else []

/-- What is wanted of a call: the chain of a packet that is accepted
describes it, and a poll reclaims what the NIC has completed, up to
`MAC_TX_DESC_MAX_PROC`. -/
def TxChannel.Tells (ch : TxChannel) : ChannelAct → Prop
  | .xmit env skb =>
      (ch.xmit env skb).logs.accepted ≠ ch.logs.accepted →
        ∃ m maps, ch.Describes (ch.xmit env skb) skb m maps
  | .poll => ch.poll.logs.reclaimed
      = min ch.ring.completed (ch.logs.reclaimed + txDescMaxProc)
  | .complete _ => True

/-- The packet, if it is accepted, can be told and undone. -/
def TxChannel.SoundAct (ch : TxChannel) : ChannelAct → Prop
  | .xmit env skb => ch.Accepts env skb → ch.Sound env skb
  | .poll => True
  | .complete _ => True

section Runs

variable {ch : TxChannel}

theorem TxChannel.Books.settled (h : ch.Books) : ch.Settled := by
  have hlogs := h.logs
  have hdone : ch.logs.lasts
      = ch.logs.done.map fun a => (a.skb, a.bytes) :=
    hlogs.placed.whole ch.logs.reclaimed
  refine ⟨h.released, ?_, ?_, hlogs.sent, fun a ha i hi => ?_⟩
  · rw [hlogs.freed, hdone, List.map_map]
    rfl
  · rw [hlogs.completed, hdone, List.map_map]
    rfl
  · have hctx : a.contextCount = a.descCount - a.mapCount := rfl
    have hle := hlogs.placed.count ha
    obtain ⟨-, hat⟩ := hlogs.placed.slot_at ha
      (show a.contextCount + i < a.descCount by omega)
    have hmapping : (a.slot (a.contextCount + i)).mapping
        = some (a.firstMap + i) := by
      refine (if_neg (by omega)).trans ?_
      rw [Nat.add_sub_cancel_left]
    obtain ⟨m, hm, howner, hfilter⟩ := hlogs.undone _ _ _ hat hmapping
    exact ⟨m, hm, howner, hfilter⟩

/-- Every call keeps the books. -/
theorem TxChannel.Books.step (h : ch.Books) {act : ChannelAct}
    (hheaders : act.HeadersLinear) (hsound : ch.SoundAct act) :
    (ch.step act).Books ∧ ch.Tells act := by
  cases act with
  | xmit env skb =>
    unfold TxChannel.Tells TxChannel.step
    dsimp only
    have hcase := xmit_cases env skb ch
    generalize ch.xmit env skb = out at hcase ⊢
    generalize ch.xmitRet env skb = ret at hcase
    cases hcase with
    | linkDown _ => exact ⟨h, fun hne => absurd rfl hne⟩
    | empty _ => exact ⟨h.free skb, fun hne => absurd rfl hne⟩
    | full _ _ => exact ⟨h.flags rfl rfl, fun hne => absurd rfl hne⟩
    | noHeader _ =>
      have hflags : TxChannel.Books { ch with ring := { ch.ring with
          pktInfo := ch.ring.prepTxPkt skb } } := h.flags rfl rfl
      exact ⟨hflags.free skb, fun hne => absurd rfl hne⟩
    | @unmapped logs ring _ hroom hmap =>
      obtain ⟨-, hbeside⟩ := mapTxSkb_kept ch.logs ch.ring hmap.symm
      have haccepted := congrArg TxLogs.accepted hbeside
      exact ⟨(h.unmapped hheaders hroom hmap).free skb,
        fun hne => absurd haccepted hne⟩
    | @sent logs ring hlink hlen hcow hroom hmap =>
      have hfits := h.ring.room hheaders hroom
      have hordered := h.ring.ordered
      obtain ⟨hpieces, -, -⟩ :=
        mapTxSkb_maps hlen h.ring.sized h.ring.cur (by omega) hmap
      obtain ⟨hbooks, m, maps, hdescribes⟩ := h.sent hlen hheaders hroom
        (hsound (accepts_of_mapped hlink hlen hcow hroom hpieces)) hmap
      obtain ⟨hring, hlogs⟩ :=
        maybeStop_flags (ch.sent skb logs ring) txMaxDescNr
      exact ⟨hbooks.flags hring hlogs,
        fun _ => ⟨m, maps, hdescribes.maybeStop txMaxDescNr⟩⟩
  | poll =>
    obtain ⟨hbooks, hcount⟩ := h.pollLoop txDescMaxProc 0
    obtain ⟨hring, hlogs⟩ := poll_flags ch
    refine ⟨hbooks.flags hring hlogs, ?_⟩
    show ch.poll.logs.reclaimed = _
    rw [hlogs]
    exact hcount
  | complete back => exact ⟨h.complete back, trivial⟩

theorem TxChannel.books_fresh (txFrames : U32) :
    (TxChannel.fresh txFrames).Books := by
  have hnone : ∀ (k : Nat) (s : TxSlot),
      ¬ (TxChannel.fresh txFrames).logs.slots[k]? = some s :=
    fun k s hk => absurd (lt_posted hk) (Nat.not_lt_zero k)
  refine ⟨TxChannel.ringInv_fresh txFrames, rfl, Nat.le_refl 0,
    Nat.le_refl 0, fun k _ hhi => absurd hhi (Nat.not_lt_zero k),
    fun _ _ _ => rfl, fun k s _ hk => absurd hk (hnone k s),
    fun k s _ hk => absurd hk (hnone k s), fun _ _ _ => ?_, ?_⟩
  · exact ⟨rfl, fun u hu => absurd hu List.not_mem_nil⟩
  · exact ⟨trivial, fun s hs => absurd hs List.not_mem_nil, .nil,
      fun u hu => absurd hu List.not_mem_nil,
      fun k s _ hk => absurd hk (hnone k s), rfl, rfl, rfl⟩

/-- Over every run whose accepted packets can be told and undone, the
chains describe the packets and the packets are settled. -/
theorem chains_settle (txFrames : U32) (acts : List ChannelAct)
    (hheaders : ∀ act ∈ acts, act.HeadersLinear)
    (hsound : Run.Each TxChannel.step TxChannel.SoundAct
      (.fresh txFrames) acts) :
    Run.Each TxChannel.step TxChannel.Tells (.fresh txFrames) acts
      ∧ Run.Always TxChannel.step TxChannel.Settled (.fresh txFrames)
        acts := by
  have hboth := (Run.each_of_forall_mem hheaders _).and hsound
  have hstart := TxChannel.books_fresh txFrames
  constructor
  · exact hboth.each_of_inv (fun _ _ h hact => (h.step hact.1 hact.2).1)
      hstart fun _ _ h hact => (h.step hact.1 hact.2).2
  · exact (hboth.always (fun _ _ h hact => (h.step hact.1 hact.2).1)
      hstart).mono fun _ h => h.settled

/-- The tagged packet is sent, its six entries are completed one after the
other, and it is reclaimed. -/
def tsoRound : List ChannelAct :=
  .xmit ⟨true, true, fun _ => some 0x1000⟩ taggedTso
    :: (List.replicate 6 (.complete .zero) ++ [.poll])

theorem chains_settle_once :
    Run.Each TxChannel.step TxChannel.Tells (.fresh 0) tsoRound
      ∧ Run.Always TxChannel.step TxChannel.Settled (.fresh 0)
        tsoRound := by
  refine chains_settle 0 _ (fun act hact => ?_) ?_
  · rw [tsoRound, List.mem_cons, List.mem_append, List.mem_replicate,
      List.mem_singleton] at hact
    rcases hact with rfl | ⟨-, rfl⟩ | rfl
    · exact headersLinear_taggedTso
    · trivial
    · trivial
  · refine ⟨fun _ => ⟨fun _ => by decide, ?_, ?_⟩, trivial, trivial, trivial,
      trivial, trivial, trivial, trivial, trivial⟩
    · exact fun _ _ => show some (0x1000 : U64) ≠ some 0 by decide
    · exact fun _ _ _ _ => rfl

/-- A packet of one byte. -/
def oneByte : Skb where
  id := 0
  len := 1
  headlen := 1
  frags := []
  csumPartial := false
  gsoSize := 0
  gsoSegs := 0
  vlanTag := none
  transportOffset := 0
  tcpHdrlen := 0
  frags_le := by decide
  len_eq := by decide

/-- The packet is sent, completed and reclaimed. -/
def oneRound (addr : U64) : List ChannelAct :=
  [.xmit ⟨true, true, fun _ => some addr⟩ oneByte, .complete .zero, .poll]

theorem headersLinear_oneRound (addr : U64) :
    ∀ act ∈ oneRound addr, act.HeadersLinear := by
  rw [oneRound]
  simp only [List.forall_mem_cons]
  exact ⟨fun htso => absurd htso (by decide), trivial, trivial,
    fun _ hnone => absurd hnone List.not_mem_nil⟩

/-- A mapping at address 0 is never undone. -/
theorem zero_address_leaks :
    (∀ act ∈ oneRound 0, act.HeadersLinear)
      ∧ ¬ Run.Always TxChannel.step TxChannel.Settled (.fresh 0)
        (oneRound 0) := by
  refine ⟨headersLinear_oneRound 0, fun halways => ?_⟩
  have hend : (Run.exec TxChannel.step (.fresh 0) (oneRound 0)).logs
      = ⟨[⟨0, ⟨.linear, 0, 1⟩, 0⟩], [], [0], [], [⟨0, 0, 1, 0, 1, 1⟩], 1,
        [1], [1]⟩ := by decide +kernel
  have hsettled := halways.last.undone
  rw [hend] at hsettled
  obtain ⟨m, -, -, hfilter⟩ :=
    hsettled _ List.mem_cons_self 0 (by decide)
  rw [List.filter_nil, if_pos (by decide)] at hfilter
  cases hfilter

end Runs

end BxRnic.Mac
