/-
When `mac_all_poll` completes NAPI, what has it left?

The count of received packets ends the call: in a pass that receives
nothing every receive ring has been followed to a descriptor the NIC has
not completed, since no budget of a ring was 0. The count of reclaimed
descriptors does not: a visit reclaims `MAC_TX_DESC_MAX_PROC` at most,
and the last pass may leave the rest (`all_poll_sound_iff`,
`tx_ring_left_behind`).
-/
import BxRnic.Mac.AllPoll
import BxRnic.Mac.Proofs.TxOwner
import BxRnic.Mac.Proofs.RxReassembly

namespace BxRnic.Mac

-- ============================================================== receiving

section Receive

variable {env : RxEnv} {budget : Nat} {st : RxPoll}

theorem gather_packetCount (env : RxEnv) (st : RxPoll) (entry : RxEntry) :
    (st.gather env entry).1.packetCount = st.packetCount := by
  unfold RxPoll.gather
  dsimp only
  split
  · rfl
  · split
    · rfl
    · rfl

theorem finish_packetCount (env : RxEnv) (st : RxPoll) :
    (st.finish env).packetCount = st.packetCount := by
  unfold RxPoll.finish
  split
  · rfl
  · split
    · rfl
    · rfl

/-- Packets are counted by the loop alone. -/
theorem take_packetCount (env : RxEnv) (st : RxPoll) (entry : RxEntry) :
    (st.take env entry).2.packetCount = st.packetCount := by
  unfold RxPoll.take
  dsimp only
  split
  · rfl
  · split
    · rfl
    · split
      · split
        · rfl
        · exact gather_packetCount env _ _
      · split
        · exact finish_packetCount env _
        · exact (finish_packetCount env _).trans
            (gather_packetCount env _ _)

/-- The first entry is one that the NIC has not completed. -/
def RxView.Idle (ring : RxView) : Prop :=
  ∃ e, ring.entries.head? = some e ∧ e.dmaDesc.own = true

/-- How the loop of `mac_rx_poll` ends: with its budget used up, or at a
descriptor that the NIC has not completed. -/
theorem loop_ends (env : RxEnv) {entries : List RxEntry}
    (hlt : st.packetCount < budget)
    (hstops : ∃ e ∈ entries, e.dmaDesc.own = true) :
    (st.loop env budget entries).1.packetCount ≤ budget
      ∧ ((st.loop env budget entries).1.packetCount < budget →
        ∃ e, (st.loop env budget entries).2.head? = some e
          ∧ e.dmaDesc.own = true) := by
  induction entries generalizing st with
  | nil =>
    obtain ⟨e, hmem, -⟩ := hstops
    exact absurd hmem List.not_mem_nil
  | cons entry entries ih =>
    rw [RxPoll.loop]
    split
    · next hown => exact ⟨hlt.le, fun _ => ⟨entry, rfl, hown⟩⟩
    · next hown =>
      have hrest := stops_tail hstops hown
      have hcount := take_packetCount env st entry
      split
      · next st' htake =>
        rw [htake] at hcount
        exact ih (hcount.trans_lt hlt) hrest
      · next st' htake =>
        rw [htake] at hcount
        change st'.packetCount = st.packetCount at hcount
        dsimp only
        split
        · next hmore => exact ih hmore hrest
        · next hfull =>
          refine ⟨?_, fun hless => absurd hless hfull⟩
          show st'.packetCount + 1 ≤ budget
          omega

/-- A poll that does not use up its budget leaves the ring idle. -/
theorem macRxPoll_ends (env : RxEnv) (budget : Nat) {ring : RxView}
    (hstops : ∃ e ∈ ring.entries, e.dmaDesc.own = true) :
    (macRxPoll env ring budget).1.packetCount ≤ budget
      ∧ ((macRxPoll env ring budget).1.packetCount < budget →
        (macRxPoll env ring budget).2.Idle) := by
  have hturns : (rxTurns env ring budget).1.packetCount ≤ budget
      ∧ ((rxTurns env ring budget).1.packetCount < budget →
        ∃ e, (rxTurns env ring budget).2.head? = some e
          ∧ e.dmaDesc.own = true) := by
    rcases rxTurns_cases env ring budget with
      ⟨hzero, heq⟩ | ⟨hpos, st, hcount, heq⟩
    · rw [heq, hzero]
      exact ⟨le_rfl, fun hlt => absurd hlt (Nat.lt_irrefl 0)⟩
    · rw [heq]
      exact loop_ends env (hcount ▸ hpos) hstops
  unfold RxView.Idle macRxPoll
  generalize rxTurns env ring budget = turns at hturns
  obtain ⟨st, entries⟩ := turns
  refine ⟨hturns.1, fun hless => ?_⟩
  obtain ⟨e, hhead, hown⟩ := hturns.2 hless
  cases entries with
  | nil => cases hhead
  | cons entry entries =>
    cases hhead
    refine ⟨st.save e, rfl, ?_⟩
    rw [save_dmaDesc]
    exact hown

end Receive

-- ============================================================ reclaiming

/-- Whether the NIC has yet to complete the `k`-th entry from `dirty`
on. -/
def TxRing.ownAt (ring : TxRing) (k : Nat) : Bool :=
  (ring.dmaDescs (ring.entry (ring.dirty + BitVec.ofNat 32 k))).own

/-- No completed entry is left behind. -/
def TxRing.Clean (ring : TxRing) : Prop :=
  ∀ k < ring.used, ring.ownAt k = true

/-- The completed entries are the oldest ones, and `n` at most. -/
def TxRing.DoneWithin (ring : TxRing) (n : Nat) : Prop :=
  ∃ d ≤ n, ∀ k < ring.used, (ring.ownAt k = false ↔ k < d)

/-- The `m` oldest entries, which were completed, have been reclaimed. -/
structure TxRing.Cleaned (ring ring' : TxRing) (m : Nat) : Prop where
  le : m ≤ ring.used
  used : ring'.used = ring.used - m
  own : ∀ k, ring'.ownAt k = ring.ownAt (m + k)
  done : ∀ k < m, ring.ownAt k = false

section Reclaim

variable {ch : TxChannel} {ring ring' : TxRing} {m n : Nat}

theorem cleaned_zero (ring : TxRing) : ring.Cleaned ring 0 where
  le := Nat.zero_le _
  used := rfl
  own k := by rw [Nat.zero_add]
  done k hk := absurd hk (Nat.not_lt_zero k)

theorem ownAt_zero (ring : TxRing) :
    ring.ownAt 0 = (ring.dmaDescs (ring.entry ring.dirty)).own := by
  unfold TxRing.ownAt
  rw [BitVec.add_zero]

/-- Reclaiming an entry gives none back to the NIC. -/
theorem reclaim_ownAt (hown : ch.ring.ownAt 0 = false) (k : Nat) :
    ch.reclaim.ring.ownAt k = ch.ring.ownAt (k + 1) := by
  have hdirty : ch.ring.dirty + 1 + BitVec.ofNat 32 k
      = ch.ring.dirty + BitVec.ofNat 32 (k + 1) := by
    rw [Nat.add_comm k 1, BitVec.ofNat_add, BitVec.add_assoc]
    rfl
  have hindex : ch.reclaim.ring.entry
        (ch.reclaim.ring.dirty + BitVec.ofNat 32 k)
      = ch.ring.entry (ch.ring.dirty + BitVec.ofNat 32 (k + 1)) := by
    rw [← hdirty]
    rfl
  rw [ownAt_zero] at hown
  unfold TxRing.ownAt
  rw [hindex, reclaim_descs]
  generalize ch.ring.entry (ch.ring.dirty + BitVec.ofNat 32 (k + 1)) = i
  by_cases hi : i = ch.ring.entry ch.ring.dirty
  · rw [hi, Function.update_self, hown]
    rfl
  · rw [Function.update_of_ne hi]

/-- One more entry is reclaimed before the others. -/
theorem TxRing.Cleaned.cons (hmore : ch.ring.dirty ≠ ch.ring.cur)
    (hown : ch.ring.ownAt 0 = false)
    (h : ch.reclaim.ring.Cleaned ring' m) :
    ch.ring.Cleaned ring' (m + 1) := by
  have hless : ch.reclaim.ring.used = ch.ring.used - 1 := used_succ hmore
  have hpos : ch.ring.used ≠ 0 := fun hzero => hmore (dirty_of_used hzero)
  have hle := h.le
  refine ⟨by omega, by rw [h.used]; omega, fun k => ?_, fun k hk => ?_⟩
  · rw [h.own, reclaim_ownAt hown, Nat.add_right_comm]
  · cases k with
    | zero => exact hown
    | succ k =>
      rw [← reclaim_ownAt hown]
      exact h.done k (by omega)

/-- Why the loop of `mac_tx_poll` stops: at its bound, at the index or at
an entry that the NIC has not completed. -/
theorem pollLoop_cleaned (left processed : Nat) (ch : TxChannel) :
    ∃ m ≤ left,
      ch.ring.Cleaned (ch.pollLoop ch.ring.cur left processed).2.ring m
        ∧ (m = left ∨ m = ch.ring.used ∨ ch.ring.ownAt m = true) := by
  induction left generalizing ch processed with
  | zero => exact ⟨0, le_rfl, cleaned_zero _, Or.inl rfl⟩
  | succ left ih =>
    rw [pollLoop_succ]
    split
    · next hsame =>
      refine ⟨0, Nat.zero_le _, cleaned_zero _, Or.inr (Or.inl ?_)⟩
      unfold TxRing.used
      rw [hsame, BitVec.sub_self]
      rfl
    · next hmore =>
      rw [← ownAt_zero]
      split
      · next hown =>
        exact ⟨0, Nat.zero_le _, cleaned_zero _, Or.inr (Or.inr hown)⟩
      · next hown =>
        have hdone := Bool.of_not_eq_true hown
        obtain ⟨m, hm, hcleaned, hstop⟩ := ih (processed + 1) ch.reclaim
        have hless : ch.reclaim.ring.used = ch.ring.used - 1 :=
          used_succ hmore
        have hpos : ch.ring.used ≠ 0 := fun hzero =>
          hmore (dirty_of_used hzero)
        refine ⟨m + 1, Nat.succ_le_succ hm,
          TxRing.Cleaned.cons hmore hdone hcleaned, ?_⟩
        rw [reclaim_ownAt hdone] at hstop
        rcases hstop with hbound | hindex | hnic
        · exact Or.inl (by omega)
        · exact Or.inr (Or.inl (by omega))
        · exact Or.inr (Or.inr hnic)

/-- What the loop leaves is clean if it was not its bound that stopped
it. -/
theorem TxRing.Cleaned.clean_iff (h : ring.Cleaned ring' m) (hm : m ≤ n)
    (hstop : m = n ∨ m = ring.used ∨ ring.ownAt m = true) :
    ring'.Clean ↔ ring.DoneWithin n := by
  have hused := h.used
  constructor
  · intro hclean
    refine ⟨m, hm, fun k hk => ⟨fun hdone => ?_, h.done k⟩⟩
    by_contra hge
    have hown := hclean (k - m) (by omega)
    rw [h.own, Nat.add_sub_cancel' (Nat.le_of_not_lt hge), hdone] at hown
    exact Bool.false_ne_true hown
  · rintro ⟨d, hd, hiff⟩ k hk
    rw [h.own]
    by_contra hown
    have hdone := (hiff (m + k) (by omega)).1 (Bool.of_not_eq_true hown)
    rcases hstop with hbound | hindex | hnic
    · omega
    · omega
    · have hfirst := (hiff m (by omega)).2 (by omega)
      rw [hnic] at hfirst
      exact Bool.noConfusion hfirst

/-- The flags of a ring say nothing about its descriptors. -/
theorem clean_flags (h : ring.besideFlags = ring'.besideFlags) :
    ring.Clean ↔ ring'.Clean := by
  change ring.besideFlags.Clean ↔ ring'.besideFlags.Clean
  rw [h]

/-- `mac_tx_poll` leaves no completed entry behind exactly if it finds no
more of them than it may reclaim. -/
theorem txPoll_clean_iff (ch : TxChannel) :
    ch.poll.ring.Clean ↔ ch.ring.DoneWithin txDescMaxProc := by
  obtain ⟨m, hm, hcleaned, hstop⟩ := pollLoop_cleaned txDescMaxProc 0 ch
  exact (clean_flags (poll_flags ch).1).trans
    (hcleaned.clean_iff hm hstop)

end Reclaim

-- =============================================================== a visit

/-- The receive ring is at a descriptor that the NIC has not completed. -/
def PollChannel.RxIdle (ch : PollChannel) : Prop :=
  ∀ ring ∈ ch.rx, ring.Idle

/-- The transmit ring has no completed entry. -/
def PollChannel.TxClean (ch : PollChannel) : Prop :=
  ∀ tx ∈ ch.tx, tx.ring.Clean

/-- The transmit ring has no more completed entries than a visit may
reclaim, and no other behind them. -/
def PollChannel.TxFits (ch : PollChannel) : Prop :=
  ∀ tx ∈ ch.tx, tx.ring.DoneWithin txDescMaxProc

section Visit

variable {nic : Nat → PollChannel → PollChannel} {budget start : Nat}
  {st : AllPoll}

theorem rxPoll_tx (ch : PollChannel) (budget : Nat) :
    (ch.rxPoll budget).2.tx = ch.tx := by
  unfold PollChannel.rxPoll
  split
  · rfl
  · rfl

theorem rxPoll_ends (ch : PollChannel) (budget : Nat) :
    (ch.rxPoll budget).1 ≤ budget
      ∧ ((ch.rxPoll budget).1 < budget →
        (ch.rxPoll budget).2.RxIdle) := by
  unfold PollChannel.rxPoll PollChannel.RxIdle
  split
  · next hnone =>
    refine ⟨Nat.zero_le _, fun _ ring hring => ?_⟩
    change ring ∈ ch.rx at hring
    rw [hnone] at hring
    cases hring
  · next found _ =>
    obtain ⟨hle, hidle⟩ := macRxPoll_ends ch.env budget found.stops
    refine ⟨hle, fun hless ring hring => ?_⟩
    cases hring
    exact hidle hless

theorem visit_clean_iff (ch : PollChannel) (budget : Nat) :
    (ch.txPoll.rxPoll budget).2.TxClean ↔ ch.TxFits := by
  unfold PollChannel.TxClean PollChannel.TxFits
  rw [rxPoll_tx]
  unfold PollChannel.txPoll
  cases ch.tx with
  | none =>
    exact iff_of_true (fun tx htx => by cases htx)
      (fun tx htx => by cases htx)
  | some tx =>
    constructor
    · intro hclean tx' htx'
      cases htx'
      exact (txPoll_clean_iff tx).1 (hclean _ rfl)
    · intro hfits tx' htx'
      cases htx'
      exact (txPoll_clean_iff tx).2 (hfits _ rfl)

/-- What holds within a pass that began with `start` packets received. -/
structure AllPoll.Inv (budget start : Nat) (st : AllPoll) : Prop where
  start_le : start ≤ st.processed
  processed_le : st.processed ≤ budget
  /-- While packets may be received, every ring may receive one. -/
  pos : st.processed < budget → 0 < st.ringBudget
  idle : st.processed = start → start < budget →
    ∀ ch ∈ st.left, ch.RxIdle
  clean :
    (∀ ch ∈ st.left, ch.TxClean) ↔ ∀ ch ∈ st.found, ch.TxFits

theorem AllPoll.Inv.visit (h : st.Inv budget start) (ch : PollChannel) :
    (st.visit nic budget ch).Inv budget start := by
  obtain ⟨hstart, hle, hpos, hidle, hclean⟩ := h
  unfold AllPoll.visit
  dsimp only
  generalize hring : (if st.ringBudget > budget - st.processed then
    budget - st.processed else st.ringBudget) = ringBudget
  have hleft : ringBudget ≤ budget - st.processed := by
    rw [← hring]
    split <;> omega
  have hring_pos : st.processed < budget → 0 < ringBudget := fun hlt => by
    have := hpos hlt
    rw [← hring]
    split <;> omega
  obtain ⟨hcount, hends⟩ :=
    rxPoll_ends (nic st.visits ch).txPoll ringBudget
  have hone := visit_clean_iff (nic st.visits ch) ringBudget
  generalize (nic st.visits ch).txPoll.rxPoll ringBudget = out at *
  obtain ⟨count, ch'⟩ := out
  refine ⟨?_, ?_, ?_, ?_, ?_⟩
  · exact hstart.trans (Nat.le_add_right _ _)
  · show st.processed + count ≤ budget
    omega
  · intro hlt
    exact hring_pos (by dsimp only at hlt; omega)
  · intro heq hlt ch'' hmem
    dsimp only at heq hcount hends
    rcases List.mem_append.1 hmem with hold | hnew
    · exact hidle (by omega) hlt ch'' hold
    · rw [List.mem_singleton.1 hnew]
      have := hring_pos (by omega)
      exact hends (by omega)
  · rw [List.forall_mem_append, List.forall_mem_append, hclean,
      List.forall_mem_singleton, List.forall_mem_singleton, hone]

theorem AllPoll.Inv.visits (h : st.Inv budget start)
    (chs : List PollChannel) :
    (chs.foldl (AllPoll.visit nic budget) st).Inv budget start := by
  induction chs generalizing st with
  | nil => exact h
  | cons ch chs ih => exact ih (h.visit ch)

theorem visits_length (nic : Nat → PollChannel → PollChannel)
    (budget : Nat) (st : AllPoll) (chs : List PollChannel) :
    (chs.foldl (AllPoll.visit nic budget) st).left.length
      = st.left.length + chs.length := by
  induction chs generalizing st with
  | nil => rfl
  | cons ch chs ih =>
    rw [List.foldl_cons, ih]
    show (st.left ++ [_]).length + chs.length = _
    rw [List.length_append, List.length_singleton, List.length_cons]
    omega

end Visit

-- ============================================================== the call

/-- A call that ends as it should: it returns `budget` at most, and if it
returns less and completes NAPI, the last visit to each ring has followed
it to its end. -/
structure NapiSound (channels : List PollChannel) (budget : Nat)
    (st : AllPoll) (completed : Bool) : Prop where
  visited : st.left.length = channels.length
  processed_le : st.processed ≤ budget
  completes : st.processed < budget → completed = true
  idle : st.processed < budget → ∀ ch ∈ st.left, ch.RxIdle
  clean : st.processed < budget → ∀ ch ∈ st.left, ch.TxClean

section Call

variable (nic : Nat → PollChannel → PollChannel) {budget : Nat}

/-- A pass takes up where the one before it has ended. -/
theorem pass_inv {st : AllPoll} (hle : st.processed ≤ budget)
    (hpos : st.processed < budget → 0 < st.ringBudget) :
    (st.pass nic budget).Inv budget st.processed := by
  have hbegin : AllPoll.Inv budget st.processed
      { st with found := [], left := [] } := by
    refine ⟨le_rfl, hle, hpos, ?_, ?_⟩
    · exact fun _ _ ch hmem => absurd hmem List.not_mem_nil
    · exact iff_of_true (fun ch hmem => absurd hmem List.not_mem_nil)
        (fun ch hmem => absurd hmem List.not_mem_nil)
  exact hbegin.visits st.left

theorem pass_length (budget : Nat) (st : AllPoll) :
    (st.pass nic budget).left.length = st.left.length := by
  unfold AllPoll.pass
  rw [visits_length]
  exact Nat.zero_add _

/-- Every pass but the last receives a packet, and the last one none. -/
theorem loop_ends_idle (fuel : Nat) (st : AllPoll)
    (hfuel : budget - st.processed < fuel) (hle : st.processed ≤ budget)
    (hpos : st.processed < budget → 0 < st.ringBudget) :
    ∃ st', st.loop nic budget fuel = some st'
      ∧ st'.left.length = st.left.length
      ∧ st'.processed ≤ budget
      ∧ (st'.processed < budget → ∀ ch ∈ st'.left, ch.RxIdle)
      ∧ ((∀ ch ∈ st'.left, ch.TxClean)
        ↔ ∀ ch ∈ st'.found, ch.TxFits) := by
  induction fuel generalizing st with
  | zero => exact absurd hfuel (Nat.not_lt_zero _)
  | succ fuel ih =>
    have hinv := pass_inv nic hle hpos
    have hlength := pass_length nic budget st
    have hstart := hinv.start_le
    rw [AllPoll.loop]
    split
    · next hmore =>
      obtain ⟨st', hloop, hlength', hends⟩ :=
        ih _ (by omega) hinv.processed_le hinv.pos
      exact ⟨st', hloop, hlength'.trans hlength, hends⟩
    · next hlast =>
      refine ⟨_, rfl, hlength, hinv.processed_le, fun hlt => ?_,
        hinv.clean⟩
      have hsame : (st.pass nic budget).processed = st.processed := by
        by_contra hne
        exact hlast ⟨hlt, hne⟩
      exact hinv.idle hsame (hsame ▸ hlt)

end Call

/-- `mac_all_poll` ends, and when it completes NAPI it has left nothing
behind exactly if on its last visit to each transmit ring it found no
more completed entries than it may reclaim. -/
theorem all_poll_sound_iff (nic : Nat → PollChannel → PollChannel)
    (channels : List PollChannel) {rxRingCount budget : Nat}
    (hrings : 0 < rxRingCount) (hbudget : rxRingCount ≤ budget) :
    ∃ st completed,
      macAllPoll nic budget rxRingCount (budget + 1) channels
          = some (st, completed)
        ∧ (NapiSound channels budget st completed
          ↔ (st.processed < budget → ∀ ch ∈ st.found, ch.TxFits)) := by
  obtain ⟨st, hloop, hlength, hle, hidle, hclean⟩ :=
    loop_ends_idle nic (budget + 1)
      ⟨0, budget / rxRingCount, 0, [], channels⟩
      (Nat.lt_succ_self budget) (Nat.zero_le budget)
      (fun _ => Nat.div_pos hbudget hrings)
  refine ⟨st, st.processed < budget, ?_, ?_⟩
  · unfold macAllPoll
    dsimp only
    rw [hloop]
    rfl
  · constructor
    · exact fun hsound hlt => hclean.1 (hsound.clean hlt)
    · exact fun hfits => ⟨hlength, hle, decide_eq_true, hidle,
        fun hlt => hclean.2 (hfits hlt)⟩

/-- What the kernel answers of a device that receives nothing. -/
def idleEnv : RxEnv :=
  { plainEnv with
    ethTypeTrans := fun _ => 0x0800
    vlanCtagRx := true }

/-- An entry that the NIC may receive into. -/
def givenEntry : RxEntry where
  dmaDesc := ⟨0, 0, 0, 0x80000000⟩
  hdr := ⟨some 0, 0, 512, []⟩
  buf := ⟨some 1, 0, 2048, []⟩
  hdrLen := 0
  len := 0
  stateSaved := false
  state := ⟨none, 0, false⟩

/-- A receive ring with nothing to receive. -/
def idleRing : RxFound where
  pktInfo := .zero
  entries := [givenEntry]
  allocs := 0
  stops := ⟨givenEntry, List.mem_singleton_self _, by decide⟩

/-- A transmit ring with 2049 packets of one descriptor each, all of them
completed. -/
def sentRing : TxRing :=
  { TxRing.fresh with
    dmaDescs := fun _ => ⟨0, 0, 0, 0x30000000⟩
    descDataHead := fun i => ⟨some i, 0x1000, 60, 1, 60, false, some i⟩
    cur := 2049
    head := 2049
    completed := 2049 }

/-- A channel with these two rings. -/
def sentChannel : PollChannel where
  env := idleEnv
  tx := some { TxChannel.fresh 0 with ring := sentRing }
  rx := some idleRing

theorem all_poll_sound_iff_sentChannel :
    ∃ st completed,
      macAllPoll (fun _ ch => ch) 64 1 65 [sentChannel]
          = some (st, completed)
        ∧ (NapiSound [sentChannel] 64 st completed
          ↔ (st.processed < 64 → ∀ ch ∈ st.found, ch.TxFits)) :=
  all_poll_sound_iff (fun _ ch => ch) [sentChannel] Nat.one_pos
    (by decide)

/-- A call that receives nothing is one pass. -/
theorem macAllPoll_idle (tx : TxChannel) :
    macAllPoll (fun _ ch => ch) 64 1 65 [⟨idleEnv, some tx, some idleRing⟩]
      = some
          ({ processed := 0
             ringBudget := 64
             visits := 1
             found := [⟨idleEnv, some tx, some idleRing⟩]
             left := [⟨idleEnv, some tx.poll, some idleRing⟩] }, true) :=
  rfl

/-- With 2049 completed entries and nothing received, NAPI is completed
and an entry is left behind. -/
theorem tx_ring_left_behind :
    ∃ st,
      macAllPoll (fun _ ch => ch) 64 1 65 [sentChannel] = some (st, true)
        ∧ st.processed < 64 ∧ ¬ ∀ ch ∈ st.left, ch.TxClean := by
  refine ⟨_, macAllPoll_idle _, by decide, fun hclean => ?_⟩
  obtain ⟨d, hd, hdone⟩ := (txPoll_clean_iff _).1
    (hclean _ (List.mem_singleton_self _) _ rfl)
  have hlast := (hdone 2048 (by decide)).1 (by decide)
  have hmax : txDescMaxProc = 2048 := rfl
  omega

end BxRnic.Mac
