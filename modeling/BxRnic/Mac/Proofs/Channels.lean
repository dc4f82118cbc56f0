/-
What a failed allocation of the channels gives back, and what a second
`mac_open` finds.

`mac_alloc_channels` frees through the variables it also hands the rings
out with. Up to the loop these are what `kcalloc` returned; an interrupt
that is missing is found in the loop, where they have moved on by the
rings handed out so far (`distribute_missing`).

`mac_free_channels` clears `channel_count`, which is where `mac_init` has
put the configured count. A run of `mac_open` and `mac_close` goes
through four states: as probed, open as configured, closed with no count,
and open without channels, which cannot be closed any more.
-/
import BxRnic.Mac.Channels

namespace BxRnic.Mac

-- ============================================================== the loop

section Distribute

variable {pdata : Pdata}

/-- Channel `i` has no interrupt of its own where it needs one. -/
def Pdata.lacksIrq (pdata : Pdata) (i : Nat) : Bool :=
  pdata.perChannelIrq && decide (pdata.channelIrq i < 0)

/-- The first channel without its interrupt. -/
def Pdata.missingIrq (pdata : Pdata) : Option Nat :=
  (List.range pdata.channelCount).find? pdata.lacksIrq

theorem lacksIrq_iff {i : Nat} :
    pdata.lacksIrq i = true
      ↔ (pdata.perChannelIrq = true ∧ pdata.channelIrq i < 0) := by
  unfold Pdata.lacksIrq
  rw [Bool.and_eq_true, decide_eq_true_iff]

/-- A ring cursor after the channels from `i` up to `j`. -/
def Ptr.after (p : Ptr) (count i j : Nat) : Ptr :=
  { p with elem := p.elem + (min j count - min i count) }

theorem after_self (p : Ptr) (count i : Nat) : p.after count i i = p := by
  unfold Ptr.after
  rw [Nat.sub_self, Nat.add_zero]

theorem after_step (p : Ptr) {count i j : Nat} (hij : i < j) :
    (if i < count then p.next else p).after count (i + 1) j
      = p.after count i j := by
  unfold Ptr.after Ptr.next
  split
  · simp only [Ptr.mk.injEq, true_and]
    omega
  · simp only [Ptr.mk.injEq, true_and]
    omega

/-- The loop ends at the first channel without its interrupt. -/
theorem distribute_missing (left : Nat) {i j : Nat} (tx rx : Ptr)
    (hij : i ≤ j) (hj : j < i + left) (hmissing : pdata.lacksIrq j = true)
    (hfirst : ∀ k, i ≤ k → k < j → pdata.lacksIrq k = false) :
    (pdata.distribute left i tx rx).failed = some (pdata.channelIrq j)
      ∧ (pdata.distribute left i tx rx).txRing
        = tx.after pdata.txRingCount i j
      ∧ (pdata.distribute left i tx rx).rxRing
        = rx.after pdata.rxRingCount i j := by
  induction left generalizing i tx rx with
  | zero => omega
  | succ left ih =>
    rw [Pdata.distribute]
    by_cases heq : i = j
    · subst heq
      rw [if_pos (lacksIrq_iff.1 hmissing), after_self, after_self]
      exact ⟨rfl, rfl, rfl⟩
    · have hlt : i < j := by omega
      have hnot : ¬ (pdata.perChannelIrq = true
          ∧ pdata.channelIrq i < 0) := by
        rw [← lacksIrq_iff, hfirst i (Nat.le_refl i) hlt]
        exact Bool.false_ne_true
      rw [if_neg hnot, ← after_step tx hlt, ← after_step rx hlt]
      exact ih _ _ (by omega) (by omega) fun k hk => hfirst k (by omega)

/-- A ring where one is wanted, and as `P` says. -/
def RingIs (wanted : Prop) (P : Ring → Prop) (ring : Option Ring) : Prop :=
  (ring.isSome = true ↔ wanted) ∧ ∀ r, ring = some r → P r

/-- The channels from `i` on: the first `tx` have a transmit ring with
`P`, the first `rx` a receive ring with `Q`. -/
def ChannelsAre (tx rx : Nat) (P Q : Ring → Prop) : Nat → List Channel → Prop
  | _, [] => True
  | i, channel :: rest =>
      RingIs (i < tx) P channel.txRing ∧ RingIs (i < rx) Q channel.rxRing
        ∧ ChannelsAre tx rx P Q (i + 1) rest

/-- Nothing is in the ring. -/
def Ring.Idle (ring : Ring) : Prop := ring.cur = 0 ∧ ring.dirty = 0

theorem ringIs_zero {wanted : Prop} [Decidable wanted] (p : Ptr) :
    RingIs wanted Ring.Idle (if wanted then some (.zero p) else none) := by
  by_cases h : wanted
  · rw [if_pos h]
    refine ⟨⟨fun _ => h, fun _ => rfl⟩, fun r hr => ?_⟩
    rw [← Option.some.inj hr]
    exact ⟨rfl, rfl⟩
  · rw [if_neg h]
    exact ⟨⟨fun hsome => absurd hsome (by simp), fun hw => absurd hw h⟩,
      fun r hr => absurd hr (by simp)⟩

/-- The loop fails only for a missing interrupt. -/
theorem distribute_failed (left : Nat) {i : Nat} {tx rx : Ptr} {ret : Int}
    (hfailed : (pdata.distribute left i tx rx).failed = some ret) :
    ret < 0 ∧ ∃ k, k < i + left ∧ pdata.lacksIrq k = true := by
  induction left generalizing i tx rx with
  | zero => cases hfailed
  | succ left ih =>
    rw [Pdata.distribute] at hfailed
    split at hfailed
    · rename_i hlacks
      cases hfailed
      exact ⟨hlacks.2, i, by omega, lacksIrq_iff.2 hlacks⟩
    · obtain ⟨hneg, k, hk, hlacks⟩ := ih hfailed
      exact ⟨hneg, k, by omega, hlacks⟩

/-- Where the loop does not fail, every channel is set up. -/
theorem distribute_done (left : Nat) {i : Nat} {tx rx : Ptr}
    (hdone : (pdata.distribute left i tx rx).failed = none) :
    (pdata.distribute left i tx rx).channels.length = left
      ∧ ChannelsAre pdata.txRingCount pdata.rxRingCount Ring.Idle Ring.Idle
        i (pdata.distribute left i tx rx).channels := by
  induction left generalizing i tx rx with
  | zero => exact ⟨rfl, trivial⟩
  | succ left ih =>
    rw [Pdata.distribute] at hdone ⊢
    split at hdone
    · cases hdone
    · rename_i hnot
      rw [if_neg hnot]
      obtain ⟨hlength, hchannels⟩ := ih hdone
      exact ⟨congrArg (· + 1) hlength, ringIs_zero tx, ringIs_zero rx,
        hchannels⟩

end Distribute

-- ===================================================== a failed allocation

section Allocation

variable {ok : Nat → Bool} {n : Nat} {pdata : Pdata}

/-- A failed call is undone: it returns `-ENOMEM`, has freed what it
allocated, each block once and by the allocator's pointer, and leaves no
array of channels. -/
structure AllocUndone (out : Int × Heap × Pdata) : Prop where
  status : out.1 = -ENOMEM
  freed : out.2.1.ledger.Closed
  noArray : out.2.2.channelHead = none

/-- A cursor is still where it started: none of the rings was handed
out. -/
theorem after_eq_iff {p : Ptr} {count j : Nat} :
    p.after count 0 j = p ↔ (j = 0 ∨ count = 0) := by
  cases p with
  | mk block elem =>
    simp only [Ptr.after, Ptr.mk.injEq, true_and]
    omega

/-- What the error label for a missing interrupt leaves of the three
blocks. -/
theorem missing_closed_iff {a b c : Nat} {p q : Ptr}
    (hab : a ≠ b) (hac : a ≠ c) (hbc : b ≠ c)
    (hp : p.block = b) (hq : q.block = c) :
    (Ledger.mk [⟨a, 0⟩, ⟨b, 0⟩, ⟨c, 0⟩] [q, p, ⟨a, 0⟩] : Ledger Ptr).Closed
      ↔ p = ⟨b, 0⟩ ∧ q = ⟨c, 0⟩ := by
  constructor
  · intro hclosed
    have hpmem : p ∈ [(⟨a, 0⟩ : Ptr), ⟨b, 0⟩, ⟨c, 0⟩] :=
      hclosed.mem_iff.1 (by simp)
    have hqmem : q ∈ [(⟨a, 0⟩ : Ptr), ⟨b, 0⟩, ⟨c, 0⟩] :=
      hclosed.mem_iff.1 (by simp)
    simp only [List.mem_cons, List.not_mem_nil, or_false] at hpmem hqmem
    constructor
    · rcases hpmem with rfl | rfl | rfl
      · exact absurd hp hab
      · rfl
      · exact absurd hp.symm hbc
    · rcases hqmem with rfl | rfl | rfl
      · exact absurd hq hac
      · exact absurd hq hbc
      · rfl
  · rintro ⟨rfl, rfl⟩
    exact (List.reverse_perm [(⟨a, 0⟩ : Ptr), ⟨b, 0⟩, ⟨c, 0⟩])

/-- The channels get all their blocks: the three answers of the
allocator, and where the loop ends. -/
theorem allocChannels_blocks (h0 : ok n = true) (h1 : ok (n + 1) = true)
    (h2 : ok (n + 2) = true) :
    allocChannels ok ⟨n, .empty⟩ pdata
      = match (pdata.distribute pdata.channelCount 0
            ⟨n + 1, 0⟩ ⟨n + 2, 0⟩) with
        | ⟨_, tx, rx, some ret⟩ =>
            (ret, ⟨n + 3, ⟨[⟨n, 0⟩, ⟨n + 1, 0⟩, ⟨n + 2, 0⟩],
              [rx, tx, ⟨n, 0⟩]⟩⟩, pdata)
        | ⟨channels, _, _, none⟩ =>
            (0, ⟨n + 3, ⟨[⟨n, 0⟩, ⟨n + 1, 0⟩, ⟨n + 2, 0⟩], []⟩⟩,
              { pdata with channelHead := some ⟨⟨n, 0⟩, channels⟩ }) := by
  simp only [allocChannels, Heap.alloc, h0, h1, h2, if_true]
  cases pdata.distribute pdata.channelCount 0 ⟨n + 1, 0⟩ ⟨n + 2, 0⟩ with
  | mk channels tx rx failed => cases failed <;> rfl

/-- A failure of the allocator itself is undone. -/
theorem allocChannels_refused
    (hrefused : ∃ k, k < 3 ∧ ok (n + k) = false)
    (hnone : pdata.channelHead = none) :
    AllocUndone (allocChannels ok ⟨n, .empty⟩ pdata) := by
  cases h0 : ok n with
  | false =>
    simp only [allocChannels, Heap.alloc, h0, Bool.false_eq_true, if_false]
    exact ⟨rfl, Ledger.closed_empty, hnone⟩
  | true =>
    cases h1 : ok (n + 1) with
    | false =>
      simp only [allocChannels, Heap.alloc, h0, h1, Bool.false_eq_true,
        if_false, if_true]
      exact ⟨rfl, List.Perm.refl _, hnone⟩
    | true =>
      cases h2 : ok (n + 2) with
      | false =>
        simp only [allocChannels, Heap.alloc, h0, h1, h2,
          Bool.false_eq_true, if_false, if_true]
        exact ⟨rfl, List.Perm.swap _ _ _, hnone⟩
      | true =>
        obtain ⟨k, hk, hfalse⟩ := hrefused
        have hcases : k = 0 ∨ k = 1 ∨ k = 2 := by omega
        rcases hcases with rfl | rfl | rfl
        · rw [Nat.add_zero, h0] at hfalse
          cases hfalse
        · rw [h1] at hfalse
          cases hfalse
        · rw [h2] at hfalse
          cases hfalse

/-- A failure leaves the driver data as they were. -/
theorem allocChannels_unchanged
    (hfails : (allocChannels ok ⟨n, .empty⟩ pdata).1 ≠ 0) :
    (allocChannels ok ⟨n, .empty⟩ pdata).2.2 = pdata := by
  cases h0 : ok n with
  | false => simp [allocChannels, Heap.alloc, h0]
  | true =>
    cases h1 : ok (n + 1) with
    | false => simp [allocChannels, Heap.alloc, h0, h1]
    | true =>
      cases h2 : ok (n + 2) with
      | false => simp [allocChannels, Heap.alloc, h0, h1, h2]
      | true =>
        rw [allocChannels_blocks h0 h1 h2] at hfails ⊢
        revert hfails
        cases pdata.distribute pdata.channelCount 0 ⟨n + 1, 0⟩
            ⟨n + 2, 0⟩ with
        | mk channels tx rx failed =>
          cases failed with
          | none => exact fun hfails => absurd rfl hfails
          | some ret => exact fun _ => rfl

/-- A missing interrupt is undone only before a ring is handed out. -/
theorem allocChannels_missing {i : Nat} (h0 : ok n = true)
    (h1 : ok (n + 1) = true) (h2 : ok (n + 2) = true)
    (hmissing : pdata.missingIrq = some i) :
    AllocUndone (allocChannels ok ⟨n, .empty⟩ pdata)
      ↔ pdata.channelHead = none ∧ pdata.channelIrq i = -ENOMEM
        ∧ (i = 0 ∨ (pdata.txRingCount = 0 ∧ pdata.rxRingCount = 0)) := by
  obtain ⟨hlacks, hi, hfirst⟩ := List.find?_range_eq_some.1 hmissing
  have hi' : i < 0 + pdata.channelCount := by
    rw [Nat.zero_add]
    exact List.mem_range.1 hi
  obtain ⟨hfailed, htx, hrx⟩ :=
    distribute_missing pdata.channelCount ⟨n + 1, 0⟩ ⟨n + 2, 0⟩
      (Nat.zero_le i) hi' hlacks
      fun k _ hk => by simpa using hfirst k hk
  rw [allocChannels_blocks h0 h1 h2]
  revert hfailed htx hrx
  cases pdata.distribute pdata.channelCount 0 ⟨n + 1, 0⟩ ⟨n + 2, 0⟩ with
  | mk channels tx rx failed =>
    rintro rfl rfl rfl
    dsimp only
    have hclosed := missing_closed_iff (a := n) (b := n + 1) (c := n + 2)
      (p := Ptr.after ⟨n + 1, 0⟩ pdata.txRingCount 0 i)
      (q := Ptr.after ⟨n + 2, 0⟩ pdata.rxRingCount 0 i)
      (by omega) (by omega) (by omega) rfl rfl
    rw [after_eq_iff, after_eq_iff] at hclosed
    constructor
    · rintro ⟨hstatus, hfreed, hnone⟩
      have hboth := hclosed.1 hfreed
      exact ⟨hnone, hstatus, by omega⟩
    · rintro ⟨hnone, hstatus, hstart⟩
      exact ⟨hstatus, hclosed.2 (by omega), hnone⟩

/-- Whichever allocation of the call fails, the call is undone, and the
driver data stay as they were. -/
theorem alloc_failure_undone (hrefused : ∃ k, k < 3 ∧ ok (n + k) = false)
    (hnone : pdata.channelHead = none) :
    AllocUndone (allocChannels ok ⟨n, .empty⟩ pdata)
      ∧ (allocChannels ok ⟨n, .empty⟩ pdata).2.2 = pdata := by
  have hundone := allocChannels_refused hrefused hnone
  refine ⟨hundone, allocChannels_unchanged ?_⟩
  rw [hundone.status]
  decide

/-- Of seven channels, where the receive rings are refused. -/
theorem alloc_failure_undone_rx :
    AllocUndone (allocChannels (fun k => k != 2) ⟨0, .empty⟩
      ⟨none, 7, 7, 6, 1024, 512, false, fun _ => 0⟩) :=
  (alloc_failure_undone ⟨2, by decide, rfl⟩ rfl).1

/-- With its blocks at hand the call fails for an interrupt only. -/
theorem missing_of_fails (h0 : ok n = true) (h1 : ok (n + 1) = true)
    (h2 : ok (n + 2) = true)
    (hfails : (allocChannels ok ⟨n, .empty⟩ pdata).1 ≠ 0) :
    ∃ i, pdata.missingIrq = some i := by
  rw [allocChannels_blocks h0 h1 h2] at hfails
  cases hfailed : (pdata.distribute pdata.channelCount 0 ⟨n + 1, 0⟩
      ⟨n + 2, 0⟩).failed with
  | none =>
    revert hfailed hfails
    cases pdata.distribute pdata.channelCount 0 ⟨n + 1, 0⟩ ⟨n + 2, 0⟩ with
    | mk channels tx rx failed =>
      rintro hfails rfl
      exact absurd rfl hfails
  | some ret =>
    obtain ⟨-, k, hk, hlacks⟩ := distribute_failed _ hfailed
    rw [Nat.zero_add] at hk
    rw [← Option.isSome_iff_exists, Pdata.missingIrq, List.find?_isSome]
    exact ⟨k, List.mem_range.2 hk, hlacks⟩

/-- Exactly which failures of `mac_alloc_channels` are undone. -/
theorem allocChannels_undone_iff
    (hfails : (allocChannels ok ⟨n, .empty⟩ pdata).1 ≠ 0) :
    AllocUndone (allocChannels ok ⟨n, .empty⟩ pdata)
      ↔ pdata.channelHead = none
        ∧ ((∃ k, k < 3 ∧ ok (n + k) = false)
          ∨ ∃ i, pdata.missingIrq = some i
            ∧ pdata.channelIrq i = -ENOMEM
            ∧ (i = 0
              ∨ (pdata.txRingCount = 0 ∧ pdata.rxRingCount = 0))) := by
  have hkept := allocChannels_unchanged hfails
  by_cases hrefused : ∃ k, k < 3 ∧ ok (n + k) = false
  · constructor
    · intro hundone
      have hnone := hundone.noArray
      rw [hkept] at hnone
      exact ⟨hnone, Or.inl hrefused⟩
    · rintro ⟨hnone, -⟩
      exact allocChannels_refused hrefused hnone
  · have hok : ∀ k, k < 3 → ok (n + k) = true := fun k hk =>
      Bool.eq_true_of_not_eq_false fun hfalse => hrefused ⟨k, hk, hfalse⟩
    have h0 : ok n = true := hok 0 (by omega)
    obtain ⟨i, hmissing⟩ := missing_of_fails h0 (hok 1 (by omega))
      (hok 2 (by omega)) hfails
    rw [allocChannels_missing h0 (hok 1 (by omega)) (hok 2 (by omega))
      hmissing]
    apply and_congr_right
    intro _
    constructor
    · rintro ⟨hcode, hstart⟩
      exact Or.inr ⟨i, hmissing, hcode, hstart⟩
    · rintro (hrefused' | ⟨j, hj, hcode, hstart⟩)
      · exact absurd hrefused' hrefused
      · rw [hmissing] at hj
        obtain rfl := Option.some.inj hj
        exact ⟨hcode, hstart⟩

end Allocation

-- ================================================================== opens

section Open

variable {ok : Nat → Bool} {h h' : Heap} {pdata pdata' : Pdata}

/-- The ring has its memory, of the configured size, and nothing in it. -/
def Ring.Ready (count : U32) (ring : Ring) : Prop :=
  ring.dmaDescCount = count ∧ ring.dmaDescHead.isSome = true
    ∧ ring.descDataHead.isSome = true ∧ ring.Idle

/-- The array has as many channels as the driver data say, with their
rings. -/
def Pdata.Populated (pdata : Pdata) : Prop :=
  ∃ array, pdata.channelHead = some array
    ∧ array.channels.length = pdata.channelCount
    ∧ ChannelsAre pdata.txRingCount pdata.rxRingCount
      (Ring.Ready pdata.txDescCount) (Ring.Ready pdata.rxDescCount)
      0 array.channels

/-- The driver data but for the array of channels. -/
def Pdata.SameCounts (pdata pdata' : Pdata) : Prop :=
  pdata' = { pdata with channelHead := pdata'.channelHead }

theorem initRing_ready {count : U32} {wanted : Prop}
    {ring ring' : Option Ring} (hidle : RingIs wanted Ring.Idle ring)
    (hinit : initRing ok count h ring = (h', true, ring')) :
    RingIs wanted (Ring.Ready count) ring' := by
  cases ring with
  | none =>
    cases hinit
    exact ⟨hidle.1, fun r hr => absurd hr (by simp)⟩
  | some r =>
    have hr := hidle.2 r rfl
    have hwanted := hidle.1
    simp only [initRing] at hinit
    split at hinit
    · simp at hinit
    · split at hinit
      · simp at hinit
      · cases hinit
        refine ⟨hwanted, fun r' hr' => ?_⟩
        rw [← Option.some.inj hr']
        exact ⟨rfl, rfl, rfl, hr⟩

theorem initRings_ready {tx rx : Nat} {txCount rxCount : U32} {i : Nat}
    {channels channels' : List Channel}
    (hidle : ChannelsAre tx rx Ring.Idle Ring.Idle i channels)
    (hinit : initRings ok txCount rxCount h channels
      = (h', true, channels')) :
    channels'.length = channels.length
      ∧ ChannelsAre tx rx (Ring.Ready txCount) (Ring.Ready rxCount) i
        channels' := by
  induction channels generalizing h h' i channels' with
  | nil =>
    cases hinit
    exact ⟨rfl, trivial⟩
  | cons channel rest ih =>
    obtain ⟨htx, hrx, hrest⟩ := hidle
    rw [initRings] at hinit
    split at hinit
    · cases hinit
    · split at hinit
      · cases hinit
      · rename_i htxInit _ _ _ hrxInit
        cases hdone : initRings ok txCount rxCount _ rest with
        | mk h₁ out =>
          cases out with
          | mk done rest' =>
            rw [hdone] at hinit
            cases hinit
            obtain ⟨hlength, hready⟩ := ih hrest hdone
            exact ⟨congrArg (· + 1) hlength, initRing_ready htx htxInit,
              initRing_ready hrx hrxInit, hready⟩

theorem Ring.Ready.descInit {count : U32} {ring : Ring}
    (hready : ring.Ready count) : ring.descInit.Ready count :=
  ⟨hready.1, hready.2.1, hready.2.2.1, rfl, rfl⟩

theorem RingIs.descInit {wanted : Prop} {count : U32} {ring : Ring}
    (his : RingIs wanted (Ring.Ready count) (some ring)) :
    RingIs wanted (Ring.Ready count) (some ring.descInit) := by
  refine ⟨his.1, fun r hr => ?_⟩
  rw [← Option.some.inj hr]
  exact (his.2 ring rfl).descInit

theorem txDescInit_ready {tx rx : Nat} {txCount rxCount : U32} {i : Nat}
    {channels : List Channel}
    (hready : ChannelsAre tx rx (Ring.Ready txCount) (Ring.Ready rxCount) i
      channels) :
    (txDescInit channels).length = channels.length
      ∧ ChannelsAre tx rx (Ring.Ready txCount) (Ring.Ready rxCount) i
        (txDescInit channels) := by
  induction channels generalizing i with
  | nil => exact ⟨rfl, trivial⟩
  | cons channel rest ih =>
    obtain ⟨htx, hrx, hrest⟩ := hready
    rw [txDescInit]
    cases hring : channel.txRing with
    | none => exact ⟨rfl, htx, hrx, hrest⟩
    | some ring =>
      rw [hring] at htx
      obtain ⟨hlength, hinit⟩ := ih hrest
      exact ⟨congrArg (· + 1) hlength, htx.descInit, hrx, hinit⟩

theorem rxDescInit_ready {tx rx : Nat} {txCount rxCount : U32} {i : Nat}
    {channels : List Channel}
    (hready : ChannelsAre tx rx (Ring.Ready txCount) (Ring.Ready rxCount) i
      channels) :
    (rxDescInit channels).length = channels.length
      ∧ ChannelsAre tx rx (Ring.Ready txCount) (Ring.Ready rxCount) i
        (rxDescInit channels) := by
  induction channels generalizing i with
  | nil => exact ⟨rfl, trivial⟩
  | cons channel rest ih =>
    obtain ⟨htx, hrx, hrest⟩ := hready
    rw [rxDescInit]
    cases hring : channel.rxRing with
    | none => exact ⟨rfl, htx, hrx, hrest⟩
    | some ring =>
      rw [hring] at hrx
      obtain ⟨hlength, hinit⟩ := ih hrest
      exact ⟨congrArg (· + 1) hlength, htx, hrx.descInit, hinit⟩

/-- A successful allocation hands out the rings, all idle. -/
theorem allocChannels_done
    (hdone : allocChannels ok h pdata = (0, h', pdata')) :
    pdata.SameCounts pdata' ∧ ∃ array, pdata'.channelHead = some array
      ∧ array.channels.length = pdata.channelCount
      ∧ ChannelsAre pdata.txRingCount pdata.rxRingCount Ring.Idle Ring.Idle
        0 array.channels := by
  rw [allocChannels] at hdone
  split at hdone
  · cases hdone
  · split at hdone
    · cases hdone
    · split at hdone
      · cases hdone
      · dsimp only at hdone
        split at hdone
        · rename_i ret hfailed
          obtain ⟨hneg, -⟩ := distribute_failed _ hfailed
          cases hdone
          omega
        · rename_i hfailed
          obtain ⟨hlength, hchannels⟩ := distribute_done _ hfailed
          cases hdone
          exact ⟨rfl, _, rfl, hlength, hchannels⟩

/-- The driver data with other channels in the array. -/
theorem populated_setChannels {channels : List Channel}
    {array : ChannelArray} (harray : pdata.channelHead = some array)
    (hlength : channels.length = pdata.channelCount)
    (hready : ChannelsAre pdata.txRingCount pdata.rxRingCount
      (Ring.Ready pdata.txDescCount) (Ring.Ready pdata.rxDescCount)
      0 channels) :
    (pdata.setChannels channels).Populated := by
  refine ⟨{ array with channels := channels }, ?_, hlength, hready⟩
  rw [Pdata.setChannels, harray]
  rfl

theorem allocChannelsAndRings_done
    (hdone : allocChannelsAndRings ok h pdata = some (0, h', pdata')) :
    pdata.SameCounts pdata' ∧ pdata'.Populated := by
  rw [allocChannelsAndRings] at hdone
  split at hdone
  rename_i ret h₁ pdata₁ halloc
  split at hdone
  · rename_i hfails
    obtain ⟨out, -, hout⟩ := Option.map_eq_some_iff.1 hdone
    cases hout
    exact absurd rfl hfails
  · rename_i hzero
    obtain rfl : ret = 0 := Decidable.of_not_not hzero
    obtain ⟨hsame, array, harray, hlength, hidle⟩ :=
      allocChannels_done halloc
    have hchannels : pdata₁.channels = array.channels := by
      rw [Pdata.channels, harray]
      rfl
    rw [hchannels] at hdone
    split at hdone
    · rename_i h₂ channels hinit
      cases hdone
      rw [hsame] at hinit
      obtain ⟨hlength', hready⟩ := initRings_ready hidle hinit
      rw [Pdata.SameCounts] at hsame ⊢
      refine ⟨?_, populated_setChannels harray ?_ ?_⟩
      · rw [hsame]
        rfl
      · rw [hlength', hlength, hsame]
      · rw [hsame]
        exact hready
    · obtain ⟨out, -, hout⟩ := Option.map_eq_some_iff.1 hdone
      cases hout

/-- `mac_start` keeps the channels as they are to be. -/
theorem startChannels_populated (env : OpenEnv)
    (hpopulated : pdata.Populated) :
    pdata.SameCounts (startChannels env pdata).2
      ∧ (startChannels env pdata).2.Populated := by
  obtain ⟨array, harray, hlength, hready⟩ := hpopulated
  unfold startChannels
  split
  · have hchannels : pdata.channels = array.channels := by
      rw [Pdata.channels, harray]
      rfl
    obtain ⟨htxLength, htx⟩ := txDescInit_ready hready
    obtain ⟨hrxLength, hrx⟩ := rxDescInit_ready htx
    refine ⟨rfl, populated_setChannels harray ?_ ?_⟩
    · rw [hchannels, hrxLength, htxLength, hlength]
    · rw [hchannels]
      exact hrx
  · exact ⟨rfl, array, harray, hlength, hready⟩

theorem Pdata.SameCounts.trans {pdata'' : Pdata}
    (hfirst : pdata.SameCounts pdata')
    (hsecond : pdata'.SameCounts pdata'') : pdata.SameCounts pdata'' := by
  rw [Pdata.SameCounts] at *
  rw [hsecond, hfirst]

/-- What a successful `mac_open` leaves: channels as the driver data say,
and the driver data otherwise as they were. -/
theorem macOpen_done {env : OpenEnv}
    (hopen : macOpen env h pdata = some (0, h', pdata')) :
    pdata.SameCounts pdata' ∧ pdata'.Populated := by
  rw [macOpen] at hopen
  split at hopen
  · cases hopen
  · split at hopen
    · cases hopen
    · rename_i ret h₁ pdata₁ halloc
      split at hopen
      · rename_i hfails
        cases hopen
        exact absurd rfl hfails
      · rename_i hzero
        obtain rfl : ret = 0 := Decidable.of_not_not hzero
        obtain ⟨hsame, hpopulated⟩ := allocChannelsAndRings_done halloc
        obtain ⟨hsame', hpopulated'⟩ :=
          startChannels_populated env hpopulated
        dsimp only at hopen
        split at hopen
        · rename_i hfails
          obtain ⟨out, -, hout⟩ := Option.map_eq_some_iff.1 hopen
          exact absurd (Prod.mk.inj hout).1 hfails
        · obtain ⟨-, hout⟩ := Prod.mk.inj (Option.some.inj hopen)
          obtain ⟨-, rfl⟩ := Prod.mk.inj hout
          exact ⟨hsame.trans hsame', hpopulated'⟩

end Open

-- =================================================================== runs

section Cycles

variable {cfg : ChannelConfig} {dev dev' : EthDev} {call : EthCall}

/-- The configured counts, and the channels to go with them. -/
structure Pdata.Configured (cfg : ChannelConfig) (pdata : Pdata) :
    Prop where
  channelCount : pdata.channelCount = cfg.channelCount
  txRingCount : pdata.txRingCount = cfg.txRingCount
  rxRingCount : pdata.rxRingCount = cfg.rxRingCount
  txDescCount : pdata.txDescCount = cfg.txDescCount
  rxDescCount : pdata.rxDescCount = cfg.rxDescCount
  populated : pdata.Populated

/-- Every open of a run leaves driver data with `P`. -/
def EachOpen (P : Pdata → Prop) : EthDev → List EthCall → Prop
  | _, [] => True
  | dev, call :: rest =>
      ∀ dev', dev.step call = some dev' →
        (dev'.isOpen = true → P dev'.pdata) ∧ EachOpen P dev' rest

/-- How often a run opens the device. -/
def opens : List EthCall → Nat
  | [] => 0
  | .open _ :: rest => opens rest + 1
  | .close :: rest => opens rest

/-- The device as it is probed. -/
structure Fresh (cfg : ChannelConfig) (dev : EthDev) : Prop where
  closed : dev.isOpen = false
  pdata : dev.pdata = (EthDev.probed cfg).pdata

/-- The device is open, as configured. -/
structure Up (cfg : ChannelConfig) (dev : EthDev) : Prop where
  isOpen : dev.isOpen = true
  configured : dev.pdata.Configured cfg

/-- The device was closed; it had channels. -/
structure Down (cfg : ChannelConfig) (dev : EthDev) : Prop where
  closed : dev.isOpen = false
  channelCount : dev.pdata.channelCount = 0
  wanted : cfg.channelCount ≠ 0

/-- The device is open without channels. -/
structure Stuck (cfg : ChannelConfig) (dev : EthDev) : Prop where
  isOpen : dev.isOpen = true
  channelCount : dev.pdata.channelCount = 0
  populated : dev.pdata.Populated
  wanted : cfg.channelCount ≠ 0

/-- An open that succeeds found the device closed. -/
theorem step_open {env : OpenEnv}
    (hstep : dev.step (.open env) = some dev') :
    dev.isOpen = false ∧ dev'.isOpen = true
      ∧ dev.pdata.SameCounts dev'.pdata ∧ dev'.pdata.Populated := by
  rw [EthDev.step] at hstep
  split at hstep
  · cases hstep
  · rename_i hclosed
    split at hstep
    · rename_i ret heap pdata hopen
      split at hstep
      · rename_i hret
        subst hret
        cases hstep
        obtain ⟨hsame, hpopulated⟩ := macOpen_done hopen
        exact ⟨Bool.eq_false_of_not_eq_true hclosed, rfl, hsame,
          hpopulated⟩
      · cases hstep
    · cases hstep

theorem freeRings_length (h : Heap) (channels : List Channel) :
    (freeRings h channels).2.length = channels.length := by
  induction channels generalizing h with
  | nil => rfl
  | cons channel rest ih => exact congrArg (· + 1) (ih _)

/-- A close that goes through found channels, and clears their count. -/
theorem step_close (hstep : dev.step .close = some dev') :
    dev.isOpen = true ∧ dev'.isOpen = false
      ∧ (dev.pdata.Populated → dev.pdata.channelCount ≠ 0
        ∧ dev'.pdata.channelCount = 0) := by
  rw [EthDev.step] at hstep
  split at hstep
  · rename_i hopen
    obtain ⟨out, hclose, rfl⟩ := Option.map_eq_some_iff.1 hstep
    refine ⟨hopen, rfl, ?_⟩
    rintro ⟨array, harray, hlength, -⟩
    have hfreed := freeRings_length dev.heap dev.pdata.channels
    rw [Pdata.channels, harray] at hfreed
    simp only [macClose, freeChannelsAndRings, freeChannels,
      Pdata.setChannels, Pdata.channels, harray, Option.map_some,
      Option.getD_some] at hclose hfreed
    split at hclose
    · cases hclose
    · rename_i channel rest hchannels
      cases hclose
      rw [hchannels, hlength] at hfreed
      exact ⟨by rw [← hfreed]; exact Nat.succ_ne_zero _, rfl⟩
  · cases hstep

theorem fresh_open {env : OpenEnv} (hfresh : Fresh cfg dev)
    (hstep : dev.step (.open env) = some dev') : Up cfg dev' := by
  obtain ⟨-, hopen, hsame, hpopulated⟩ := step_open hstep
  rw [Pdata.SameCounts, hfresh.pdata] at hsame
  refine ⟨hopen, ?_, ?_, ?_, ?_, ?_, hpopulated⟩
  all_goals
    rw [hsame]
    rfl

theorem up_close (hup : Up cfg dev) (hstep : dev.step .close = some dev') :
    Down cfg dev' := by
  obtain ⟨-, hclosed, hcount⟩ := step_close hstep
  obtain ⟨hwanted, hzero⟩ := hcount hup.configured.populated
  rw [hup.configured.channelCount] at hwanted
  exact ⟨hclosed, hzero, hwanted⟩

theorem down_open {env : OpenEnv} (hdown : Down cfg dev)
    (hstep : dev.step (.open env) = some dev') : Stuck cfg dev' := by
  obtain ⟨-, hopen, hsame, hpopulated⟩ := step_open hstep
  refine ⟨hopen, ?_, hpopulated, hdown.wanted⟩
  rw [hsame]
  exact hdown.channelCount

/-- The device cannot be closed any more. -/
theorem stuck_close (hstuck : Stuck cfg dev) : dev.step .close = none := by
  rw [Option.eq_none_iff_forall_ne_some]
  intro dev' hstep
  obtain ⟨-, -, hcount⟩ := step_close hstep
  exact (hcount hstuck.populated).1 hstuck.channelCount

theorem Stuck.not_configured (hstuck : Stuck cfg dev) :
    ¬ dev.pdata.Configured cfg := by
  intro hconfigured
  have hcount := hconfigured.channelCount
  rw [hstuck.channelCount] at hcount
  exact hstuck.wanted hcount.symm

/-- The calls of a run go through one after the other. -/
theorem run_cons {rest : List EthCall}
    (hruns : (Run.tryExec EthDev.step dev (call :: rest)).isSome = true) :
    ∃ dev', dev.step call = some dev'
      ∧ (Run.tryExec EthDev.step dev' rest).isSome = true := by
  obtain ⟨last, hlast⟩ := Option.isSome_iff_exists.1 hruns
  obtain ⟨dev', hstep, hrest⟩ := Option.bind_eq_some_iff.1 hlast
  exact ⟨dev', hstep, Option.isSome_iff_exists.2 ⟨last, hrest⟩⟩

theorem eachOpen_cons {P : Pdata → Prop} {rest : List EthCall}
    (hstep : dev.step call = some dev') :
    EachOpen P dev (call :: rest)
      ↔ (dev'.isOpen = true → P dev'.pdata) ∧ EachOpen P dev' rest := by
  constructor
  · intro heach
    exact heach dev' hstep
  · intro heach dev'' hstep'
    rw [hstep] at hstep'
    obtain rfl := Option.some.inj hstep'
    exact heach

/-- A device that was closed cannot be opened as configured. -/
theorem down_run {calls : List EthCall} (hdown : Down cfg dev)
    (hruns : (Run.tryExec EthDev.step dev calls).isSome = true) :
    EachOpen (Pdata.Configured cfg) dev calls ↔ opens calls = 0 := by
  cases calls with
  | nil => exact ⟨fun _ => rfl, fun _ => trivial⟩
  | cons call rest =>
    obtain ⟨dev', hstep, hrest⟩ := run_cons hruns
    cases call with
    | «open» env =>
      have hstuck := down_open hdown hstep
      rw [eachOpen_cons hstep]
      constructor
      · rintro ⟨hconfigured, -⟩
        exact absurd (hconfigured hstuck.isOpen) hstuck.not_configured
      · intro hzero
        exact absurd hzero (Nat.succ_ne_zero _)
    | close =>
      have hopen := (step_close hstep).1
      rw [hdown.closed] at hopen
      cases hopen

theorem up_run {calls : List EthCall} (hup : Up cfg dev)
    (hruns : (Run.tryExec EthDev.step dev calls).isSome = true) :
    EachOpen (Pdata.Configured cfg) dev calls ↔ opens calls = 0 := by
  cases calls with
  | nil => exact ⟨fun _ => rfl, fun _ => trivial⟩
  | cons call rest =>
    obtain ⟨dev', hstep, hrest⟩ := run_cons hruns
    cases call with
    | «open» env =>
      have hclosed := (step_open hstep).1
      rw [hup.isOpen] at hclosed
      cases hclosed
    | close =>
      have hdown := up_close hup hstep
      have hclosed : ¬ dev'.isOpen = true := by
        rw [hdown.closed]
        exact Bool.false_ne_true
      rw [eachOpen_cons hstep, down_run hdown hrest]
      exact ⟨fun heach => heach.2,
        fun hzero => ⟨fun hopen => absurd hopen hclosed, hzero⟩⟩

/-- Exactly which runs of `mac_open` and `mac_close` find the configured
channels at every open. -/
theorem opens_configured_iff {calls : List EthCall}
    (hruns :
      (Run.tryExec EthDev.step (.probed cfg) calls).isSome = true) :
    EachOpen (Pdata.Configured cfg) (.probed cfg) calls
      ↔ opens calls ≤ 1 := by
  cases calls with
  | nil => exact ⟨fun _ => Nat.zero_le 1, fun _ => trivial⟩
  | cons call rest =>
    obtain ⟨dev', hstep, hrest⟩ := run_cons hruns
    cases call with
    | «open» env =>
      have hup : Up cfg dev' := fresh_open ⟨rfl, rfl⟩ hstep
      rw [eachOpen_cons hstep, up_run hup hrest]
      constructor
      · rintro ⟨-, hzero⟩
        exact Nat.succ_le_succ (Nat.le_of_eq hzero)
      · intro hle
        exact ⟨fun _ => hup.configured,
          Nat.le_zero.1 (Nat.le_of_succ_le_succ hle)⟩
    | close =>
      have hopen := (step_close hstep).1
      cases hopen

/-- One channel with its two rings. -/
def oneChannel : ChannelConfig := ⟨1, 1, 1024, 512, false, fun _ => 0⟩

/-- An open that meets no failure. -/
def openNow : EthCall := .open ⟨1500, fun _ => true, true, 0⟩

theorem opens_configured_once :
    EachOpen (Pdata.Configured oneChannel) (.probed oneChannel)
      [openNow, .close] :=
  (opens_configured_iff rfl).2 (Nat.le_refl 1)

/-- The device is closed and opened again: the second open succeeds, and
has no channels. -/
theorem reopened_without_channels :
    (Run.tryExec EthDev.step (.probed oneChannel)
        [openNow, .close, openNow]).isSome = true
      ∧ ¬ EachOpen (Pdata.Configured oneChannel) (.probed oneChannel)
        [openNow, .close, openNow] := by
  refine ⟨rfl, fun heach => ?_⟩
  have hclose := (heach _ rfl).2
  have hreopen := (hclose _ rfl).2
  have hconfigured := (hreopen _ rfl).1 rfl
  cases hconfigured.channelCount

end Cycles

end BxRnic.Mac
