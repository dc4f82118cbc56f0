/-
`mac_all_poll` (bx_mac_net.c): one NAPI poll for all the channels.

# Time

The NIC goes on while the poll runs, and so does `mac_xmit` on other
CPUs. `nic k` says what they have made of a channel by the `k`-th visit
of the call; within a visit, a descriptor is given as it is when it is
read.

A packet has finitely many descriptors, however fast they come. So a
receive ring that is found holds a descriptor that the NIC has not
completed; it may lie behind as many packets as the poll can read.
-/
import BxRnic.Mac.RxPoll
import BxRnic.Mac.TxRing

namespace BxRnic.Mac

-- ============================================================== channels

theorem stops_tail {entry : RxEntry} {entries : List RxEntry}
    (h : ∃ e ∈ entry :: entries, e.dmaDesc.own = true)
    (hown : ¬ entry.dmaDesc.own = true) :
    ∃ e ∈ entries, e.dmaDesc.own = true := by
  obtain ⟨e, hmem, he⟩ := h
  rcases List.mem_cons.1 hmem with rfl | hmem
  · exact absurd he hown
  · exact ⟨e, hmem, he⟩

/-- The loop of `mac_rx_poll` does not get past a descriptor that the NIC
has not completed. -/
theorem loop_stops (env : RxEnv) (budget : Nat) (st : RxPoll)
    {entries : List RxEntry} (h : ∃ e ∈ entries, e.dmaDesc.own = true) :
    ∃ e ∈ (st.loop env budget entries).2, e.dmaDesc.own = true := by
  induction entries generalizing st with
  | nil => exact h
  | cons entry entries ih =>
    rw [RxPoll.loop]
    split
    · exact h
    · next hown =>
      have hrest := stops_tail h hown
      split
      · exact ih _ hrest
      · dsimp only
        split
        · exact ih _ hrest
        · exact hrest

/-- What is saved in an entry is not in its descriptor. -/
theorem save_dmaDesc (st : RxPoll) (entry : RxEntry) :
    (st.save entry).dmaDesc = entry.dmaDesc := by
  unfold RxPoll.save
  split
  · rfl
  · rfl

/-- Without a budget no turn is made, and with one the loop is entered
with no packet counted. -/
theorem rxTurns_cases (env : RxEnv) (ring : RxView) (budget : Nat) :
    (budget = 0 ∧ rxTurns env ring budget = (.start ring, ring.entries))
      ∨ (0 < budget ∧ ∃ st : RxPoll, st.packetCount = 0
        ∧ rxTurns env ring budget = st.loop env budget ring.entries) := by
  unfold rxTurns
  split
  · next hpos =>
    refine Or.inr ⟨hpos, ?_⟩
    cases ring.entries with
    | nil => exact ⟨.start ring, rfl, rfl⟩
    | cons entry entries =>
      refine ⟨(RxPoll.start ring).resume entry, ?_, rfl⟩
      unfold RxPoll.resume
      split
      · rfl
      · rfl
  · next hzero => exact Or.inl ⟨Nat.eq_zero_of_not_pos hzero, rfl⟩

theorem macRxPoll_stops (env : RxEnv) (budget : Nat) {ring : RxView}
    (h : ∃ e ∈ ring.entries, e.dmaDesc.own = true) :
    ∃ e ∈ (macRxPoll env ring budget).2.entries,
      e.dmaDesc.own = true := by
  have hturns :
      ∃ e ∈ (rxTurns env ring budget).2, e.dmaDesc.own = true := by
    rcases rxTurns_cases env ring budget with ⟨-, heq⟩ | ⟨-, st, -, heq⟩
    · rw [heq]
      exact h
    · rw [heq]
      exact loop_stops env budget st h
  unfold macRxPoll
  generalize rxTurns env ring budget = turns at hturns
  obtain ⟨st, entries⟩ := turns
  obtain ⟨e, hmem, he⟩ := hturns
  cases entries with
  | nil => exact absurd hmem List.not_mem_nil
  | cons entry entries =>
    rcases List.mem_cons.1 hmem with rfl | hmem
    · refine ⟨st.save e, List.mem_cons_self, ?_⟩
      rw [save_dmaDesc]
      exact he
    · exact ⟨e, List.mem_cons_of_mem _ hmem, he⟩

/-- A receive ring with a descriptor that the NIC has not completed. -/
structure RxFound extends RxView where
  stops : ∃ e ∈ entries, e.dmaDesc.own = true

/-- `mac_rx_poll`: what it returns, and the ring. -/
def RxFound.poll (env : RxEnv) (ring : RxFound) (budget : Nat) :
    Nat × RxFound :=
  ((macRxPoll env ring.toRxView budget).1.packetCount,
    { (macRxPoll env ring.toRxView budget).2 with
      stops := macRxPoll_stops env budget ring.stops })

/-- `struct mac_channel`, with the rings it has. -/
structure PollChannel where
  env : RxEnv
  tx : Option TxChannel
  rx : Option RxFound

/-- `mac_rx_poll` of a channel, which may have no ring. -/
def PollChannel.rxPoll (ch : PollChannel) (budget : Nat) :
    Nat × PollChannel :=
  match ch.rx with
  | none => (0, ch)
  | some ring =>
      let (count, ring) := ring.poll ch.env budget
      (count, { ch with rx := some ring })

/-- `mac_tx_poll` of a channel, which may have no ring. -/
def PollChannel.txPoll (ch : PollChannel) : PollChannel :=
  { ch with tx := ch.tx.map TxChannel.poll }

-- ============================================================== the poll

/-- The locals of `mac_all_poll` and the channels. -/
structure AllPoll where
  processed : Nat
  ringBudget : Nat
  /-- How many visits there have been. -/
  visits : Nat
  /-- The channels that this pass has been to, as it found them. -/
  found : List PollChannel
  /-- The same, as it left them. -/
  left : List PollChannel

section Poll

variable (nic : Nat → PollChannel → PollChannel) (budget : Nat)

/-- The body of the inner loop. -/
def AllPoll.visit (st : AllPoll) (ch : PollChannel) : AllPoll :=
  let found := nic st.visits ch
  -- cleanup Tx ring first
  let ch := found.txPoll
  -- process Rx ring next
  let ringBudget :=
    if st.ringBudget > budget - st.processed then budget - st.processed
    else st.ringBudget
  let (count, ch) := ch.rxPoll ringBudget
  { processed := st.processed + count
    ringBudget := ringBudget
    visits := st.visits + 1
    found := st.found ++ [found]
    left := st.left ++ [ch] }

/-- The inner loop: every channel is visited once. -/
def AllPoll.pass (st : AllPoll) : AllPoll :=
  st.left.foldl (AllPoll.visit nic budget)
    { st with found := [], left := [] }

/-- `do ... while`, for at most `fuel` passes. -/
def AllPoll.loop : (fuel : Nat) → AllPoll → Option AllPoll
  | 0, _ => none
  | fuel + 1, st =>
      let lastProcessed := st.processed
      let st := st.pass nic budget
      if st.processed < budget ∧ st.processed ≠ lastProcessed then
        loop fuel st
      else some st

/-- `mac_all_poll`: how it ends, and whether `napi_complete_done` is
called and the interrupts are enabled again. `processed` is the value
returned. -/
def macAllPoll (rxRingCount fuel : Nat) (channels : List PollChannel) :
    Option (AllPoll × Bool) :=
  let st : AllPoll :=
    { processed := 0
      ringBudget := budget / rxRingCount
      visits := 0
      found := []
      left := channels }
  (st.loop nic budget fuel).map fun st => (st, st.processed < budget)

end Poll

end BxRnic.Mac
