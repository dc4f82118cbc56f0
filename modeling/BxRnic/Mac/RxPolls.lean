/-
Polls of a receive ring, one after the other, and the NIC in between.

The ring holds what the NIC has completed and no poll has read yet, and
then an entry that the NIC owns. When it completes that one, it goes on to
the next. An entry that is given to the NIC has been through
`mac_unmap_desc_data`, which clears what a poll had saved there; the NIC
leaves that alone.

A run ends with `mac_free_rx_data` (bx_mac_net.c), which puts every entry
through `mac_unmap_desc_data`, whether it has been read or not: the device
is stopped or started anew.

It is kept what the NIC has completed and how much of it has been read,
and what the polls have passed up and freed.
-/
import BxRnic.Mac.RxPoll

namespace BxRnic.Mac

/-- An entry that has been refilled and given to the NIC. -/
def RxEntry.given : RxEntry where
  dmaDesc := ⟨0, 0, 0, 0x80000000⟩
  hdr := ⟨none, 0, 0, []⟩
  buf := ⟨none, 0, 0, []⟩
  hdrLen := 0
  len := 0
  stateSaved := false
  state := ⟨none, 0, false⟩

/-- The NIC completes an entry: its descriptor and its buffers are now
those of `e`. -/
def RxEntry.complete (slot e : RxEntry) : RxEntry :=
  { e with
    dmaDesc :=
      { e.dmaDesc with desc3 := Field.set e.dmaDesc.desc3 31 1 0 }
    stateSaved := slot.stateSaved
    state := slot.state }

/-- The first entry the NIC owns is completed, and another is given to
it. -/
def completeNext (e : RxEntry) : List RxEntry → List RxEntry
  | [] => []
  | slot :: entries =>
      if slot.dmaDesc.own then slot.complete e :: (entries ++ [.given])
      else slot :: completeNext e entries

/-- A receive ring and what has become of its packets. -/
structure RxPolls where
  /-- Without entries it has been given up. -/
  ring : RxView
  /-- What the NIC has completed, in order. -/
  completed : List RxEntry
  /-- How much of it has been read. -/
  consumed : Nat
  passed : List RxSkb
  freed : List RxSkb

/-- A ring that has just been initialised. -/
def RxPolls.start : RxPolls where
  ring := ⟨.zero, [.given], 0⟩
  completed := []
  consumed := 0
  passed := []
  freed := []

inductive RxPollsAct
  /-- The NIC completes its next descriptor. -/
  | complete (e : RxEntry)
  /-- `mac_rx_poll` is called. -/
  | poll (budget : Nat)
  /-- `mac_free_rx_data`: nothing is kept of what the entries hold. -/
  | freeRxData

def RxPolls.step (env : RxEnv) (s : RxPolls) : RxPollsAct → RxPolls
  | .complete e =>
      match s.ring.entries with
      | [] => s
      | entry :: entries =>
          { s with
            ring :=
              { s.ring with entries := completeNext e (entry :: entries) }
            completed := s.completed ++ [e] }
  | .poll budget =>
      let (st, ring) := macRxPoll env s.ring budget
      { s with
        ring := ring
        consumed := s.consumed + st.received
        passed := s.passed ++ st.passed
        freed := s.freed ++ st.freed }
  | .freeRxData => { s with ring := { s.ring with entries := [] } }

/-- The socket buffers that a poll has left in the entries, for the next
one. -/
def RxPolls.held (s : RxPolls) : List RxSkb :=
  s.ring.entries.flatMap fun e =>
    if e.stateSaved then e.state.skb.toList else []

end BxRnic.Mac
