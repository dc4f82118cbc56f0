/-
Receive completions against the counter of the hardware, over every run
of a queue pair and its completion queue.

# The counter

The hardware counts the receives that messages have taken, and writes the
counter into the entry it fills (`Counted.step`). The library reads it
against the entry before, so an entry is read right if the counter is in
order (`BatchOk`): against the counter of the entry written before it,
and after one with counter 0.

# The invariant

What the library has noted, once it has read all entries that wait, is
the counter of the last entry that was written (`Counted.CountInv`).
-/
import BxRnic.User.Proofs.RecvCompletions
import BxRnic.User.Proofs.RecvCounter

namespace BxRnic.User

open Run

-- ============================================================== the counter

/-- A queue pair at work, and what the hardware has written of its
counter. -/
structure Counted where
  sys : Sys
  /-- The counter of the last entry, 0 before the first. -/
  last : U16
  /-- There was an entry with counter 0. -/
  seen : Bool

/-- The messages can take so many receives and be reported. -/
def Sys.Arrives (s : Sys) (receives : Nat) (cqe : Rxcqe) : Prop :=
  s.dead = false ∧ s.arrived + receives ≤ s.posted.length
    ∧ cqe.valid = true ∧ (s.cq.rx.entry s.rxWp).valid = false

instance (s : Sys) (receives : Nat) (cqe : Rxcqe) :
    Decidable (s.Arrives receives cqe) :=
  inferInstanceAs (Decidable (_ ∧ _ ∧ _ ∧ _))

/-- The state after an event. The hardware's counter starts at `start`
and moves on by `inc` for each receive. -/
def Counted.step (start inc : Nat) (s : Counted) (e : SysEvent) :
    Counted :=
  match e with
  | .arrive receives cqe =>
      let lo := counter start inc (s.sys.arrived + receives)
      if s.sys.Arrives receives cqe then
        { sys := s.sys.step (.arrive receives { cqe with bth6487Lo := lo })
          last := lo
          seen := s.seen || decide (lo = 0) }
      else s
  | e => { s with sys := s.sys.step e }

/-- A new queue pair and its new completion queue. -/
def Counted.start (c : CreateQp) (qpState : QpState)
    (attr : QpChangeInfo) : Counted :=
  ⟨Sys.start c qpState attr, 0, false⟩

/-- The counter that is written is in order. -/
def SysEvent.CountOk (start inc : Nat) (s : Counted) : SysEvent → Prop
  | .arrive receives cqe => s.sys.Arrives receives cqe →
      BatchOk s.seen s.last
        (counter start inc (s.sys.arrived + receives)) receives
  | _ => True

instance (seen : Bool) (prev lo : U16) (receives : Nat) :
    Decidable (BatchOk seen prev lo receives) := by
  unfold BatchOk
  infer_instance

instance (start inc : Nat) (s : Counted) :
    ∀ e : SysEvent, Decidable (e.CountOk start inc s)
  | .arrive _ _ => inferInstanceAs (Decidable (_ → _))
  | .postSend _ => isTrue trivial
  | .sendTurn _ _ => isTrue trivial
  | .postRecv _ => isTrue trivial
  | .recvTurn _ => isTrue trivial
  | .xmit _ => isTrue trivial
  | .pollRound _ => isTrue trivial

-- ============================================================ what is noted

/-- The counter and the phase that the library has noted when it has read
some entries. -/
def noted : U32 → U32 → List Rxcqe → U32 × U32
  | overhead, phase, [] => (overhead, phase)
  | overhead, phase, cqe :: cqes =>
      match rxBatch overhead phase cqe with
      | none => (overhead, phase)
      | some (_, phase') => noted (cqe.bth6487Lo.setWidth 32) phase' cqes

/-- One more entry is read against what is noted then. -/
theorem rxBatches_append {overhead phase : U32} {cqes : List Rxcqe}
    {ks : List Nat} {cqe : Rxcqe} {k : Nat} {phase' : U32}
    (h : rxBatches overhead phase cqes = ks.map some)
    (hbatch : rxBatch (noted overhead phase cqes).1
      (noted overhead phase cqes).2 cqe = some (k, phase')) :
    rxBatches overhead phase (cqes ++ [cqe]) = ks.map some ++ [some k]
      ∧ noted overhead phase (cqes ++ [cqe])
        = (cqe.bth6487Lo.setWidth 32, phase') := by
  induction cqes generalizing overhead phase ks with
  | nil =>
      obtain rfl : ks = [] := List.map_eq_nil_iff.1 h.symm
      rw [noted] at hbatch
      dsimp only at hbatch
      rw [List.nil_append, rxBatches, noted, hbatch]
      exact ⟨rfl, rfl⟩
  | cons first cqes ih =>
      rw [rxBatches] at h
      rw [noted] at hbatch
      rw [List.cons_append, rxBatches, noted]
      cases hfirst : rxBatch overhead phase first with
      | none =>
          rw [hfirst] at h
          cases ks with
          | nil => cases h
          | cons k' ks => cases (List.cons.inj h).1
      | some found =>
          obtain ⟨k', next⟩ := found
          rw [hfirst] at h hbatch
          cases ks with
          | nil => cases h
          | cons k'' ks =>
              obtain ⟨hk, hrest⟩ := List.cons.inj h
              obtain rfl := Option.some.inj hk
              obtain ⟨hlist, hnoted⟩ := ih hrest hbatch
              exact ⟨congrArg (some k' :: ·) hlist, hnoted⟩

/-- What the library will have noted of the entries that wait. -/
def Sys.notes (s : Sys) : U32 × U32 :=
  noted (BitVec.ofNat 32 s.qp.rq.overhead) s.cq.phase
    (s.cq.rx.filled Rxcqe.valid)

-- ========================================================= the invariant

/-- The library keeps up with the counter. -/
structure Counted.CountInv (s : Counted) : Prop where
  recv : s.sys.RecvInv
  notes : s.sys.notes = (s.last.setWidth 32, phaseOf s.seen)

theorem Counted.start_inv (c : CreateQp) (qpState : QpState)
    (attr : QpChangeInfo) : (Counted.start c qpState attr).CountInv where
  recv := Sys.start_recvInv c qpState attr
  notes := by
    unfold Sys.notes
    rw [FlagRing.filled_of_not_flag rfl]
    rfl

-- ============================================================== every step

/-- Receives that can be taken are taken and reported. -/
theorem Sys.Arrives.step_eq {s : Sys} {receives : Nat} {cqe : Rxcqe}
    (h : s.Arrives receives cqe) :
    s.step (.arrive receives cqe)
      = { s with
          arrived := s.arrived + receives
          cq := { s.cq with rx := s.cq.rx.produce s.rxWp cqe }
          rxWp := (s.rxWp + 1) % cqEntries } := by
  obtain ⟨hlive, hposted, hcqe, hfree⟩ := h
  have hnot : ¬ (s.posted.length < s.arrived + receives
      ∨ cqe.valid = false ∨ (s.cq.rx.entry s.rxWp).valid = true) := by
    rw [hcqe, hfree]
    simp only [Bool.true_eq_false, Bool.false_eq_true, or_false]
    omega
  have hgo : ¬ s.dead = true := by
    rw [hlive]
    exact Bool.false_ne_true
  unfold Sys.step
  rw [if_neg hgo]
  exact if_neg hnot

/-- Messages arrive. -/
theorem Counted.CountInv.arrive {s : Counted} (h : s.CountInv)
    {start inc receives : Nat} {cqe : Rxcqe}
    (hgo : s.sys.Arrives receives cqe)
    (hok : (SysEvent.arrive receives cqe).CountOk start inc s) :
    (s.step start inc (.arrive receives cqe)).CountInv := by
  have hbatch := (rxBatch_iff (b := ⟨receives, 0, cqe⟩)).1 (hok hgo)
  unfold Counted.step
  dsimp only
  rw [if_pos hgo]
  generalize counter start inc (s.sys.arrived + receives) = lo at *
  let reported : Rxcqe := { cqe with bth6487Lo := lo }
  have hgo' : s.sys.Arrives receives reported := hgo
  -- the entry is read against the one before it
  obtain ⟨ks, hks, -⟩ := h.recv.waiting
  have hnotes := h.notes
  unfold Sys.notes at hnotes
  have hread : rxBatch (s.last.setWidth 32) (phaseOf s.seen) reported
      = some (receives, phaseOf (s.seen || decide (lo = 0))) := hbatch
  obtain ⟨hlist, hnoted⟩ := rxBatches_append hks
    (by rw [hnotes]; exact hread)
  have hreports : (SysEvent.arrive receives reported).Reports s.sys := by
    unfold SysEvent.Reports
    rw [hks]
    exact hlist
  refine ⟨h.recv.step s.sys _ ⟨hreports, trivial⟩, ?_⟩
  obtain ⟨hfilled, -⟩ := h.recv.tidy.produce hgo'.2.2.2 hgo'.2.2.1
  show (s.sys.step (.arrive receives reported)).notes = _
  rw [hgo'.step_eq]
  unfold Sys.notes
  dsimp only
  rw [hfilled]
  exact hnoted

/-- Posting a receive leaves what is noted. -/
theorem postRecvTurn_overhead (mrList : List MrSgInfo) (qp : Qp)
    (regs : Regs) (wr : RecvWr) :
    (postRecvTurn mrList qp regs wr).2.1.rq.overhead = qp.rq.overhead := by
  by_cases hroom : wr.Accepted qp
  · rw [postRecvTurn_accepted (postRecvTurn_ok mrList regs hroom)]
    have hbuild : (buildRqsges mrList qp wr).rq = qp.rq := by
      unfold buildRqsges
      split
      · rfl
      · rw [buildRqsgesLoop_eq]
    unfold updateRqHead
    dsimp only
    split
    · rw [hbuild]
    · rw [hbuild]
  · rw [(postRecvTurn_refused mrList qp regs hroom).2]

/-- A round of `bxroce_poll_cq` reads the first entry, if it reads one. -/
theorem Sys.pollRound_notes (s : Sys) (ibwc : Nat → Wc) :
    (s.pollRound ibwc).notes = s.notes := by
  have hpolled := s.pollRound_polled ibwc
  generalize s.pollRound ibwc = s' at hpolled
  cases hpolled with
  | idle => rfl
  | dies => rfl
  | took hxmit hrx =>
      cases hrx with
      | idle hvalid => rfl
      | @taken k phase hvalid hbatch =>
          have hfilled := FlagRing.filled_of_flag Rxcqe.zero hvalid rfl
          have hnote := overhead_popRq k
            { s.qp.rq with overhead := s.cq.rx.head.bth6487Lo.toNat }
          unfold Sys.notes
          dsimp only
          rw [hfilled, noted, hbatch]
          dsimp only
          rw [hnote, BitVec.ofNat_toNat]

/-- What is noted is a matter of the receive side only. -/
theorem Sys.step_notes (s : Sys) (e : SysEvent)
    (harrive : ∀ receives cqe, e ≠ .arrive receives cqe) :
    (s.step e).notes = s.notes := by
  unfold Sys.step
  split
  · rfl
  · cases e with
    | postSend wrs =>
        dsimp only
        split
        · rfl
        · rfl
    | sendTurn mrList reply =>
        dsimp only
        unfold Sys.sendTurn
        cases s.sending with
        | nil => rfl
        | cons wr wrs =>
            obtain ⟨hrq, -⟩ :=
              postSendTurn_recv mrList s.qp s.regs wr reply
            unfold Sys.notes
            dsimp only
            rw [hrq]
    | postRecv wrs =>
        dsimp only
        split
        · rfl
        · rfl
    | recvTurn mrList =>
        dsimp only
        unfold Sys.recvTurn
        cases s.receiving with
        | nil => rfl
        | cons wr wrs =>
            unfold Sys.notes
            dsimp only
            rw [postRecvTurn_overhead]
    | xmit cqe =>
        dsimp only
        unfold Sys.xmit
        split
        · rfl
        · rfl
    | arrive receives cqe => exact absurd rfl (harrive receives cqe)
    | pollRound ibwc => exact s.pollRound_notes ibwc

/-- The invariant is kept by every step that meets the condition. -/
theorem Counted.CountInv.step {start inc : Nat} (s : Counted)
    (e : SysEvent) (h : s.CountInv)
    (hok : e.CountOk start inc s ∧ e.RecvOk s.sys) :
    (s.step start inc e).CountInv := by
  have hother : ∀ e : SysEvent, (∀ receives cqe, e ≠ .arrive receives cqe) →
      e.RecvOk s.sys → e.Reports s.sys →
      Counted.CountInv { s with sys := s.sys.step e } :=
    fun e harrive hrecv hreports =>
      ⟨h.recv.step s.sys e ⟨hreports, hrecv⟩,
        (s.sys.step_notes e harrive).trans h.notes⟩
  cases e with
  | arrive receives cqe =>
      by_cases hgo : s.sys.Arrives receives cqe
      · exact h.arrive hgo hok.1
      · unfold Counted.step
        dsimp only
        rw [if_neg hgo]
        exact h
  | postSend wrs => exact hother _ (by simp) hok.2 trivial
  | sendTurn mrList reply => exact hother _ (by simp) hok.2 trivial
  | postRecv wrs => exact hother _ (by simp) hok.2 trivial
  | recvTurn mrList => exact hother _ (by simp) hok.2 trivial
  | xmit cqe => exact hother _ (by simp) hok.2 trivial
  | pollRound ibwc => exact hother _ (by simp) hok.2 trivial

-- ================================================================= runs

/-- Over every run of a queue pair on which the counter is in order and
each accepted receive has one element, the receive completions are right
throughout. -/
theorem recvs_complete (start inc : Nat) (c : CreateQp)
    (qpState : QpState) (attr : QpChangeInfo) (events : List SysEvent)
    (hok : Each (Counted.step start inc)
      (fun s e => e.CountOk start inc s ∧ e.RecvOk s.sys)
      (Counted.start c qpState attr) events) :
    Always (Counted.step start inc) (fun s => s.sys.RecvsComplete)
      (Counted.start c qpState attr) events :=
  (hok.always Counted.CountInv.step (Counted.start_inv c qpState attr)).mono
    fun _ h => h.recv.complete

/-- Four receives, taken by one message and then by a batch of three. Three
receives take the counter round once and on by 2: it is 0 and then 2. -/
theorem recvs_complete_batch :
    let c : CreateQp :=
      { qpId := 2, qpType := .rc, numWqeAllocated := 2048,
        numRqeAllocated := 256, maxSendSge := 4, maxRecvSge := 4,
        sqSigAll := 0, sqVa := fun _ => .zero, rqVa := fun _ => .zero,
        addrtbl := ⟨0, 0, 0⟩, numWqe_pos := by decide,
        numRqe_pos := by decide }
    let wr (wrId : U64) : RecvWr := ⟨wrId, [⟨0x4000, 64, 1⟩]⟩
    let turn : SysEvent := .recvTurn []
    let poll : SysEvent := .pollRound fun _ => ⟨0, 0, 0, 0, 0, 0, 0, 0⟩
    let cqe : Rxcqe := ⟨0, 3, 0, 0, 0xff⟩
    let events : List SysEvent :=
      [.postRecv [wr 7, wr 8, wr 9, wr 10], turn, turn, turn, turn,
        .arrive 1 cqe, .arrive 3 cqe, poll, poll]
    let start := Counted.start c .rts (QpChangeInfo.initial 0)
    ofQueue .recv
        (exec (Counted.step 43690 21846) start events).sys.delivered
        = [7, 8, 9, 10]
      ∧ Always (Counted.step 43690 21846) (fun s => s.sys.RecvsComplete)
        start events := by
  intro c wr turn poll cqe events start
  exact ⟨by decide +kernel,
    recvs_complete 43690 21846 c .rts _ events (by decide +kernel)⟩

/-- A receive of two elements and three of one, with the counter in order:
the first is reported for the first two that were taken. -/
theorem two_elements_reported_twice :
    let c : CreateQp :=
      { qpId := 2, qpType := .rc, numWqeAllocated := 2048,
        numRqeAllocated := 256, maxSendSge := 4, maxRecvSge := 4,
        sqSigAll := 0, sqVa := fun _ => .zero, rqVa := fun _ => .zero,
        addrtbl := ⟨0, 0, 0⟩, numWqe_pos := by decide,
        numRqe_pos := by decide }
    let wr (wrId : U64) : RecvWr := ⟨wrId, [⟨0x6000, 64, 1⟩]⟩
    let turn : SysEvent := .recvTurn []
    let poll : SysEvent := .pollRound fun _ => ⟨0, 0, 0, 0, 0, 0, 0, 0⟩
    let cqe : Rxcqe := ⟨0, 3, 0, 0, 0xff⟩
    let events : List SysEvent :=
      [.postRecv [⟨7, [⟨0x4000, 64, 1⟩, ⟨0x5000, 64, 1⟩]⟩, wr 8, wr 9,
          wr 10],
        turn, turn, turn, turn, .arrive 1 cqe, poll, .arrive 3 cqe, poll]
    let start := Counted.start c .rts (QpChangeInfo.initial 0)
    let s := exec (Counted.step 43690 21846) start events
    Each (Counted.step 43690 21846) (fun s e => e.CountOk 43690 21846 s)
        start events
      ∧ s.sys.posted = [7, 8, 9, 10]
      ∧ ofQueue .recv s.sys.delivered = [7, 7, 8, 9]
      ∧ ¬ Always (Counted.step 43690 21846)
        (fun s => s.sys.RecvsComplete) start events := by
  intro c wr turn poll cqe events start s
  have hposted : s.sys.posted = [7, 8, 9, 10] := by
    decide +kernel
  have hdelivered : ofQueue .recv s.sys.delivered = [7, 7, 8, 9] := by
    decide +kernel
  refine ⟨by decide +kernel, hposted, hdelivered, fun h => ?_⟩
  have horder := h.last.inOrder
  change ofQueue .recv s.sys.delivered <+: s.sys.posted at horder
  rw [hposted, hdelivered] at horder
  exact absurd horder (by decide)

end BxRnic.User
