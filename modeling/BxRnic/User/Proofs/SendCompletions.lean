/-
Send completions, over every run of a queue pair: whether the requests
that asked for a completion get it, once each and in the order they were
accepted.

# How the code keeps track

Polling does not see which request an entry belongs to. It keeps a tail
of its own and looks the request up in the id table, at the tail. So the
tail has to be where the entry was built, through every lap of the ring
(`Lap`); and a request has to be one entry, since each entry of a
signaled request is completed.

# The condition

`SysEvent.SendOk` is what it takes, step by step: a signaled request has
one entry; the head stays off the slots that wait to be polled; no
refused request leaves the head behind; and no lap ends, and no lap is
followed, where the tail loses it (`Lap.Ends`, the note in `Lap.pop`).
-/
import BxRnic.User.Proofs.Steps
import BxRnic.Lib.Lap

namespace BxRnic.User

open Run

-- ========================================================== the property

/-- The completions delivered are those of the first signaled requests
accepted, in order; and of all of them, once every entry has been sent
and polled. -/
structure Sys.SendsComplete (s : Sys) : Prop where
  inOrder : ofQueue .send s.delivered <+: s.accepted
  all : s.regs.sqRp = s.regs.sqWp →
    s.cq.xmit.filled Xmitcqe.valid = [] →
    ofQueue .send s.delivered = s.accepted

-- ========================================================= the condition

/-- The send queue, as a queue filled in laps. -/
def HwqInfo.lap (q : HwqInfo) : Lap := ⟨q.head, q.tail, q.overhead⟩

/-- The entries that are rung and have not been polled. -/
def Sys.inFlight (s : Sys) : Nat :=
  (s.regs.sqWp - s.regs.sqRp)
    + (s.cq.xmit.filled Xmitcqe.valid).length

/-- The condition on a request's turn. -/
structure SendWr.TurnOk (wr : SendWr) (s : Sys)
    (reply : Option SgPhyInfo) : Prop where
  /-- The head is not moved on for a request that is refused. -/
  skips : ¬ (wr.Ready s.qp ∧ wr.SkipsSlot s.qp reply)
  /-- A signaled request has one entry. -/
  single : wr.Ready s.qp → ¬ wr.Fails s.qp reply →
    wr.isSignaled s.qp = true → wr.entries s.qp = 1
  /-- The entries are not built over what waits to be polled. -/
  room : wr.Ready s.qp → ¬ wr.Fails s.qp reply → wr.entries s.qp ≠ 0 →
    s.qp.sq.lap.Room s.inFlight (wr.entries s.qp)
  /-- A lap ends with the tail on it, or with nothing left of it. -/
  ends : wr.TooLong s.qp → s.regs.sqWp = s.regs.sqRp →
    s.qp.sq.lap.Ends s.inFlight

instance (wr : SendWr) (s : Sys) (reply : Option SgPhyInfo) :
    Decidable (wr.TurnOk s reply) :=
  decidable_of_iff
    (¬ (wr.Ready s.qp ∧ wr.SkipsSlot s.qp reply)
      ∧ (wr.Ready s.qp → ¬ wr.Fails s.qp reply →
        wr.isSignaled s.qp = true → wr.entries s.qp = 1)
      ∧ (wr.Ready s.qp → ¬ wr.Fails s.qp reply → wr.entries s.qp ≠ 0 →
        s.qp.sq.lap.Room s.inFlight (wr.entries s.qp))
      ∧ (wr.TooLong s.qp → s.regs.sqWp = s.regs.sqRp →
        s.qp.sq.lap.Ends s.inFlight))
    ⟨fun ⟨h₁, h₂, h₃, h₄⟩ => ⟨h₁, h₂, h₃, h₄⟩,
      fun ⟨h₁, h₂, h₃, h₄⟩ => ⟨h₁, h₂, h₃, h₄⟩⟩

/-- The condition on an event: on a request's turn as above; on a round
that polls a send entry, that the tail does not start over while the lap
goes on. -/
def SysEvent.SendOk (s : Sys) : SysEvent → Prop
  | .sendTurn _ reply =>
      match s.sending with
      | [] => True
      | wr :: _ => wr.TurnOk s reply
  | .pollRound _ =>
      s.cq.xmit.head.valid = true →
        s.qp.sq.tail + 1 = s.qp.sq.overhead →
        s.qp.sq.head ≤ s.qp.sq.overhead
  | _ => True

instance (s : Sys) : ∀ e : SysEvent, Decidable (e.SendOk s)
  | .sendTurn _ reply =>
      decidable_of_iff (∀ wr ∈ s.sending.head?, wr.TurnOk s reply) (by
        unfold SysEvent.SendOk
        cases s.sending with
        | nil => simp
        | cons wr wrs => simp)
  | .pollRound _ => inferInstanceAs (Decidable (_ → _ → _))
  | .postSend _ => isTrue trivial
  | .postRecv _ => isTrue trivial
  | .recvTurn _ => isTrue trivial
  | .xmit _ => isTrue trivial
  | .arrive _ _ => isTrue trivial

-- ========================================================= the invariant

/-- The slots in flight are those the tail will go through, and what
they owe is what the accepted requests still wait for. -/
structure Sys.SendInv (s : Sys) : Prop where
  wp_eq : s.regs.sqWp = s.qp.sq.head
  rp_le : s.regs.sqRp ≤ s.regs.sqWp
  head_lt : s.qp.sq.head < s.qp.sq.maxCnt
  idx : s.qp.sq.maxWqeIdx + 1 = s.qp.sq.maxCnt
  tidy : s.cq.xmit.Tidy Xmitcqe.valid s.xmitWp
  flight : ∃ ks, ks.length = s.inFlight ∧ s.qp.sq.lap.Holds ks
    ∧ ofQueue .send s.delivered ++ ks.flatMap (owed s.qp.wqeWrIdTbl)
      = s.accepted

theorem Sys.SendInv.complete {s : Sys} (h : s.SendInv) :
    s.SendsComplete := by
  obtain ⟨ks, hlen, -, hids⟩ := h.flight
  constructor
  · exact ⟨_, hids⟩
  · intro hsent hpolled
    have hzero : s.inFlight = 0 := by
      unfold Sys.inFlight
      rw [hsent, hpolled, Nat.sub_self]
      rfl
    rw [hzero] at hlen
    rwa [List.eq_nil_of_length_eq_zero hlen, List.flatMap_nil,
      List.append_nil] at hids

theorem Sys.start_sendInv (c : CreateQp) (qpState : QpState)
    (attr : QpChangeInfo) : (Sys.start c qpState attr).SendInv where
  wp_eq := rfl
  rp_le := Nat.le_refl _
  head_lt := c.numWqe_pos
  idx := Nat.sub_add_cancel c.numWqe_pos
  tidy := FlagRing.tidy_of_clear fun _ => rfl
  flight := by
    refine ⟨[], ?_, Lap.holds_start ?_, rfl⟩
    · unfold Sys.inFlight
      rw [FlagRing.filled_of_not_flag rfl]
      rfl
    · exact Nat.succ_pos _

-- ============================================================== every step

/-- A request that is not signaled owes nothing, one that is owes one
completion. -/
theorem flatMap_owed_new {tbl : Nat → WqeWrId} {wr : SendWr} {qp : Qp}
    {head k : Nat} (hsingle : wr.isSignaled qp = true → k = 1)
    (hnew : ∀ i, head ≤ i → i < head + k → tbl i = wr.wqeWrId qp) :
    (List.range' head k).flatMap (owed tbl)
      = if wr.isSignaled qp then [wr.wrId] else [] := by
  cases hsig : wr.isSignaled qp with
  | true =>
      obtain rfl := hsingle hsig
      have hid := hnew head (Nat.le_refl _) (Nat.lt_succ_self _)
      rw [List.range'_one, List.flatMap_singleton, owed, hid]
      simp [SendWr.wqeWrId, hsig]
  | false =>
      refine List.flatMap_eq_nil_iff.2 fun i hi => ?_
      rw [List.mem_range'_1] at hi
      rw [owed, hnew i hi.1 hi.2]
      simp [SendWr.wqeWrId, hsig]

/-- A request is accepted. -/
theorem Sys.SendInv.accept {s : Sys} (h : s.SendInv) {wr : SendWr}
    {qp' : Qp} (hready : wr.Ready s.qp)
    (htakes : s.qp.Takes wr (wr.entries s.qp) qp')
    (hsingle : wr.isSignaled s.qp = true → wr.entries s.qp = 1)
    (hroom : wr.entries s.qp ≠ 0 →
      s.qp.sq.lap.Room s.inFlight (wr.entries s.qp))
    (sending : List SendWr) :
    Sys.SendInv
      { s with
        qp := qp', regs := ringSqHw qp' s.regs wr, sending := sending
        accepted :=
          if wr.isSignaled s.qp then s.accepted ++ [wr.wrId]
          else s.accepted } := by
  obtain ⟨ks, hlen, hholds, hids⟩ := h.flight
  have hidx := h.idx
  have hrp := h.rp_le
  have hfits : s.qp.sq.head + wr.entries s.qp < s.qp.sq.maxCnt := by
    have hle := wr.entries_le s.qp
    have hlt := hready.2
    unfold sqhwqFreeCnt at hlt
    omega
  have hsq : qp'.sq
      = { s.qp.sq with head := s.qp.sq.head + wr.entries s.qp } := by
    rw [htakes.sq_eq, HwqInfo.advance_eq hfits]
  have htbl : ∀ i, qp'.wqeWrIdTbl i
      = if s.qp.sq.head ≤ i ∧ i < s.qp.sq.head + wr.entries s.qp then
          wr.wqeWrId s.qp
        else s.qp.wqeWrIdTbl i := by
    intro i
    rw [htakes.tbl_eq, recordSlots_eq i hfits]
  have hregs : ringSqHw qp' s.regs wr
      = { s.regs with sqWp := s.qp.sq.head + wr.entries s.qp } := by
    unfold ringSqHw
    split
    · rename_i hnone
      rw [SendWr.entries_of_not_rung s.qp hnone, Nat.add_zero, ← h.wp_eq]
    · rw [hsq]
  generalize hk : wr.entries s.qp = k at *
  constructor
  · rw [hregs, hsq]
  · rw [hregs]
    show s.regs.sqRp ≤ s.qp.sq.head + k
    rw [← h.wp_eq]
    omega
  · rw [hsq]
    exact hfits
  · rw [hsq]
    exact hidx
  · exact h.tidy
  · refine ⟨ks ++ List.range' s.qp.sq.head k, ?_, ?_, ?_⟩
    · rw [List.length_append, List.length_range', hlen]
      unfold Sys.inFlight
      rw [hregs, ← h.wp_eq]
      show _ = s.regs.sqWp + k - s.regs.sqRp
        + (s.cq.xmit.filled Xmitcqe.valid).length
      omega
    · rw [hsq]
      by_cases hzero : k = 0
      · rw [hzero, List.range'_zero, List.append_nil]
        exact hholds
      · exact hholds.push (by rw [hlen]; exact hroom hzero)
    · have hold : ks.flatMap (owed qp'.wqeWrIdTbl)
          = ks.flatMap (owed s.qp.wqeWrIdTbl) := by
        refine List.flatMap_congr fun i hi => ?_
        have hkeep : qp'.wqeWrIdTbl i = s.qp.wqeWrIdTbl i := by
          rw [htbl, if_neg]
          rintro ⟨hle, hlt⟩
          refine hholds.notMem_of_room ?_ hle hlt hi
          rw [hlen]
          exact hroom (by omega)
        unfold owed
        rw [hkeep]
      rw [List.flatMap_append, hold, ← List.append_assoc, hids,
        flatMap_owed_new hsingle fun i hle hlt => by
          rw [htbl, if_pos ⟨hle, hlt⟩]]
      split
      · rfl
      · rw [List.append_nil]

/-- The queue moves back to its start. -/
theorem Sys.SendInv.reset {s : Sys} (h : s.SendInv)
    (hends : s.regs.sqWp = s.regs.sqRp → s.qp.sq.lap.Ends s.inFlight)
    (sending : List SendWr) :
    Sys.SendInv
      { s with
        qp := (initSqPtr s.qp s.regs).1
        regs := (initSqPtr s.qp s.regs).2, sending := sending } := by
  unfold initSqPtr
  split
  · rename_i hsent
    obtain ⟨ks, hlen, hholds, hids⟩ := h.flight
    constructor
    · rfl
    · exact Nat.le_refl _
    · exact Nat.lt_of_le_of_lt (Nat.zero_le _) h.head_lt
    · exact h.idx
    · exact h.tidy
    · refine ⟨ks, ?_, hholds.restart ?_, hids⟩
      · rw [hlen]
        unfold Sys.inFlight
        rw [hsent, Nat.sub_self, Nat.sub_self]
      · rw [hlen]
        exact hends hsent
  · exact ⟨h.wp_eq, h.rp_le, h.head_lt, h.idx, h.tidy, h.flight⟩

/-- A turn of `bxroce_post_send`. -/
theorem Sys.SendInv.sendTurn {s : Sys} (h : s.SendInv)
    (mrList : List MrSgInfo) (reply : Option SgPhyInfo)
    (hok : (SysEvent.sendTurn mrList reply).SendOk s) :
    (s.sendTurn mrList reply).SendInv := by
  unfold Sys.sendTurn
  unfold SysEvent.SendOk at hok
  cases hsending : s.sending with
  | nil => exact h
  | cons wr wrs =>
      rw [hsending] at hok
      simp only
      have hturn := postSendTurn_cases mrList s.qp s.regs wr reply
      generalize postSendTurn mrList s.qp s.regs wr reply = r at hturn
      cases hturn with
      | next hready hfails htakes =>
          have hnext := h.accept hready htakes
            (hok.single hready hfails) (hok.room hready hfails) wrs
          simpa using hnext
      | again hlong =>
          have hagain := h.reset (hok.ends hlong) (wr :: wrs)
          simpa using hagain
      | stop hsends hkeeps =>
          have hkeeps' : s.qp.Keeps _ := hkeeps hok.skips ▸ hsends
          obtain ⟨_, _, _, _, rfl⟩ := hkeeps'
          simp only [reduceCtorEq, false_and, if_false]
          exact ⟨h.wp_eq, h.rp_le, h.head_lt, h.idx, h.tidy, h.flight⟩

/-- A turn of `bxroce_post_recv`. -/
theorem Sys.SendInv.recvTurn {s : Sys} (h : s.SendInv)
    (mrList : List MrSgInfo) : (s.recvTurn mrList).SendInv := by
  unfold Sys.recvTurn
  cases s.receiving with
  | nil => exact h
  | cons wr wrs =>
      obtain ⟨hsq, htbl, hwp, hrp⟩ :=
        postRecvTurn_send mrList s.qp s.regs wr
      constructor
      · rw [hwp, hsq]
        exact h.wp_eq
      · rw [hwp, hrp]
        exact h.rp_le
      · rw [hsq]
        exact h.head_lt
      · rw [hsq]
        exact h.idx
      · exact h.tidy
      · unfold Sys.inFlight
        rw [hwp, hrp, hsq, htbl]
        exact h.flight

/-- An entry is sent. -/
theorem Sys.SendInv.xmit {s : Sys} (h : s.SendInv) (cqe : Xmitcqe) :
    (s.xmit cqe).SendInv := by
  unfold Sys.xmit
  split
  · exact h
  · rename_i hgo
    rw [not_or, not_or, Bool.not_eq_false, Bool.not_eq_true] at hgo
    obtain ⟨hleft, hcqe, hfree⟩ := hgo
    obtain ⟨hfilled, htidy⟩ := h.tidy.produce hfree hcqe
    have hle := h.rp_le
    have hwp := h.wp_eq
    have hhead := h.head_lt
    have hrp : (s.regs.sqRp + 1) % s.qp.sq.maxCnt = s.regs.sqRp + 1 :=
      Nat.mod_eq_of_lt (by omega)
    constructor
    · exact hwp
    · show (s.regs.sqRp + 1) % s.qp.sq.maxCnt ≤ s.regs.sqWp
      omega
    · exact hhead
    · exact h.idx
    · exact htidy
    · obtain ⟨ks, hlen, hholds, hids⟩ := h.flight
      refine ⟨ks, ?_, hholds, hids⟩
      rw [hlen]
      unfold Sys.inFlight
      rw [hfilled, List.length_append, List.length_singleton, hrp]
      show _ = s.regs.sqWp - (s.regs.sqRp + 1)
        + ((s.cq.xmit.filled Xmitcqe.valid).length + 1)
      omega

/-- Messages arrive. -/
theorem Sys.SendInv.arrive {s : Sys} (h : s.SendInv) (receives : Nat)
    (cqe : Rxcqe) : (s.arrive receives cqe).SendInv := by
  unfold Sys.arrive
  split
  · exact h
  · exact ⟨h.wp_eq, h.rp_le, h.head_lt, h.idx, h.tidy, h.flight⟩

/-- A round of `bxroce_poll_cq`. -/
theorem Sys.SendInv.pollRound {s : Sys} (h : s.SendInv)
    (ibwc : Nat → Wc) (hok : (SysEvent.pollRound ibwc).SendOk s) :
    (s.pollRound ibwc).SendInv := by
  unfold SysEvent.SendOk at hok
  obtain ⟨ks, hlen, hholds, hids⟩ := h.flight
  have hpolled := s.pollRound_polled ibwc
  generalize s.pollRound ibwc = s' at hpolled
  cases hpolled with
  | idle => exact h
  | dies => exact ⟨h.wp_eq, h.rp_le, h.head_lt, h.idx, h.tidy, h.flight⟩
  | took hxmit hrx =>
      -- the receive part delivers nothing for the send queue
      have hrecv := hrx.ofQueue_send
      cases hxmit with
      | idle hvalid =>
          refine ⟨h.wp_eq, h.rp_le, h.head_lt, h.idx, h.tidy, ks, hlen,
            hholds, ?_⟩
          rwa [List.nil_append, ofQueue_append, hrecv, List.append_nil]
      | taken hvalid hsq =>
          have hpos : s.qp.sq.overhead ≠ 0 :=
            Nat.ne_of_gt hholds.limit_pos
          unfold hwqIncSqtail at hsq
          rw [if_neg hpos] at hsq
          obtain rfl := Option.some.inj hsq
          have hfilled := FlagRing.filled_of_flag Xmitcqe.zero hvalid rfl
          -- the entry polled is the oldest in flight
          cases ks with
          | nil =>
              unfold Sys.inFlight at hlen
              rw [hfilled, List.length_cons, List.length_nil] at hlen
              omega
          | cons k ks =>
              obtain ⟨rfl, hpop⟩ := hholds.pop (hok hvalid)
              refine ⟨h.wp_eq, h.rp_le, h.head_lt, h.idx,
                h.tidy.consume hvalid rfl, ks, ?_, hpop, ?_⟩
              · unfold Sys.inFlight at hlen ⊢
                rw [hfilled, List.length_cons, List.length_cons] at hlen
                show ks.length = s.regs.sqWp - s.regs.sqRp
                  + ((s.cq.xmit.consume .zero).filled _).length
                omega
              · rw [List.flatMap_cons] at hids
                rw [ofQueue_append, ofQueue_append, hrecv,
                  List.append_nil, ofQueue_send_sendIds,
                  List.append_assoc]
                exact hids

/-- The invariant is kept by every step that meets the condition. -/
theorem Sys.SendInv.step (s : Sys) (e : SysEvent) (h : s.SendInv)
    (hok : e.SendOk s) : (s.step e).SendInv := by
  unfold Sys.step
  split
  · exact h
  · cases e with
    | postSend wrs =>
        simp only
        split
        · exact ⟨h.wp_eq, h.rp_le, h.head_lt, h.idx, h.tidy, h.flight⟩
        · exact h
    | sendTurn mrList reply => exact h.sendTurn mrList reply hok
    | postRecv wrs =>
        simp only
        split
        · exact ⟨h.wp_eq, h.rp_le, h.head_lt, h.idx, h.tidy, h.flight⟩
        · exact h
    | recvTurn mrList => exact h.recvTurn mrList
    | xmit cqe => exact h.xmit cqe
    | arrive receives cqe => exact h.arrive receives cqe
    | pollRound ibwc => exact h.pollRound ibwc hok

-- ================================================================= runs

/-- Over every run of a queue pair whose steps all meet the condition,
the send completions are right throughout. -/
theorem sends_complete (c : CreateQp) (qpState : QpState)
    (attr : QpChangeInfo) (events : List SysEvent)
    (hok : Each Sys.step (fun s e => e.SendOk s)
      (Sys.start c qpState attr) events) :
    Always Sys.step Sys.SendsComplete (Sys.start c qpState attr)
      events :=
  (hok.always Sys.SendInv.step (Sys.start_sendInv c qpState attr)).mono
    fun _ h => h.complete

/-- Two sends on a ring of three entries, the queue moved back to its
start in between. -/
theorem sends_complete_two_laps :
    let c : CreateQp :=
      { qpId := 2, qpType := .rc, numWqeAllocated := 3,
        numRqeAllocated := 256, maxSendSge := 1, maxRecvSge := 4,
        sqSigAll := 0, sqVa := fun _ => .zero, rqVa := fun _ => .zero,
        addrtbl := ⟨0, 0, 0⟩, numWqe_pos := by decide,
        numRqe_pos := by decide }
    let wr (wrId : U64) : SendWr :=
      { wrId := wrId, sgList := [⟨0x4000, 64, 1⟩], opcode := .send
        sendSignaled := true, sendInline := false, immData := 0
        remoteAddr := 0, rkey := 0, ah := none, remoteQpn := 0
        remoteQkey := 0 }
    let turn : SysEvent := .sendTurn [] none
    let poll : SysEvent := .pollRound fun _ => ⟨0, 0, 0, 0, 0, 0, 0, 0⟩
    let events : List SysEvent :=
      [.postSend [wr 7, wr 8], turn, .xmit ⟨0xff⟩, turn, poll, turn,
        .xmit ⟨0xff⟩, poll]
    let start := Sys.start c .rts (QpChangeInfo.initial 0)
    ofQueue .send (exec Sys.step start events).delivered = [7, 8]
      ∧ Always Sys.step Sys.SendsComplete start events := by
  intro c wr turn poll events start
  exact ⟨by decide +kernel,
    sends_complete c .rts _ events (by decide +kernel)⟩

/-- A signaled send of two elements is completed twice. -/
theorem two_elements_complete_twice :
    let c : CreateQp :=
      { qpId := 2, qpType := .rc, numWqeAllocated := 2048,
        numRqeAllocated := 256, maxSendSge := 4, maxRecvSge := 4,
        sqSigAll := 0, sqVa := fun _ => .zero, rqVa := fun _ => .zero,
        addrtbl := ⟨0, 0, 0⟩, numWqe_pos := by decide,
        numRqe_pos := by decide }
    let wr : SendWr :=
      { wrId := 7, sgList := [⟨0x4000, 64, 1⟩, ⟨0x5000, 64, 1⟩]
        opcode := .send, sendSignaled := true, sendInline := false
        immData := 0, remoteAddr := 0, rkey := 0, ah := none
        remoteQpn := 0, remoteQkey := 0 }
    let poll : SysEvent := .pollRound fun _ => ⟨0, 0, 0, 0, 0, 0, 0, 0⟩
    let events : List SysEvent :=
      [.postSend [wr], .sendTurn [] none, .xmit ⟨0xff⟩, .xmit ⟨0xff⟩,
        poll, poll]
    let start := Sys.start c .rts (QpChangeInfo.initial 0)
    (exec Sys.step start events).accepted = [7]
      ∧ ofQueue .send (exec Sys.step start events).delivered = [7, 7]
      ∧ ¬ Always Sys.step Sys.SendsComplete start events := by
  intro c wr poll events start
  have haccepted : (exec Sys.step start events).accepted = [7] := by
    decide +kernel
  have hdelivered :
      ofQueue .send (exec Sys.step start events).delivered = [7, 7] := by
    decide +kernel
  refine ⟨haccepted, hdelivered, fun h => ?_⟩
  have hle := h.last.inOrder.length_le
  rw [haccepted, hdelivered] at hle
  exact absurd hle (by decide)

end BxRnic.User
