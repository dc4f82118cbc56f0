/-
`bxroce_poll_cq` and the caller's array: whether a call stays within
`num_entries` for every content of the rings.

# What a round may write

The counter is tested between rounds only. A round writes the completion
of a send entry, if one is owed, and one completion for each receive
entry that a batch reports. `batches` lists, from the rings and the
queue pair alone, how many completions each round to come will write;
`none` stands for a round that divides by zero.

# When it fits

`Fits` is the exact condition: going through the rounds in order, the
counter hits zero after some round, or the rounds run out, before one
writes more than there is room for. The array is then respected, and what
is left comes out of a later call as if the two were one
(`poll_respects_iff`).
-/
import BxRnic.User.Proofs.Rounds
import BxRnic.User.Lifecycle

namespace BxRnic.User

-- ========================================================== the property

/-- Two calls in one: `s` the end of a first one, `s'` that of a later
call over the rest of the array. -/
def Poll.join (s s' : Poll) : Poll where
  cq := s'.cq
  qp := s'.qp
  numEntries := s.numEntries + s'.numEntries
  i := s.i + s'.i
  ibwc := s.ibwc
  written := s.written ++ s'.written

/-- A call returns, with the number of completions it wrote, which is
within `numEntries`; and what did not fit is there for a later call: a
call with room for `m` more does what this one and then one for `m`
do. -/
def Respects (cq : Cq) (qp : Qp) (numEntries : Nat) (ibwc : Nat → Wc) :
    Prop :=
  ∃ s, pollHwcq cq qp numEntries ibwc = some s
    ∧ s.i = s.written.length
    ∧ s.written.length ≤ numEntries
    ∧ ∀ m : Nat, pollHwcq cq qp (numEntries + m) ibwc
        = (pollHwcq s.cq s.qp m
            fun j => ibwc (s.written.length + j)).map s.join

-- ========================================================= the condition

/-- The completions of the send entries found in turn. -/
def xmitBatches (tbl : Nat → WqeWrId) :
    HwqInfo → List Xmitcqe → List (Option Nat)
  | _, [] => []
  | sq, _ :: cqes =>
      match hwqIncSqtail sq with
      | none => [none]
      | some sq' =>
          some (if (tbl sq.tail).signaled then 1 else 0)
            :: xmitBatches tbl sq' cqes

/-- The completions of the receive batches found in turn. -/
def rxBatches : U32 → U32 → List Rxcqe → List (Option Nat)
  | _, _, [] => []
  | overhead, phase, cqe :: cqes =>
      match rxBatch overhead phase cqe with
      | none => [none]
      | some (k, phase') =>
          some k :: rxBatches (cqe.bth6487Lo.setWidth 32) phase' cqes

/-- Rounds take one entry from each ring while both have one. -/
def bothBatches : List (Option Nat) → List (Option Nat) → List (Option Nat)
  | [], ys => ys
  | x :: xs, [] => x :: xs
  | x :: xs, y :: ys =>
      (x.bind fun a => y.map fun b => a + b) :: bothBatches xs ys

/-- What is to come from the `xmit` ring. -/
def xmitRounds (cq : Cq) (qp : Qp) : List (Option Nat) :=
  xmitBatches qp.wqeWrIdTbl qp.sq (cq.xmit.filled Xmitcqe.valid)

/-- What is to come from the `rx` ring. -/
def rxRounds (cq : Cq) (qp : Qp) : List (Option Nat) :=
  rxBatches (BitVec.ofNat 32 qp.rq.overhead) cq.phase
    (cq.rx.filled Rxcqe.valid)

/-- What the rounds to come will write. -/
def batches (cq : Cq) (qp : Qp) : List (Option Nat) :=
  bothBatches (xmitRounds cq qp) (rxRounds cq qp)

/-- The condition: no round writes past the end of the array. -/
def Fits : Nat → List (Option Nat) → Prop
  | _, [] => True
  | n, none :: _ => n = 0
  | n, some k :: ks => n = 0 ∨ k ≤ n ∧ Fits (n - k) ks

-- ============================================================== one round

theorem length_xmitBatches (tbl : Nat → WqeWrId) (cqes : List Xmitcqe) :
    ∀ sq : HwqInfo, (xmitBatches tbl sq cqes).length ≤ cqes.length := by
  induction cqes with
  | nil => exact fun _ => Nat.le_refl _
  | cons cqe cqes ih =>
      intro sq
      rw [xmitBatches]
      cases hwqIncSqtail sq with
      | none => simp
      | some sq' => simpa using ih sq'

theorem length_rxBatches (cqes : List Rxcqe) :
    ∀ overhead phase : U32,
      (rxBatches overhead phase cqes).length ≤ cqes.length := by
  induction cqes with
  | nil => exact fun _ _ => Nat.le_refl _
  | cons cqe cqes ih =>
      intro overhead phase
      rw [rxBatches]
      cases rxBatch overhead phase cqe with
      | none => simp
      | some found => simpa using ih _ found.2

theorem length_bothBatches (xs : List (Option Nat)) :
    ∀ ys : List (Option Nat),
      (bothBatches xs ys).length ≤ xs.length + ys.length := by
  induction xs with
  | nil =>
      intro ys
      rw [bothBatches]
      omega
  | cons x xs ih =>
      intro ys
      cases ys with
      | nil => exact Nat.le_refl _
      | cons y ys =>
          rw [bothBatches, List.length_cons, List.length_cons,
            List.length_cons]
          have hle := ih ys
          omega

/-- There are no more rounds than ring entries. -/
theorem length_batches (cq : Cq) (qp : Qp) :
    (batches cq qp).length < 2 * cqEntries + 1 := by
  have hboth := length_bothBatches (xmitRounds cq qp) (rxRounds cq qp)
  have hxmit : (xmitRounds cq qp).length ≤ cqEntries :=
    Nat.le_trans (length_xmitBatches _ _ _) (cq.xmit.length_filled_le _)
  have hrx : (rxRounds cq qp).length ≤ cqEntries :=
    Nat.le_trans (length_rxBatches _ _ _) (cq.rx.length_filled_le _)
  unfold batches
  omega

/-- No entry is there to be read. -/
theorem batches_of_idle {cq : Cq} {qp : Qp}
    (hxmit : cq.xmit.head.valid = false)
    (hrx : cq.rx.head.valid = false) : batches cq qp = [] := by
  unfold batches xmitRounds rxRounds
  rw [FlagRing.filled_of_not_flag hxmit, FlagRing.filled_of_not_flag hrx]
  rfl

/-- The `xmit` part of a round: nothing, a division by zero, or the
first item of its list. -/
theorem xmitRound_cases (s : Poll) :
    s.cq.xmit.head.valid = false ∧ s.xmitRound = some s
        ∧ xmitRounds s.cq s.qp = []
      ∨ s.xmitRound = none ∧ xmitRounds s.cq s.qp = [none]
      ∨ ∃ cq qp wcs, s.xmitRound = some (s.after cq qp wcs)
        ∧ xmitRounds s.cq s.qp = some wcs.length :: xmitRounds cq qp
        ∧ cq.rx = s.cq.rx ∧ cq.phase = s.cq.phase ∧ qp.rq = s.qp.rq := by
  unfold xmitRounds
  cases hvalid : s.cq.xmit.head.valid with
  | false =>
      refine Or.inl ⟨rfl, xmitRound_of_not_valid hvalid, ?_⟩
      rw [FlagRing.filled_of_not_flag hvalid]
      rfl
  | true =>
      obtain ⟨wcs, hids, hround⟩ := xmitRound_of_valid hvalid
      rw [FlagRing.filled_of_flag Xmitcqe.zero hvalid rfl, xmitBatches]
      cases hsq : hwqIncSqtail s.qp.sq with
      | none =>
          rw [hsq] at hround
          exact Or.inr (Or.inl ⟨hround, rfl⟩)
      | some sq =>
          rw [hsq] at hround
          refine Or.inr (Or.inr ⟨_, _, wcs, hround, ?_, rfl, rfl, rfl⟩)
          have hlen := congrArg List.length hids
          rw [length_ids, sendIds] at hlen
          rw [hlen]
          cases (s.qp.wqeWrIdTbl s.qp.sq.tail).signaled with
          | false => rfl
          | true => rfl

/-- The `rx` part likewise. -/
theorem rxRound_cases (s : Poll) :
    s.cq.rx.head.valid = false ∧ s.rxRound = some s
        ∧ rxRounds s.cq s.qp = []
      ∨ s.rxRound = none ∧ (∃ ks, rxRounds s.cq s.qp = none :: ks)
      ∨ ∃ cq qp wcs, s.rxRound = some (s.after cq qp wcs)
        ∧ rxRounds s.cq s.qp = some wcs.length :: rxRounds cq qp
        ∧ xmitRounds cq qp = xmitRounds s.cq s.qp := by
  unfold rxRounds
  cases hvalid : s.cq.rx.head.valid with
  | false =>
      refine Or.inl ⟨rfl, rxRound_of_not_valid hvalid, ?_⟩
      rw [FlagRing.filled_of_not_flag hvalid]
      rfl
  | true =>
      rw [FlagRing.filled_of_flag Rxcqe.zero hvalid rfl, rxBatches]
      cases hb : rxBatch (BitVec.ofNat 32 s.qp.rq.overhead) s.cq.phase
          s.cq.rx.head with
      | none => exact Or.inr (Or.inl ⟨rxRound_of_trap hvalid hb, [], rfl⟩)
      | some found =>
          obtain ⟨k, phase⟩ := found
          obtain ⟨wcs, hids, hround⟩ := rxRound_of_valid hvalid hb
          refine Or.inr (Or.inr ⟨_, _, wcs, hround, ?_, rfl⟩)
          have hlen := congrArg List.length hids
          rw [length_ids, length_recvIds] at hlen
          rw [hlen, overhead_popRq, BitVec.ofNat_toNat]

/-- A round: it divides by zero, or writes the completions the list
says. -/
theorem round_batches {s : Poll}
    (h : s.cq.xmit.head.valid = true ∨ s.cq.rx.head.valid = true) :
    s.round = none ∧ (∃ ks, batches s.cq s.qp = none :: ks)
      ∨ ∃ cq qp wcs, s.round = some (s.after cq qp wcs)
        ∧ batches s.cq s.qp = some wcs.length :: batches cq qp := by
  unfold Poll.round batches
  rcases xmitRound_cases s with ⟨hx, hround, hxs⟩ | ⟨hround, hxs⟩
    | ⟨cq, qp, wcs, hround, hxs, hrx, hphase, hrq⟩
  · -- only a receive batch
    have hr : s.cq.rx.head.valid = true := by simpa [hx] using h
    rw [hround, hxs, Option.bind_some]
    rcases rxRound_cases s with ⟨hr', -, -⟩ | ⟨hround, ks, hrs⟩
      | ⟨cq, qp, wcs, hround, hrs, hsame⟩
    · rw [hr] at hr'
      cases hr'
    · exact Or.inl ⟨by rw [hround]; rfl, ks, hrs⟩
    · obtain ⟨tx, htx⟩ := txRound_eq (s.after cq qp wcs)
      refine Or.inr ⟨{ cq with tx := tx }, qp, wcs, ?_, ?_⟩
      · rw [hround, Option.map_some, htx]
        rfl
      · rw [hrs, show xmitRounds { cq with tx := tx } qp = [] from
          hsame.trans hxs]
        rfl
  · -- the send entry divides by zero
    refine Or.inl ⟨by rw [hround]; rfl, ?_⟩
    rw [hxs]
    cases rxRounds s.cq s.qp with
    | nil => exact ⟨[], rfl⟩
    | cons k ks => exact ⟨ks, rfl⟩
  · -- a send entry, and perhaps a batch
    have hrs' : rxRounds cq qp = rxRounds s.cq s.qp := by
      unfold rxRounds
      rw [hrx, hphase, hrq]
    rw [hround, hxs, Option.bind_some, ← hrs']
    rcases rxRound_cases (s.after cq qp wcs) with
      ⟨-, hround, hrs⟩ | ⟨hround, ks, hrs⟩
        | ⟨cq', qp', wcs', hround, hrs, hsame⟩
    · obtain ⟨tx, htx⟩ := txRound_eq (s.after cq qp wcs)
      refine Or.inr ⟨{ cq with tx := tx }, qp, wcs, ?_, ?_⟩
      · rw [hround, Option.map_some, htx]
        rfl
      · rw [show rxRounds cq qp = [] from hrs,
          show rxRounds { cq with tx := tx } qp = [] from hrs, bothBatches]
        show _ = some wcs.length :: bothBatches (xmitRounds cq qp) []
        cases xmitRounds cq qp with
        | nil => rfl
        | cons x xs => rfl
    · refine Or.inl ⟨by rw [hround]; rfl, bothBatches (xmitRounds cq qp) ks, ?_⟩
      rw [show rxRounds cq qp = none :: ks from hrs]
      rfl
    · rw [Poll.after_after] at hround
      obtain ⟨tx, htx⟩ := txRound_eq (s.after cq' qp' (wcs ++ wcs'))
      refine Or.inr ⟨{ cq' with tx := tx }, qp', wcs ++ wcs', ?_, ?_⟩
      · rw [hround, Option.map_some, htx]
        rfl
      · rw [show rxRounds cq qp = some wcs'.length :: rxRounds cq' qp'
            from hrs,
          show xmitRounds { cq' with tx := tx } qp' = xmitRounds cq qp
            from hsame, List.length_append]
        rfl

-- =============================================================== the loop

/-- What stops the loop: no room, or nothing to read. -/
theorem Poll.stops_iff {s : Poll} :
    s.stops = true
      ↔ s.numEntries = 0
        ∨ s.cq.xmit.head.valid = false ∧ s.cq.rx.head.valid = false := by
  unfold Poll.stops
  simp

/-- A loop that goes on finds an entry. -/
theorem Poll.valid_of_not_stops {s : Poll} (h : s.stops = false) :
    s.numEntries ≠ 0
      ∧ (s.cq.xmit.head.valid = true ∨ s.cq.rx.head.valid = true) := by
  have hnot : ¬ s.stops = true := by simp [h]
  rw [Poll.stops_iff, not_or, not_and_or] at hnot
  simpa using hnot

theorem pollLoop_of_stops {s : Poll} (h : s.stops = true) (fuel : Nat) :
    pollLoop (fuel + 1) s = some s := by
  rw [pollLoop, if_pos h]

theorem pollLoop_of_not_stops {s : Poll} (h : s.stops = false)
    (fuel : Nat) : pollLoop (fuel + 1) s = s.round.bind (pollLoop fuel) := by
  rw [pollLoop, if_neg (by simp [h])]

/-- The loop makes one round for each item of the list at most: any fuel
beyond that gives the same. -/
theorem pollLoop_fuel {fuel : Nat} : ∀ {s : Poll} {fuel' : Nat},
    (batches s.cq s.qp).length < fuel →
    (batches s.cq s.qp).length < fuel' →
    pollLoop fuel s = pollLoop fuel' s := by
  induction fuel with
  | zero => exact fun h => absurd h (Nat.not_lt_zero _)
  | succ fuel ih =>
      intro s fuel' hfuel hfuel'
      obtain ⟨fuel', rfl⟩ : ∃ f, fuel' = f + 1 :=
        ⟨fuel' - 1, by omega⟩
      cases hstops : s.stops with
      | true => rw [pollLoop_of_stops hstops, pollLoop_of_stops hstops]
      | false =>
          rw [pollLoop_of_not_stops hstops, pollLoop_of_not_stops hstops]
          rcases round_batches (Poll.valid_of_not_stops hstops).2 with
            ⟨hround, -⟩ | ⟨cq, qp, wcs, hround, hks⟩
          · rw [hround]
            rfl
          · rw [hks, List.length_cons] at hfuel hfuel'
            rw [hround, Option.bind_some, Option.bind_some]
            exact ih (Nat.lt_of_succ_lt_succ hfuel)
              (Nat.lt_of_succ_lt_succ hfuel')

/-- The loop's variables stay together: what is written is counted, and
comes off the room there is. -/
theorem pollLoop_after {fuel : Nat} : ∀ {s s' : Poll},
    pollLoop fuel s = some s' →
    ∃ wcs, s' = s.after s'.cq s'.qp wcs := by
  induction fuel with
  | zero => exact fun h => absurd h (by simp [pollLoop])
  | succ fuel ih =>
      intro s s' h
      cases hstops : s.stops with
      | true =>
          rw [pollLoop_of_stops hstops] at h
          obtain rfl := Option.some.inj h
          exact ⟨[], (Poll.after_nil s).symm⟩
      | false =>
          rw [pollLoop_of_not_stops hstops] at h
          rcases round_batches (Poll.valid_of_not_stops hstops).2 with
            ⟨hround, -⟩ | ⟨cq, qp, wcs, hround, -⟩
          · rw [hround] at h
            cases h
          · rw [hround, Option.bind_some] at h
            obtain ⟨wcs', hs'⟩ := ih h
            rw [Poll.after_after] at hs'
            exact ⟨_, hs'⟩

/-- Rounds that fit end the loop with room to spare, or none. -/
theorem pollLoop_fits {fuel : Nat} : ∀ {s : Poll} {n : Nat},
    (batches s.cq s.qp).length < fuel → s.numEntries = n →
    Fits n (batches s.cq s.qp) →
    ∃ s', pollLoop fuel s = some s' ∧ 0 ≤ s'.numEntries
      ∧ s'.stops = true := by
  induction fuel with
  | zero => exact fun h => absurd h (Nat.not_lt_zero _)
  | succ fuel ih =>
      intro s n hfuel hn hfits
      cases hstops : s.stops with
      | true =>
          exact ⟨s, pollLoop_of_stops hstops fuel, by omega, hstops⟩
      | false =>
          obtain ⟨hroom, hvalid⟩ := Poll.valid_of_not_stops hstops
          rw [pollLoop_of_not_stops hstops]
          rcases round_batches hvalid with
            ⟨-, ks, hks⟩ | ⟨cq, qp, wcs, hround, hks⟩
          · -- a division by zero only fits when there is no room
            rw [hks, Fits] at hfits
            omega
          · rw [hks, List.length_cons] at hfuel
            rw [hks, Fits] at hfits
            rcases hfits with hzero | ⟨hle, hfits⟩
            · omega
            · rw [hround, Option.bind_some]
              refine ih (n := n - wcs.length)
                (Nat.lt_of_succ_lt_succ hfuel) ?_ hfits
              simp only [Poll.after]
              omega

/-- Once the array is overrun the counter stays negative. -/
theorem pollLoop_negative {fuel : Nat} {s s' : Poll}
    (h : pollLoop fuel s = some s') : s'.numEntries ≤ s.numEntries := by
  obtain ⟨wcs, hs'⟩ := pollLoop_after h
  rw [hs']
  simp only [Poll.after]
  omega

/-- Rounds that do not fit divide by zero or overrun the array. -/
theorem pollLoop_not_fits {fuel : Nat} : ∀ {s s' : Poll} {n : Nat},
    s.numEntries = n → ¬ Fits n (batches s.cq s.qp) →
    pollLoop fuel s = some s' → s'.numEntries < 0 := by
  induction fuel with
  | zero => exact fun _ _ h => absurd h (by simp [pollLoop])
  | succ fuel ih =>
      intro s s' n hn hfits h
      cases hstops : s.stops with
      | true =>
          refine absurd ?_ hfits
          cases Poll.stops_iff.1 hstops with
          | inl hzero =>
              have h0 : n = 0 := by omega
              rw [h0]
              cases batches s.cq s.qp with
              | nil => trivial
              | cons k ks =>
                  cases k with
                  | none => rfl
                  | some k => exact Or.inl rfl
          | inr hidle =>
              rw [batches_of_idle hidle.1 hidle.2]
              trivial
      | false =>
          rw [pollLoop_of_not_stops hstops] at h
          rcases round_batches (Poll.valid_of_not_stops hstops).2 with
            ⟨hround, -⟩ | ⟨cq, qp, wcs, hround, hks⟩
          · rw [hround] at h
            cases h
          · rw [hround, Option.bind_some] at h
            rw [hks, Fits, not_or, not_and_or] at hfits
            have hroom : (s.after cq qp wcs).numEntries
                = n - wcs.length := by
              simp only [Poll.after, hn]
            by_cases hle : wcs.length ≤ n
            · refine ih (n := n - wcs.length) (by omega) ?_ h
              exact hfits.2.resolve_left (not_not.2 hle)
            · have hneg := pollLoop_negative h
              omega

-- =========================================================== two calls

section Join

variable {e s : Poll}

private theorem join_slot
    (h : s.ibwc = fun j => e.ibwc (e.written.length + j)) :
    (e.join s).slot = s.slot := by
  simp only [Poll.slot, Poll.join, List.length_append, h]

private theorem join_write (queue : Queue) (wc : Wc) :
    (e.join s).write queue wc = e.join (s.write queue wc) := by
  simp only [Poll.write, Poll.join, List.append_assoc, Poll.mk.injEq,
    true_and, and_true]
  omega

private theorem join_xmitRound
    (h : s.ibwc = fun j => e.ibwc (e.written.length + j)) :
    (e.join s).xmitRound = s.xmitRound.map e.join := by
  unfold Poll.xmitRound
  rw [join_slot h]
  show (if s.cq.xmit.head.valid = false then _ else _) = _
  split
  · rfl
  · rw [Option.map_map]
    show Option.map _ (pollScqe s.qp s.slot) = _
    refine congrArg (fun f => Option.map f _) (funext fun ⟨wc, qp⟩ => ?_)
    cases wc with
    | none => rfl
    | some wc =>
        have hwrite := join_write (e := e)
          (s := { s with qp := qp }) .send wc
        exact congrArg (fun t : Poll =>
          { t with cq := { t.cq with
            xmit := s.cq.xmit.consume .zero } }) hwrite

private theorem join_rcqes (cqe : Rxcqe) (k : Nat) : ∀ {s : Poll},
    s.ibwc = (fun j => e.ibwc (e.written.length + j)) →
    Poll.rcqes cqe (e.join s) k = e.join (Poll.rcqes cqe s k) := by
  induction k with
  | zero => exact fun _ => rfl
  | succ k ih =>
      intro s h
      rw [Poll.rcqes, Poll.rcqes, join_slot h]
      show Poll.rcqes cqe (Poll.write (e.join { s with
        qp := (pollRcqe s.qp cqe s.slot).2 }) .recv
          (pollRcqe s.qp cqe s.slot).1) k = _
      rw [join_write]
      exact ih h

private theorem join_rxRound
    (h : s.ibwc = fun j => e.ibwc (e.written.length + j)) :
    (e.join s).rxRound = s.rxRound.map e.join := by
  unfold Poll.rxRound
  show (if s.cq.rx.head.valid = false then _ else _) = _
  simp only
  split
  · rfl
  · rw [Option.map_map]
    show Option.map _ (rxBatch (BitVec.ofNat 32 s.qp.rq.overhead)
      s.cq.phase s.cq.rx.head) = _
    refine congrArg (fun f => Option.map f _) (funext fun ⟨k, phase⟩ => ?_)
    have hrcqes := join_rcqes (e := e) s.cq.rx.head k (s := { s with
      qp := { s.qp with rq := { s.qp.rq with
        overhead := s.cq.rx.head.bth6487Lo.toNat } }
      cq := { s.cq with phase := phase } }) h
    exact congrArg (fun t : Poll =>
      { t with cq := { t.cq with rx := t.cq.rx.consume .zero } }) hrcqes

private theorem join_txRound :
    (e.join s).txRound = e.join s.txRound := by
  unfold Poll.txRound
  show (if s.cq.tx.head.opcode = 0 then _ else _) = _
  split
  · rfl
  · rfl

/-- A round does not depend on what was written before. -/
theorem join_round
    (h : s.ibwc = fun j => e.ibwc (e.written.length + j)) :
    (e.join s).round = s.round.map e.join := by
  unfold Poll.round
  rw [join_xmitRound h]
  rcases xmitRound_cases s with ⟨-, hround, -⟩ | ⟨hround, -⟩
    | ⟨cq, qp, wcs, hround, -⟩
  · rw [hround, Option.map_some, Option.bind_some, Option.bind_some,
      join_rxRound h, Option.map_map, Option.map_map]
    exact congrArg (fun f => Option.map f _) (funext fun _ => join_txRound)
  · rw [hround]
    rfl
  · rw [hround, Option.map_some, Option.bind_some, Option.bind_some,
      join_rxRound (s := s.after cq qp wcs) h, Option.map_map,
      Option.map_map]
    exact congrArg (fun f => Option.map f _) (funext fun _ => join_txRound)

/-- A later call goes on as if it were the same. -/
private theorem pollLoop_join (hroom : e.numEntries = 0) {fuel : Nat} :
    ∀ {s : Poll}, s.ibwc = (fun j => e.ibwc (e.written.length + j)) →
      pollLoop fuel (e.join s) = (pollLoop fuel s).map e.join := by
  induction fuel with
  | zero => exact fun _ => rfl
  | succ fuel ih =>
      intro s h
      have hsame : (e.join s).stops = s.stops := by
        simp only [Poll.stops, Poll.join, hroom, zero_add]
      cases hstops : s.stops with
      | true =>
          rw [pollLoop_of_stops hstops,
            pollLoop_of_stops (hsame.trans hstops)]
          rfl
      | false =>
          rw [pollLoop_of_not_stops hstops,
            pollLoop_of_not_stops (hsame.trans hstops), join_round h]
          rcases round_batches (Poll.valid_of_not_stops hstops).2 with
            ⟨hround, -⟩ | ⟨cq, qp, wcs, hround, -⟩
          · rw [hround]
            rfl
          · rw [hround, Option.map_some, Option.bind_some,
              Option.bind_some]
            exact ih h

/-- A call with more room, as long as this one fits, gets to where this
one ends. -/
private theorem pollLoop_split (hroom : 0 ≤ e.numEntries) {fuel : Nat} :
    ∀ {s : Poll} {n : Nat},
      s.ibwc = (fun j => e.ibwc (e.written.length + j)) →
      (batches s.cq s.qp).length < fuel → s.numEntries = n →
      Fits n (batches s.cq s.qp) →
      pollLoop fuel (e.join s)
        = (pollLoop fuel s).bind fun s' =>
            pollLoop (2 * cqEntries + 1) (e.join s') := by
  induction fuel with
  | zero => exact fun _ h => absurd h (Nat.not_lt_zero _)
  | succ fuel ih =>
      intro s n h hfuel hn hfits
      cases hstops : s.stops with
      | true =>
          rw [pollLoop_of_stops hstops, Option.bind_some]
          exact pollLoop_fuel hfuel (length_batches s.cq s.qp)
      | false =>
          obtain ⟨hne, hvalid⟩ := Poll.valid_of_not_stops hstops
          have hgo : (e.join s).stops = false := by
            rw [← Bool.not_eq_true, Poll.stops_iff]
            rintro (hzero | ⟨hx, hr⟩)
            · simp only [Poll.join] at hzero
              omega
            · simp only [Poll.join] at hx hr
              rw [hx, hr] at hvalid
              simp at hvalid
          rw [pollLoop_of_not_stops hstops, pollLoop_of_not_stops hgo,
            join_round h]
          rcases round_batches hvalid with
            ⟨hround, -⟩ | ⟨cq, qp, wcs, hround, hks⟩
          · rw [hround]
            rfl
          · rw [hks, List.length_cons] at hfuel
            rw [hks, Fits] at hfits
            rw [hround, Option.map_some, Option.bind_some,
              Option.bind_some]
            have hfits' := hfits.resolve_left (by omega)
            refine ih (n := n - wcs.length) h
              (Nat.lt_of_succ_lt_succ hfuel) ?_ hfits'.2
            simp only [Poll.after]
            omega

end Join

-- ================================================================= a call

/-- A call returns, reports what it wrote, stays within `num_entries`
and leaves the rest for a later call, for every number and every content
of the rings, exactly when its rounds fit. -/
theorem poll_respects_iff (cq : Cq) (qp : Qp) (numEntries : Nat)
    (ibwc : Nat → Wc) :
    Respects cq qp numEntries ibwc
      ↔ Fits numEntries (batches cq qp) := by
  -- the variables of the loop as it starts, with room for `m` more
  let start (room : Int) : Poll :=
    { cq := cq, qp := qp, numEntries := room, i := 0, ibwc := ibwc
      written := [] }
  constructor
  · rintro ⟨s, hcall, -, hle, -⟩
    by_contra hfits
    have hneg := pollLoop_not_fits (s := start numEntries) rfl hfits hcall
    obtain ⟨wcs, hs⟩ := pollLoop_after hcall
    rw [hs] at hneg hle
    simp only [Poll.after, List.nil_append] at hneg hle
    omega
  · intro hfits
    obtain ⟨s, hcall, hroom, hstops⟩ := pollLoop_fits
      (s := start numEntries) (length_batches cq qp) rfl hfits
    obtain ⟨wcs, hs⟩ := pollLoop_after hcall
    have hi : s.i = s.written.length := by
      rw [hs]
      simp [Poll.after, start]
    have hleft : s.numEntries = numEntries - s.written.length := by
      rw [hs]
      simp [Poll.after, start]
    have hibwc : s.ibwc = ibwc := by
      rw [hs]
      rfl
    refine ⟨s, hcall, hi, by omega, fun m => ?_⟩
    -- the larger call gets to the end of this one
    have hsplit := pollLoop_split (e := start m)
      (s := start numEntries) (n := numEntries) (by simp [start])
      (by simp [start]) (length_batches cq qp) rfl hfits
    rw [hcall, Option.bind_some] at hsplit
    have hjoin : (start m).join (start numEntries)
        = start (numEntries + m : Int) := by
      simp [Poll.join, start, add_comm]
    rw [hjoin] at hsplit
    refine hsplit.trans ?_
    -- and goes on from there as the later call does
    let later : Poll :=
      { cq := s.cq, qp := s.qp, numEntries := m, i := 0
        ibwc := fun j => ibwc (s.written.length + j), written := [] }
    have hlater : (start m).join s = s.join later := by
      simp [Poll.join, start, later, add_comm, hibwc]
    rw [hlater]
    cases Poll.stops_iff.1 hstops with
    | inl hzero =>
        exact pollLoop_join hzero (s := later) (by rw [hibwc])
    | inr hidle =>
        -- both have nothing to read
        have hstops' : later.stops = true :=
          Poll.stops_iff.2 (Or.inr hidle)
        have hstops'' : (s.join later).stops = true :=
          Poll.stops_iff.2 (Or.inr hidle)
        unfold pollHwcq
        rw [pollLoop_of_stops hstops'']
        show _ = Option.map s.join (pollLoop _ later)
        rw [pollLoop_of_stops hstops']
        rfl

/-- An array of one entry, a signaled send and a received message: both
are written. -/
theorem one_round_writes_two :
    let new := createQp
      { qpId := 2, qpType := .rc, numWqeAllocated := 2048,
        numRqeAllocated := 256, maxSendSge := 4, maxRecvSge := 4,
        sqSigAll := 0, sqVa := fun _ => .zero, rqVa := fun _ => .zero,
        addrtbl := ⟨0, 0, 0⟩, numWqe_pos := by decide,
        numRqe_pos := by decide }
    let qp :=
      { new with wqeWrIdTbl := Function.update new.wqeWrIdTbl 0 ⟨7, true⟩ }
    let cq : Cq :=
      { tx := ⟨fun _ => .zero, 0, by decide⟩
        rx := ⟨Function.update (fun _ => .zero) 0 ⟨0, 3, 0, 0, 0xff⟩, 0,
          by decide⟩
        xmit := ⟨Function.update (fun _ => .zero) 0 ⟨0xff⟩, 0, by decide⟩
        phase := 0 }
    let ibwc : Nat → Wc := fun _ => ⟨0, 0, 0, 0, 0, 0, 0, 0⟩
    (pollHwcq cq qp 1 ibwc).map (fun s => s.i) = some 2
      ∧ ¬ Respects cq qp 1 ibwc := by
  intro new qp cq ibwc
  have hlength : (pollHwcq cq qp 1 ibwc).map
      (fun s => s.written.length) = some 2 := by
    decide +kernel
  refine ⟨by decide +kernel, ?_⟩
  rintro ⟨s, hcall, -, hle, -⟩
  have hcall' : pollHwcq cq qp 1 ibwc = some s := hcall
  rw [hcall', Option.map_some, Option.some.injEq] at hlength
  omega

end BxRnic.User
