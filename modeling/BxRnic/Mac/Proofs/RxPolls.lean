/-
Does it matter where the budget cuts receiving?

A poll that stops in the middle of a packet leaves it in the next entry,
and the next poll takes it up there: after any run the polls are where
turns are that nothing ends (`Running.follows`). It fails in one place. A
packet that is dropped for a frame error while its context descriptor is
still announced is over, but if the budget is used up just then it is
saved like one that is not, with the socket buffer that has been freed.
And what is saved is lost when the ring is given up.
-/
import BxRnic.Mac.Proofs.RxTurns
import BxRnic.Lib.Field
import BxRnic.Lib.Run

namespace BxRnic.Mac

-- =========================================================== what is meant

/-- Of the packets that end in the completed entries, one after the other:
whether more of the packet was announced when it ended. -/
def RxPoll.ends (env : RxEnv) : RxPoll → List RxEntry → List Bool
  | _, [] => []
  | st, entry :: entries =>
      if entry.dmaDesc.own then []
      else
        match st.take env entry with
        | (true, st) => st.ends env entries
        | (false, st) =>
            st.more
              :: (RxPoll.fresh
                  { st with packetCount := st.packetCount + 1 }).ends
                env entries

/-- How the next poll begins. -/
def RxPolls.resumed (s : RxPolls) : RxPoll :=
  match s.ring.entries with
  | [] => .start s.ring
  | entry :: _ => (RxPoll.start s.ring).resume entry

/-- Every socket buffer that was allocated has been passed up or freed or
is held for the next poll, and is one of these once. -/
def RxPolls.Accounted (env : RxEnv) (s : RxPolls) : Prop :=
  ((s.passed ++ s.freed ++ s.held).map RxSkb.id).Perm
    (allocated env s.ring.allocs)

instance (env : RxEnv) (s : RxPolls) : Decidable (s.Accounted env) :=
  inferInstanceAs (Decidable (List.Perm _ _))

/-- What has been read. -/
def RxPolls.read (s : RxPolls) : List RxEntry := s.completed.take s.consumed

/-- If the same has been read of two rings, the same has become of the
packets. -/
def RxPolls.Agrees (s s' : RxPolls) : Prop :=
  s.read = s'.read → s.passed = s'.passed ∧ s.freed = s'.freed

instance (s s' : RxPolls) : Decidable (s.Agrees s') :=
  inferInstanceAs (Decidable (_ → _))

/-- The budget of a poll is not used up by a packet of which more was
announced, and no socket buffer is left in a ring that is given up. -/
def RxPolls.Fits (env : RxEnv) (s : RxPolls) : RxPollsAct → Prop
  | .complete _ => True
  | .poll budget =>
      0 < budget →
        (s.resumed.ends env s.ring.entries)[budget - 1]? ≠ some true
  | .freeRxData => s.held = []

instance (env : RxEnv) (s : RxPolls) (act : RxPollsAct) :
    Decidable (s.Fits env act) :=
  match act with
  | .complete _ => inferInstanceAs (Decidable True)
  | .poll budget =>
      inferInstanceAs (Decidable (0 < budget →
        (s.resumed.ends env s.ring.entries)[budget - 1]? ≠ some true))
  | .freeRxData => inferInstanceAs (Decidable (s.held = []))

section Loop

variable {env : RxEnv} {st st' ref : RxPoll} {p f : List RxSkb}
  {entry : RxEntry} {entries : List RxEntry} {budget more : Nat}

theorem ends_again (hown : entry.dmaDesc.own = false)
    (htake : st.take env entry = (true, st')) :
    st.ends env (entry :: entries) = st'.ends env entries := by
  rw [RxPoll.ends, if_neg (by rw [hown]; exact Bool.false_ne_true), htake]

theorem ends_next (hown : entry.dmaDesc.own = false)
    (htake : st.take env entry = (false, st')) :
    st.ends env (entry :: entries)
      = st'.more
        :: (RxPoll.fresh
            { st' with packetCount := st'.packetCount + 1 }).ends
          env entries := by
  rw [RxPoll.ends, if_neg (by rw [hown]; exact Bool.false_ne_true), htake]

-- ================================================================ the loop

/-- What a poll leaves to the next one: the packet of which there is more,
or a new one. -/
def RxPoll.left (st : RxPoll) : RxPoll :=
  if st.more then st else st.fresh

/-- How far a loop gets, and that it is then where the turns are. -/
def Reaches (env : RxEnv) (p f : List RxSkb) (st ref : RxPoll)
    (entries : List RxEntry) (out : RxPoll × List RxEntry) : Prop :=
  ∃ done, entries = done ++ out.2
    ∧ (∀ e ∈ done, e.dmaDesc.own = false)
    ∧ out.1.received = st.received + done.length
    ∧ (done = [] ∧ out.1 = st
      ∨ done ≠ [] ∧ out.1.left.Follows p f
        ((done.map RxEntry.unsaved).foldl (RxPoll.turn env) ref))

theorem reaches_none : Reaches env p f st ref entries (st, entries) :=
  ⟨[], rfl, fun _ he => absurd he List.not_mem_nil, rfl, Or.inl ⟨rfl, rfl⟩⟩

/-- A turn more, before the others. -/
theorem Reaches.cons {out : RxPoll × List RxEntry}
    (h : Reaches env p f st' (ref.turn env entry.unsaved) entries out)
    (hown : entry.dmaDesc.own = false)
    (hreceived : st'.received = st.received + 1)
    (hleft : st'.left.Follows p f (ref.turn env entry.unsaved)) :
    Reaches env p f st ref (entry :: entries) out := by
  obtain ⟨done, hdone, howns, hcount, hstop⟩ := h
  refine ⟨entry :: done, ?_, List.forall_mem_cons.2 ⟨hown, howns⟩, ?_,
    Or.inr ⟨List.cons_ne_nil _ _, ?_⟩⟩
  · rw [hdone, List.cons_append]
  · rw [hcount, hreceived, List.length_cons]
    omega
  · rcases hstop with ⟨rfl, hout⟩ | ⟨-, hfollows⟩
    · rw [hout]
      exact hleft
    · exact hfollows

theorem RxPoll.Follows.loop (h : st.Follows p f ref)
    (hleft : st.packetCount + more + 1 = budget)
    (hends : (st.ends env entries)[more]? ≠ some true) :
    Reaches env p f st ref entries (st.loop env budget entries) := by
  induction entries generalizing st ref more with
  | nil => exact reaches_none
  | cons entry entries ih =>
    cases hown : entry.dmaDesc.own with
    | true =>
      rw [loop_idle (by rintro e ⟨⟩; exact hown)]
      exact reaches_none
    | false =>
      have hturn := h.turn env entry
      have hreceived := (take_marks env st entry).2
      have hcount := take_packetCount env st entry
      cases htake : st.take env entry with
      | mk again st' =>
        rw [htake] at hreceived hcount
        change st'.received = st.received + 1 at hreceived
        change st'.packetCount = st.packetCount at hcount
        cases again with
        | true =>
          rw [turn_again htake] at hturn
          rw [ends_again hown htake] at hends
          rw [loop_again hown htake]
          refine (ih hturn (hcount ▸ hleft) hends).cons hown hreceived ?_
          rw [RxPoll.left, if_pos (more_of_again htake)]
          exact hturn
        | false =>
          rw [turn_next htake] at hturn
          rw [ends_next hown htake] at hends
          rw [loop_next hown htake]
          have hcounted : RxPoll.received
              { st' with packetCount := st'.packetCount + 1 }
                = st.received + 1 := hreceived
          have hnext : (RxPoll.fresh
              { st' with packetCount := st'.packetCount + 1 }).Follows p f
                (ref.turn env entry.unsaved) :=
            ⟨hturn.pktInfo, hturn.skb, hturn.error, hturn.len, hturn.allocs,
              hturn.passed, hturn.freed⟩
          split
          · next hlt =>
            cases more with
            | zero => omega
            | succ more =>
              have hcount' : RxPoll.packetCount (RxPoll.fresh
                  { st' with packetCount := st'.packetCount + 1 })
                    + more + 1 = budget := by
                show st'.packetCount + 1 + more + 1 = budget
                omega
              refine (ih hnext hcount' hends).cons hown hcounted ?_
              unfold RxPoll.left
              split
              · exact hnext
              · exact hnext
          · next hfull =>
            cases more with
            | succ more => omega
            | zero =>
              have hover : ¬ RxPoll.more
                  { st' with packetCount := st'.packetCount + 1 } = true :=
                fun hmore => hends (congrArg some hmore)
              refine reaches_none.cons hown hcounted ?_
              rw [RxPoll.left, if_neg hover]
              exact hnext

end Loop

-- ============================================================= handing over

section Handover

variable {env : RxEnv} {st ref : RxPoll} {p f : List RxSkb}
  {entry : RxEntry} {entries : List RxEntry}

theorem more_iff (st : RxPoll) :
    st.more = true ↔ st.incomplete ∨ st.contextNext :=
  Bool.or_eq_true _ _ ▸ Iff.rfl

/-- A packet that is not complete is put into the entry. -/
theorem save_more (hreceived : st.received ≠ 0) (hmore : st.more = true) :
    st.save entry
      = { entry with
          stateSaved := true
          state := { skb := st.skb, len := st.len, error := st.error } } :=
  if_pos ⟨hreceived, (more_iff st).1 hmore⟩

theorem save_over (h : st.received = 0 ∨ st.more = false) :
    st.save entry = entry := by
  refine if_neg fun hboth => ?_
  rcases h with hzero | hover
  · exact hboth.1 hzero
  · exact Bool.false_ne_true (hover.symm.trans ((more_iff st).2 hboth.2))

theorem save_unsaved (st : RxPoll) (entry : RxEntry) :
    (st.save entry).unsaved = entry.unsaved := by
  unfold RxPoll.save
  split
  · rfl
  · rfl

/-- What a poll leaves is what the next one takes up. -/
theorem handover (hreceived : st.received ≠ 0)
    (hunsaved : entry.stateSaved = false) (h : st.left.Follows p f ref) :
    ((RxPoll.start (st.ringAfter (entry :: entries))).resume
      (st.save entry)).Follows (p ++ st.passed) (f ++ st.freed) ref := by
  unfold RxPoll.left at h
  cases hmore : st.more with
  | true =>
    rw [if_pos hmore] at h
    rw [save_more hreceived hmore]
    exact ⟨h.pktInfo, h.skb, h.error, h.len, h.allocs,
      h.passed.trans (List.append_nil _).symm,
      h.freed.trans (List.append_nil _).symm⟩
  | false =>
    rw [if_neg (by rw [hmore]; exact Bool.false_ne_true)] at h
    rw [save_over (Or.inr hmore), RxPoll.resume,
      if_neg (by rw [hunsaved]; exact Bool.false_ne_true)]
    exact ⟨h.pktInfo, h.skb, h.error, h.len, h.allocs,
      h.passed.trans (List.append_nil _).symm,
      h.freed.trans (List.append_nil _).symm⟩

end Handover

-- ===================================================================== runs

/-- What the polls have made of their descriptors is what turns that
nothing ends make of them. -/
structure RxPolls.Told (env : RxEnv) (s : RxPolls) : Prop where
  passed : (uncut env s.read).passed = s.passed
  freed : (uncut env s.read).freed = s.freed
  held : (uncut env s.read).skb.toList = s.held
  allocs : (uncut env s.read).allocs = s.ring.allocs

/-- A ring in use. Only the first of its entries may have something saved
in it. -/
structure RxPolls.Running (env : RxEnv) (s : RxPolls) : Prop where
  consumed_le : s.consumed ≤ s.completed.length
  entries : ∃ es slot, s.ring.entries = es ++ [slot]
    ∧ slot.dmaDesc.own = true
    ∧ es.map RxEntry.unsaved
      = (s.completed.drop s.consumed).map RxEntry.given.complete
  tail : ∀ e ∈ s.ring.entries.tail, e.stateSaved = false
  follows : s.resumed.Follows s.passed s.freed (uncut env s.read)

/-- What holds after every step of a run. -/
def RxPolls.Inv (env : RxEnv) (s : RxPolls) : Prop :=
  s.Running env ∨ s.ring.entries = [] ∧ s.Told env

section Runs

variable {env : RxEnv} {s : RxPolls} {slot e : RxEntry}
  {es : List RxEntry}

theorem complete_own (slot e : RxEntry) :
    (slot.complete e).dmaDesc.own = false := by
  have hget : Field.get (Field.set e.dmaDesc.desc3 31 1 0) 31 1
      = Field.get 0 0 1 := Field.get_set (by decide)
  have hne : ¬ Field.get (Field.set e.dmaDesc.desc3 31 1 0) 31 1 = 1 := by
    rw [hget]
    decide
  exact decide_eq_false hne

/-- The entries before the one the NIC owns are those it has completed. -/
theorem own_of_unsaved {completed : List RxEntry}
    (h : es.map RxEntry.unsaved = completed.map RxEntry.given.complete) :
    ∀ e ∈ es, e.dmaDesc.own = false := by
  intro e he
  have hmem : e.unsaved ∈ completed.map RxEntry.given.complete :=
    h ▸ List.mem_map_of_mem he
  obtain ⟨c, -, hc⟩ := List.mem_map.1 hmem
  exact (congrArg (fun e => e.dmaDesc.own) hc).symm.trans
    (complete_own .given c)

theorem completeNext_append (e : RxEntry)
    (hes : ∀ e ∈ es, e.dmaDesc.own = false)
    (hslot : slot.dmaDesc.own = true) :
    completeNext e (es ++ [slot]) = es ++ [slot.complete e] ++ [.given] := by
  induction es with
  | nil => exact if_pos hslot
  | cons e' es ih =>
    have hown := hes e' List.mem_cons_self
    rw [List.cons_append, completeNext,
      if_neg (by rw [hown]; exact Bool.false_ne_true),
      ih fun e he => hes e (List.mem_cons_of_mem _ he)]
    rfl

theorem resumed_cons (h : s.ring.entries = e :: es) :
    s.resumed = (RxPoll.start s.ring).resume e := by
  unfold RxPolls.resumed
  rw [h]

theorem resume_received (st : RxPoll) (e : RxEntry) :
    (st.resume e).received = st.received
      ∧ (st.resume e).packetCount = st.packetCount
      ∧ (st.resume e).passed = st.passed
      ∧ (st.resume e).freed = st.freed
      ∧ (st.resume e).allocs = st.allocs := by
  unfold RxPoll.resume
  split
  · exact ⟨rfl, rfl, rfl, rfl, rfl⟩
  · exact ⟨rfl, rfl, rfl, rfl, rfl⟩

theorem resume_skb (st : RxPoll) (e : RxEntry) :
    (st.resume e).skb.toList
      = if e.stateSaved then e.state.skb.toList else [] := by
  unfold RxPoll.resume
  split
  · rfl
  · rfl

theorem RxPolls.Running.head (h : s.Running env) :
    ∃ e es, s.ring.entries = e :: es ∧ ∀ e ∈ es, e.stateSaved = false := by
  obtain ⟨es, slot, hentries, -, -⟩ := h.entries
  have htail := h.tail
  rw [hentries] at htail ⊢
  cases es with
  | nil => exact ⟨slot, [], rfl, htail⟩
  | cons e es => exact ⟨e, es ++ [slot], rfl, htail⟩

theorem RxPolls.Running.told (h : s.Running env) : s.Told env := by
  obtain ⟨e, es, hentries, hunsaved⟩ := h.head
  obtain ⟨-, -, hpassed, hfreed, hallocs⟩ :=
    resume_received (RxPoll.start s.ring) e
  have hresumed := resumed_cons hentries
  refine ⟨?_, ?_, ?_, ?_⟩
  · rw [h.follows.passed, hresumed, hpassed]
    exact List.append_nil _
  · rw [h.follows.freed, hresumed, hfreed]
    exact List.append_nil _
  · have hrest : (es.flatMap fun e =>
        if e.stateSaved then e.state.skb.toList else []) = [] :=
      List.flatMap_eq_nil_iff.2 fun e he => by
        rw [hunsaved e he]
        rfl
    rw [h.follows.skb, hresumed, resume_skb, RxPolls.held, hentries,
      List.flatMap_cons, hrest, List.append_nil]
  · rw [h.follows.allocs, hresumed, hallocs]
    rfl

-- =================================================================== steps

theorem step_complete (hne : s.ring.entries ≠ []) :
    s.step env (.complete e)
      = { s with
          ring :=
            { s.ring with entries := completeNext e s.ring.entries }
          completed := s.completed ++ [e] } := by
  unfold RxPolls.step
  dsimp only
  split
  · next hnil => exact absurd hnil hne
  · next hentries => rw [hentries]

theorem RxPolls.Running.complete (h : s.Running env) (e : RxEntry) :
    (s.step env (.complete e)).Running env := by
  obtain ⟨es, slot, hentries, hslot, hdata⟩ := h.entries
  have hne : s.ring.entries ≠ [] := by
    rw [hentries]
    exact List.append_ne_nil_of_right_ne_nil _ (List.cons_ne_nil _ _)
  have hnext : completeNext e s.ring.entries
      = es ++ [slot.complete e] ++ [.given] := by
    rw [hentries]
    exact completeNext_append e (own_of_unsaved hdata) hslot
  have hle := h.consumed_le
  have htail := h.tail
  have hfollows := h.follows
  rw [step_complete hne]
  refine ⟨?_, ⟨es ++ [slot.complete e], .given, hnext, by decide, ?_⟩, ?_,
    ?_⟩
  · exact hle.trans (List.length_append ▸ Nat.le_add_right _ _)
  · rw [List.map_append, hdata, List.drop_append_of_le_length hle,
      List.map_append]
    rfl
  · show ∀ x ∈ (completeNext e s.ring.entries).tail, x.stateSaved = false
    rw [hentries] at htail
    rw [hnext, List.append_assoc]
    cases es with
    | nil => exact fun x hx => List.mem_singleton.1 hx ▸ rfl
    | cons a es =>
      obtain ⟨hes, hsaved⟩ := List.forall_mem_append.1 htail
      refine List.forall_mem_append.2 ⟨hes, fun x hx => ?_⟩
      rcases List.mem_cons.1 hx with rfl | hx
      · exact hsaved slot (List.mem_singleton_self slot)
      · exact List.mem_singleton.1 hx ▸ rfl
  · have hresumed : RxPolls.resumed
        { s with
          ring :=
            { s.ring with entries := completeNext e s.ring.entries }
          completed := s.completed ++ [e] } = s.resumed := by
      cases es with
      | nil => rw [resumed_cons hentries, resumed_cons hnext]; rfl
      | cons a es => rw [resumed_cons hentries, resumed_cons hnext]; rfl
    rw [hresumed]
    show s.resumed.Follows s.passed s.freed
      (uncut env ((s.completed ++ [e]).take s.consumed))
    rw [List.take_append_of_le_length hle]
    exact h.follows

/-- A list cut in front of its last element, or earlier. -/
theorem split_at_slot {done rest : List RxEntry}
    (h : es ++ [slot] = done ++ rest)
    (hdone : ∀ e ∈ done, e.dmaDesc.own = false)
    (hslot : slot.dmaDesc.own = true) :
    ∃ es', es = done ++ es' ∧ rest = es' ++ [slot] := by
  rcases List.append_eq_append_iff.1 h with
    ⟨more, hdone', hrest⟩ | ⟨more, hes, hrest⟩
  · cases more with
    | nil => exact ⟨[], by rw [hdone', List.append_nil, List.append_nil],
        hrest.symm⟩
    | cons x more =>
      obtain rfl : slot = x := (List.cons.inj hrest).1
      have hown := hdone slot
        (hdone' ▸ List.mem_append_right _ List.mem_cons_self)
      exact absurd (hslot.symm.trans hown) (by decide)
  · exact ⟨more, hes, hrest⟩

theorem start_ringAfter (ring : RxView) :
    (RxPoll.start ring).ringAfter ring.entries = ring := by
  obtain ⟨info, entries, allocs⟩ := ring
  cases entries with
  | nil => rfl
  | cons e es => rfl

/-- Without a budget, or a ring, a poll does nothing. -/
theorem step_poll_idle {budget : Nat}
    (h : budget = 0 ∨ s.ring.entries = []) :
    s.step env (.poll budget) = s := by
  have hturns : rxTurns env s.ring budget
      = (.start s.ring, s.ring.entries) := by
    unfold rxTurns
    rcases h with rfl | hnil
    · rfl
    · rw [hnil]
      split
      · rfl
      · rfl
  unfold RxPolls.step macRxPoll
  dsimp only
  rw [hturns, start_ringAfter]
  show { s with
    passed := s.passed ++ []
    freed := s.freed ++ [] } = s
  rw [List.append_nil, List.append_nil]

theorem step_poll {budget : Nat} {out : RxPoll × List RxEntry}
    (hout : s.resumed.loop env budget s.ring.entries = out)
    (hpos : 0 < budget) (hentries : s.ring.entries = e :: es) :
    s.step env (.poll budget)
      = { s with
          ring := out.1.ringAfter out.2
          consumed := s.consumed + out.1.received
          passed := s.passed ++ out.1.passed
          freed := s.freed ++ out.1.freed } := by
  have hturns : rxTurns env s.ring budget = out := by
    unfold rxTurns
    rw [if_pos hpos, ← hout, resumed_cons hentries, hentries]
  unfold RxPolls.step macRxPoll
  dsimp only
  rw [hturns]

/-- The save changes nothing of the entries but what is saved. -/
theorem ringAfter_split (st : RxPoll) (es : List RxEntry)
    (slot : RxEntry) :
    ∃ es' slot', (st.ringAfter (es ++ [slot])).entries = es' ++ [slot']
      ∧ slot'.dmaDesc = slot.dmaDesc
      ∧ es'.map RxEntry.unsaved = es.map RxEntry.unsaved := by
  cases es with
  | nil => exact ⟨[], st.save slot, rfl, save_dmaDesc st slot, rfl⟩
  | cons e es =>
    refine ⟨st.save e :: es, slot, rfl, rfl, ?_⟩
    rw [List.map_cons, List.map_cons, save_unsaved]

theorem ringAfter_tail (st : RxPoll) (es : List RxEntry) :
    (st.ringAfter es).entries.tail = es.tail := by
  cases es with
  | nil => rfl
  | cons e es => rfl

/-- A poll that has read nothing has not changed what it found. -/
theorem resume_again (ring : RxView) (e : RxEntry) (es : List RxEntry) :
    (RxPoll.start
        (((RxPoll.start ring).resume e).ringAfter (e :: es))).resume e
      = (RxPoll.start ring).resume e := by
  unfold RxPoll.resume
  split
  · rfl
  · rfl

/-- Where there is a ring, the next poll finds one. -/
theorem resumed_ringAfter {st : RxPoll} {c : Nat} {p f : List RxSkb}
    {cs : List RxEntry} :
    RxPolls.resumed ⟨st.ringAfter (e :: es), cs, c, p, f⟩
      = (RxPoll.start (st.ringAfter (e :: es))).resume (st.save e) := rfl

/-- One after another. -/
theorem uncut_append (env : RxEnv) (cs ds : List RxEntry) :
    uncut env (cs ++ ds)
      = (ds.map RxEntry.given.complete).foldl (RxPoll.turn env)
          (uncut env cs) := by
  unfold uncut
  rw [List.map_append, List.foldl_append]

/-- What of the completed descriptors has been read after `done`, and what
is left. -/
theorem read_split {done rest cs : List RxEntry} {n : Nat}
    (h : (done ++ rest).map RxEntry.unsaved
      = (cs.drop n).map RxEntry.given.complete) :
    done.map RxEntry.unsaved
        = ((cs.drop n).take done.length).map RxEntry.given.complete
      ∧ rest.map RxEntry.unsaved
        = (cs.drop (n + done.length)).map RxEntry.given.complete
      ∧ done.length ≤ cs.length - n := by
  have hlen : (done.map RxEntry.unsaved).length = done.length :=
    List.length_map _
  have htake := congrArg (List.take done.length) h
  have hdrop := congrArg (List.drop done.length) h
  have hcount := congrArg List.length h
  rw [List.map_append, ← hlen, List.take_left, ← List.map_take, hlen]
    at htake
  rw [List.map_append, ← hlen, List.drop_left, ← List.map_drop,
    List.drop_drop, hlen] at hdrop
  rw [List.length_map, List.length_map, List.length_append,
    List.length_drop] at hcount
  exact ⟨htake, hdrop, by omega⟩

/-- The next poll begins where this one has stopped. -/
theorem RxPolls.Running.taken_up (h : s.Running env) {st ref : RxPoll}
    {done : List RxEntry} (hentries : s.ring.entries = done ++ e :: es)
    (hreceived : st.received = done.length)
    (hstop : done = [] ∧ st = s.resumed
        ∧ s.resumed.Follows s.passed s.freed ref
      ∨ done ≠ [] ∧ st.left.Follows s.passed s.freed ref) :
    ((RxPoll.start (st.ringAfter (e :: es))).resume (st.save e)).Follows
      (s.passed ++ st.passed) (s.freed ++ st.freed) ref := by
  rcases hstop with ⟨rfl, rfl, hfollows⟩ | ⟨hne, hfollows⟩
  · have hresumed := resumed_cons hentries
    obtain ⟨-, -, hpassed, hfreed, -⟩ :=
      resume_received (RxPoll.start s.ring) e
    rw [save_over (Or.inl hreceived), hresumed, resume_again, hpassed,
      hfreed, ← hresumed]
    show s.resumed.Follows (s.passed ++ []) (s.freed ++ []) ref
    rw [List.append_nil, List.append_nil]
    exact hfollows
  · have hread : st.received ≠ 0 :=
      hreceived ▸ mt List.length_eq_zero_iff.1 hne
    refine handover hread (h.tail e ?_) hfollows
    rw [hentries]
    cases done with
    | nil => exact absurd rfl hne
    | cons d done =>
      exact List.mem_append_right _ List.mem_cons_self

theorem RxPolls.Running.poll (h : s.Running env) {budget : Nat}
    (hfits : s.Fits env (.poll budget)) :
    (s.step env (.poll budget)).Running env := by
  rcases Nat.eq_zero_or_pos budget with hzero | hpos
  · rw [step_poll_idle (Or.inl hzero)]
    exact h
  obtain ⟨head, rest, hhead, -⟩ := h.head
  obtain ⟨es, slot, hentries, hslot, hdata⟩ := h.entries
  obtain ⟨hzero, hcount, -⟩ := resume_received (RxPoll.start s.ring) head
  rw [← resumed_cons hhead] at hzero hcount
  have hbudget : s.resumed.packetCount + (budget - 1) + 1 = budget := by
    rw [hcount]
    show 0 + (budget - 1) + 1 = budget
    omega
  obtain ⟨done, hdone, howns, hnumber, hstop⟩ :=
    h.follows.loop hbudget (hfits hpos)
  generalize hout : s.resumed.loop env budget s.ring.entries = out
    at hdone hnumber hstop
  have hstep := step_poll hout hpos hhead
  obtain ⟨st, left⟩ := out
  dsimp only at hdone hnumber hstop hstep
  obtain ⟨es', rfl, hleft⟩ := split_at_slot (hentries ▸ hdone) howns hslot
  obtain ⟨hread, hrest, hle⟩ := read_split hdata
  have hreceived : st.received = done.length :=
    hnumber.trans (hzero ▸ Nat.zero_add _)
  have hcut : ∃ e left', left = e :: left' :=
    List.exists_cons_of_ne_nil (hleft ▸ List.append_ne_nil_of_right_ne_nil _
      (List.cons_ne_nil _ _))
  obtain ⟨es'', slot', hnew, hown, hsame⟩ := ringAfter_split st es' slot
  rw [← hleft] at hnew
  rw [hstep]
  refine ⟨?_, ⟨es'', slot', hnew, ?_, ?_⟩, ?_, ?_⟩
  · show s.consumed + st.received ≤ s.completed.length
    have := h.consumed_le
    omega
  · exact (congrArg DmaDesc.own hown).trans hslot
  · show es''.map RxEntry.unsaved
      = (s.completed.drop (s.consumed + st.received)).map
          RxEntry.given.complete
    rw [hreceived, hsame, hrest]
  · show ∀ x ∈ (st.ringAfter left).entries.tail, x.stateSaved = false
    rw [ringAfter_tail]
    refine fun x hx => h.tail x ?_
    rw [hdone]
    cases done with
    | nil => exact hx
    | cons d done =>
      exact List.mem_append_right _ (List.mem_of_mem_tail hx)
  · show (RxPolls.resumed
        ⟨st.ringAfter left, s.completed, s.consumed + st.received,
          s.passed ++ st.passed, s.freed ++ st.freed⟩).Follows
      (s.passed ++ st.passed) (s.freed ++ st.freed)
      (uncut env (s.completed.take (s.consumed + st.received)))
    obtain ⟨e, left', rfl⟩ := hcut
    rw [hreceived, List.take_add, uncut_append, ← hread, resumed_ringAfter]
    refine h.taken_up hdone hreceived (hstop.imp_left ?_)
    rintro ⟨rfl, hst⟩
    exact ⟨rfl, hst, h.follows⟩

theorem step_freeRxData (h : s.held = []) (htold : s.Told env) :
    (s.step env .freeRxData).Told env where
  passed := htold.passed
  freed := htold.freed
  held := htold.held.trans h
  allocs := htold.allocs

theorem RxPolls.Inv.told (h : s.Inv env) : s.Told env := by
  rcases h with hrunning | ⟨-, htold⟩
  · exact hrunning.told
  · exact htold

/-- A step that meets the condition. -/
theorem RxPolls.Inv.step {act : RxPollsAct} (h : s.Inv env)
    (hfits : s.Fits env act) : (s.step env act).Inv env := by
  cases act with
  | complete e =>
    rcases h with hrunning | ⟨hnil, htold⟩
    · exact Or.inl (hrunning.complete e)
    · have hstep : s.step env (.complete e) = s := by
        unfold RxPolls.step
        dsimp only
        rw [hnil]
      rw [hstep]
      exact Or.inr ⟨hnil, htold⟩
  | poll budget =>
    rcases h with hrunning | ⟨hnil, htold⟩
    · exact Or.inl (hrunning.poll hfits)
    · rw [step_poll_idle (Or.inr hnil)]
      exact Or.inr ⟨hnil, htold⟩
  | freeRxData => exact Or.inr ⟨rfl, step_freeRxData hfits h.told⟩

theorem start_inv (env : RxEnv) : RxPolls.start.Inv env :=
  Or.inl
    { consumed_le := le_rfl
      entries := ⟨[], .given, rfl, by decide, rfl⟩
      tail := fun _ he => absurd he List.not_mem_nil
      follows := ⟨rfl, rfl, rfl, rfl, rfl, rfl, rfl⟩ }

theorem RxPolls.Told.accounted (h : s.Told env) : s.Accounted env := by
  have huncut := uncut_accounted env s.read
  unfold RxPoll.Accounted at huncut
  rw [h.passed, h.freed, h.held, h.allocs] at huncut
  exact huncut

theorem RxPolls.Told.agrees {s' : RxPolls} (h : s.Told env)
    (h' : s'.Told env) : s.Agrees s' := by
  intro hread
  have hpassed := h.passed
  have hfreed := h.freed
  rw [hread] at hpassed hfreed
  exact ⟨hpassed.symm.trans h'.passed, hfreed.symm.trans h'.freed⟩

end Runs

/-- Receiving does not depend on where the budgets cut it, and every
socket buffer ends once, in runs whose polls do not stop at a packet that
is dropped with its context descriptor still announced, and whose ring is
not given up with a socket buffer in it. -/
theorem rx_polls_agree (env : RxEnv) (acts acts' : List RxPollsAct)
    (h : Run.Each (RxPolls.step env) (RxPolls.Fits env) .start acts)
    (h' : Run.Each (RxPolls.step env) (RxPolls.Fits env) .start acts') :
    Run.Always (RxPolls.step env) (RxPolls.Accounted env) .start acts
      ∧ (Run.exec (RxPolls.step env) .start acts).Agrees
        (Run.exec (RxPolls.step env) .start acts') := by
  have hinv := h.always (fun _ _ => RxPolls.Inv.step) (start_inv env)
  have hinv' := h'.always (fun _ _ => RxPolls.Inv.step) (start_inv env)
  refine ⟨hinv.mono fun s hs => hs.told.accounted, ?_⟩
  exact hinv.last.told.agrees hinv'.last.told

/-- The first segment of a packet. -/
def droppedLead : RxEntry :=
  completedEntry 0x20000040 (List.replicate 64 0) [] 1

/-- The last segment, with a frame error. -/
def droppedLast : RxEntry :=
  completedEntry 0x18018080 [] (List.replicate 64 0) 2

/-- The context descriptor that it announces. -/
def droppedContext : RxEntry := completedEntry 0x40000000 [] [] 3

/-- The NIC completes all three before a poll. -/
def droppedPacket : List RxPollsAct :=
  [.complete droppedLead, .complete droppedLast, .complete droppedContext]

theorem rx_polls_agree_droppedPacket :
    Run.Always (RxPolls.step plainEnv) (RxPolls.Accounted plainEnv) .start
        [.complete droppedLead, .poll 1, .complete droppedLast,
          .complete droppedContext, .poll 2]
      ∧ (Run.exec (RxPolls.step plainEnv) .start
          [.complete droppedLead, .poll 1, .complete droppedLast,
            .complete droppedContext, .poll 2]).Agrees
        (Run.exec (RxPolls.step plainEnv) .start
          (droppedPacket ++ [.poll 64])) :=
  rx_polls_agree plainEnv _ _ (by decide +kernel) (by decide +kernel)

/-- Polled with budgets of 1, the socket buffer of a packet that is
dropped is freed twice, and with one of 64 once. -/
theorem dropped_packet_freed_twice :
    ¬ ∀ acts acts' : List RxPollsAct,
      (∀ budget, RxPollsAct.poll budget ∈ acts ++ acts' → 0 < budget) →
        (Run.exec (RxPolls.step plainEnv) .start acts).Accounted plainEnv
          ∧ (Run.exec (RxPolls.step plainEnv) .start acts).Agrees
            (Run.exec (RxPolls.step plainEnv) .start acts') := by
  intro hall
  have hpos : ∀ budget, RxPollsAct.poll budget ∈
      (droppedPacket ++ [.poll 1, .poll 1]) ++ (droppedPacket ++ [.poll 64])
      → 0 < budget := by
    simp [droppedPacket]
  obtain ⟨haccounted, -⟩ := hall _ _ hpos
  exact absurd haccounted (by decide +kernel)

/-- The polls of that packet do not agree. -/
example :
    ¬ (Run.exec (RxPolls.step plainEnv) .start
        (droppedPacket ++ [.poll 1, .poll 1])).Agrees
      (Run.exec (RxPolls.step plainEnv) .start
        (droppedPacket ++ [.poll 64])) := by
  decide +kernel

/-- A socket buffer that is left in a ring that is given up is lost. -/
example :
    ¬ (Run.exec (RxPolls.step plainEnv) .start
        [.complete droppedLead, .poll 64, .freeRxData]).Accounted
      plainEnv := by
  decide +kernel

end BxRnic.Mac
