/-
The turns of `mac_rx_poll` without the polls.

A turn takes in one descriptor and starts a new packet where one is over.
The state of a poll is compared with that of turns that are never
interrupted (`Follows`): it has the same packet in the making, and what
it has passed up and freed is what the turns have since the poll began.
-/
import BxRnic.Mac.RxPolls
import BxRnic.Mac.Proofs.AllPoll

namespace BxRnic.Mac

-- ================================================================= turns

/-- A turn of the loop that nothing ends. -/
def RxPoll.turn (env : RxEnv) (st : RxPoll) (entry : RxEntry) : RxPoll :=
  match st.take env entry with
  | (true, st) => st
  | (false, st) => st.fresh

/-- The turns of all that the NIC has completed. -/
def uncut (env : RxEnv) (completed : List RxEntry) : RxPoll :=
  (completed.map RxEntry.given.complete).foldl (RxPoll.turn env)
    (.start RxPolls.start.ring)

/-- An entry without what a poll has saved in it. -/
def RxEntry.unsaved (entry : RxEntry) : RxEntry :=
  { entry with stateSaved := false, state := ⟨none, 0, false⟩ }

section Turns

variable {env : RxEnv} {st st' ref : RxPoll} {p f : List RxSkb}
  {entry : RxEntry}

theorem turn_again (h : st.take env entry = (true, st')) :
    st.turn env entry = st' := by
  unfold RxPoll.turn
  rw [h]

theorem turn_next (h : st.take env entry = (false, st')) :
    st.turn env entry = st'.fresh := by
  unfold RxPoll.turn
  rw [h]

/-- Why a turn goes to `read_again`, or not: there is more to come, and
the packet is not dropped for an error. -/
theorem take_fst (env : RxEnv) (st : RxPoll) (entry : RxEntry) :
    (st.take env entry).1
      = ((st.noted env entry).more
        && (st.error || !(st.noted env entry).pktInfo.frameError)) := by
  cases herr : st.error with
  | true =>
    cases hmore : (st.noted env entry).more with
    | true => rw [take_drain hmore herr]; rfl
    | false =>
      rw [take_drop (by rw [hmore]; rfl) (by rw [herr]; rfl)]
      rfl
  | false =>
    cases hbad : (st.noted env entry).pktInfo.frameError with
    | true =>
      rw [take_drop (by rw [herr, Bool.and_false]) (by rw [hbad, herr]; rfl)]
      rw [Bool.not_true, Bool.or_false, Bool.and_false]
    | false =>
      rw [take_good herr hbad rfl]
      split
      · next hmore => rw [hmore]; rfl
      · next hmore => rw [Bool.of_not_eq_true hmore]; rfl

theorem gather_marks (env : RxEnv) (st : RxPoll) (entry : RxEntry) :
    (st.gather env entry).1.more = st.more
      ∧ (st.gather env entry).1.received = st.received := by
  unfold RxPoll.gather
  dsimp only
  split
  · exact ⟨rfl, rfl⟩
  · split
    · exact ⟨rfl, rfl⟩
    · exact ⟨rfl, rfl⟩

theorem finish_marks (env : RxEnv) (st : RxPoll) :
    (st.finish env).more = st.more
      ∧ (st.finish env).received = st.received := by
  cases hskb : st.skb with
  | none =>
    rw [finish_none hskb]
    exact ⟨rfl, rfl⟩
  | some skb =>
    rw [finish_some hskb]
    split
    · exact ⟨rfl, rfl⟩
    · exact ⟨rfl, rfl⟩

/-- What the descriptor says of the rest of the packet, and the count of
descriptors, are as they were noted. -/
theorem take_marks (env : RxEnv) (st : RxPoll) (entry : RxEntry) :
    (st.take env entry).2.more = (st.noted env entry).more
      ∧ (st.take env entry).2.received = st.received + 1 := by
  unfold RxPoll.take
  dsimp only
  split
  · exact ⟨rfl, rfl⟩
  · split
    · exact ⟨rfl, rfl⟩
    · split
      · split
        · exact ⟨rfl, rfl⟩
        · exact gather_marks env (st.noted env entry) _
      · split
        · exact finish_marks env (st.noted env entry)
        · have hgather := gather_marks env (st.noted env entry)
            entry.devRead
          have hfinish := finish_marks env
            ((st.noted env entry).gather env entry.devRead).1
          exact ⟨hfinish.1.trans hgather.1, hfinish.2.trans hgather.2⟩

/-- There is more to come of a packet that the loop stays with. -/
theorem more_of_again (h : st.take env entry = (true, st')) :
    st'.more = true := by
  have hfst := take_fst env st entry
  have hmarks := (take_marks env st entry).1
  rw [h] at hfst hmarks
  rw [hmarks]
  exact ((Bool.and_eq_true _ _).mp hfst.symm).1

-- ============================================================= following

/-- A poll is where the turns are that nothing ends, `p` having been
passed up and `f` freed before it. -/
structure RxPoll.Follows (p f : List RxSkb) (st ref : RxPoll) : Prop where
  pktInfo : ref.pktInfo = st.pktInfo
  skb : ref.skb = st.skb
  error : ref.error = st.error
  len : ref.len = st.len
  allocs : ref.allocs = st.allocs
  passed : ref.passed = p ++ st.passed
  freed : ref.freed = f ++ st.freed

theorem RxPoll.Follows.noted (h : st.Follows p f ref) (env : RxEnv)
    (entry : RxEntry) :
    (st.noted env entry).Follows p f (ref.noted env entry.unsaved) where
  pktInfo := by
    show ref.pktInfo.devRead env entry.dmaDesc
      = st.pktInfo.devRead env entry.dmaDesc
    rw [h.pktInfo]
  skb := h.skb
  error := h.error
  len := h.len
  allocs := h.allocs
  passed := h.passed
  freed := h.freed

theorem RxPoll.Follows.leave (h : st.Follows p f ref)
    (entry entry' : RxEntry) :
    (st.leave entry).Follows p f (ref.leave entry') :=
  ⟨h.pktInfo, h.skb, h.error, h.len, h.allocs, h.passed, h.freed⟩

/-- The socket buffer is freed. -/
theorem RxPoll.Follows.drop (h : st.Follows p f ref) :
    RxPoll.Follows p f { st with freed := st.freed ++ st.skb.toList }
      { ref with freed := ref.freed ++ ref.skb.toList } where
  pktInfo := h.pktInfo
  skb := h.skb
  error := h.error
  len := h.len
  allocs := h.allocs
  passed := h.passed
  freed := by
    show ref.freed ++ ref.skb.toList = f ++ (st.freed ++ st.skb.toList)
    rw [h.freed, h.skb, List.append_assoc]

theorem RxPoll.Follows.fresh (h : st.Follows p f ref) :
    st.fresh.Follows p f ref.fresh :=
  ⟨rfl, rfl, rfl, rfl, h.allocs, h.passed, h.freed⟩

theorem devRead_unsaved (entry : RxEntry) :
    entry.unsaved.devRead = entry.devRead.unsaved := by
  unfold RxEntry.devRead
  by_cases hctxt : entry.dmaDesc.ctxt = true
  · rw [if_pos hctxt]
    exact if_pos hctxt
  · rw [if_neg hctxt]
    exact if_neg hctxt

/-- What has been saved in an entry does not come into its socket
buffer. -/
theorem createSkb_unsaved (env : RxEnv) (id : Nat) (entry : RxEntry)
    (len : U32) :
    (createSkb env id entry.unsaved len).1
      = (createSkb env id entry len).1 := by
  unfold createSkb
  split
  · rw [apply_ite Prod.fst, apply_ite Prod.fst]
    rfl
  · rfl

theorem RxPoll.Follows.gather (h : st.Follows p f ref)
    (entry : RxEntry) :
    (st.gather env entry).1.Follows p f
      (ref.gather env entry.unsaved).1 := by
  obtain ⟨hinfo, hskb, herr, hlen, hallocs, hpassed, hfreed⟩ := h
  have hdata : entry.unsaved.len - ref.len = entry.len - st.len :=
    congrArg (entry.len - ·) hlen
  unfold RxPoll.gather
  dsimp only
  rw [hdata, hlen]
  split
  · exact ⟨hinfo, hskb, herr, rfl, hallocs, hpassed, hfreed⟩
  · rw [hskb]
    cases st.skb with
    | none =>
      have hmade := createSkb_unsaved env st.allocs entry
        (entry.len - st.len)
      rw [← hallocs] at hmade ⊢
      exact ⟨hinfo, hmade, congrArg Option.isNone hmade, rfl, rfl, hpassed,
        hfreed⟩
    | some skb =>
      exact ⟨hinfo, rfl, herr, rfl, hallocs, hpassed, hfreed⟩

theorem RxPoll.Follows.finish (h : st.Follows p f ref) (env : RxEnv) :
    (st.finish env).Follows p f (ref.finish env) := by
  have hskb := h.skb
  cases hmade : st.skb with
  | none =>
    rw [hmade] at hskb
    rw [finish_none hmade, finish_none hskb]
    exact h
  | some skb =>
    rw [hmade] at hskb
    rw [finish_some hmade, finish_some hskb, h.pktInfo]
    obtain ⟨-, -, herr, hlen, hallocs, hpassed, hfreed⟩ := h
    have hskb' := hskb.trans hmade.symm
    split
    · refine ⟨rfl, hskb', herr, hlen, hallocs, hpassed, ?_⟩
      show ref.freed ++ [skb] = f ++ (st.freed ++ [skb])
      rw [hfreed, List.append_assoc]
    · refine ⟨rfl, hskb', herr, hlen, hallocs, ?_, hfreed⟩
      show ref.passed ++ [skb.dress env st.pktInfo]
        = p ++ (st.passed ++ [skb.dress env st.pktInfo])
      rw [hpassed, List.append_assoc]

/-- The announcements of a descriptor come from what is known of its
packet. -/
theorem RxPoll.Follows.noted_more (h : st.Follows p f ref) (env : RxEnv)
    (entry : RxEntry) :
    (ref.noted env entry.unsaved).more = (st.noted env entry).more := by
  show ((ref.pktInfo.devRead env entry.dmaDesc).incomplete
      || (ref.pktInfo.devRead env entry.dmaDesc).contextNext)
    = ((st.pktInfo.devRead env entry.dmaDesc).incomplete
      || (st.pktInfo.devRead env entry.dmaDesc).contextNext)
  rw [h.pktInfo]

/-- What a descriptor adds to a packet that is in order. -/
theorem RxPoll.Follows.added (h : st.Follows p f ref) (env : RxEnv)
    (entry : RxEntry) (context : Bool) :
    (if context then (st, entry) else st.gather env entry).1.Follows p f
      (if context then (ref, entry.unsaved)
        else ref.gather env entry.unsaved).1 := by
  cases context with
  | true => exact h
  | false => exact h.gather entry

/-- A turn does the same to both. -/
theorem RxPoll.Follows.take (h : st.Follows p f ref) (env : RxEnv)
    (entry : RxEntry) :
    (ref.take env entry.unsaved).1 = (st.take env entry).1
      ∧ (st.take env entry).2.Follows p f
        (ref.take env entry.unsaved).2 := by
  have hnoted := h.noted env entry
  have hmore := h.noted_more env entry
  cases herr : st.error with
  | true =>
    have herr' := h.error.trans herr
    cases hrest : (st.noted env entry).more with
    | true =>
      rw [take_drain hrest herr, take_drain (hmore.trans hrest) herr']
      exact ⟨rfl, hnoted.leave _ _⟩
    | false =>
      rw [take_drop (by rw [hmore, hrest]; rfl) (by rw [herr']; rfl),
        take_drop (by rw [hrest]; rfl) (by rw [herr]; rfl)]
      exact ⟨rfl, hnoted.drop.leave _ _⟩
  | false =>
    have herr' := h.error.trans herr
    have hinfo := congrArg RxPktInfo.frameError hnoted.pktInfo
    cases hbad : (st.noted env entry).pktInfo.frameError with
    | true =>
      rw [take_drop (by rw [herr', Bool.and_false])
          (by rw [hinfo, hbad, herr']; rfl),
        take_drop (by rw [herr, Bool.and_false]) (by rw [hbad, herr]; rfl)]
      exact ⟨rfl, hnoted.drop.leave _ _⟩
    | false =>
      rw [take_good herr hbad rfl, take_good herr' (hinfo.trans hbad) rfl,
        hmore, hnoted.pktInfo, devRead_unsaved]
      have hadded := hnoted.added env entry.devRead
        (st.noted env entry).pktInfo.context
      split
      · exact ⟨rfl, hadded.leave _ _⟩
      · exact ⟨rfl, (hadded.leave _ _).finish env⟩

/-- Interrupted or not, a turn does the same. -/
theorem RxPoll.Follows.turn (h : st.Follows p f ref) (env : RxEnv)
    (entry : RxEntry) :
    (st.turn env entry).Follows p f (ref.turn env entry.unsaved) := by
  obtain ⟨hfst, hsnd⟩ := h.take env entry
  cases htake : st.take env entry with
  | mk again st' =>
    cases htake' : ref.take env entry.unsaved with
    | mk again' ref' =>
      rw [htake, htake'] at hfst hsnd
      cases hfst
      cases again with
      | true =>
        rw [turn_again htake, turn_again htake']
        exact hsnd
      | false =>
        rw [turn_next htake, turn_next htake']
        exact hsnd.fresh

end Turns

-- ============================================================ accounting

/-- The socket buffers that the first `n` calls have allocated. -/
def allocated (env : RxEnv) (n : Nat) : List Nat :=
  (List.range n).filter env.alloc

/-- Every socket buffer that was allocated has been passed up or freed or
is that of the packet in the making, and is one of these once. -/
def RxPoll.Accounted (env : RxEnv) (st : RxPoll) : Prop :=
  ((st.passed ++ st.freed ++ st.skb.toList).map RxSkb.id).Perm
    (allocated env st.allocs)

section Account

variable {env : RxEnv} {st st' : RxPoll} {entry : RxEntry}

theorem allocated_succ (env : RxEnv) (n : Nat) :
    allocated env (n + 1)
      = allocated env n ++ if env.alloc n then [n] else [] := by
  unfold allocated
  rw [List.range_succ, List.filter_append, List.filter_singleton,
    Bool.cond_eq_ite]

/-- `mac_create_skb` gives its number to the socket buffer. -/
theorem createSkb_ids (env : RxEnv) (id : Nat) (entry : RxEntry)
    (len : U32) :
    (createSkb env id entry len).1.toList.map RxSkb.id
      = if env.alloc id then [id] else [] := by
  unfold createSkb
  split
  · dsimp only
    generalize (if entry.hdr.dmaLen < _ then _ else _) = copyLen
    split
    · rfl
    · rfl
  · rfl

theorem gather_accounted (h : st.Accounted env) (entry : RxEntry) :
    (st.gather env entry).1.Accounted env := by
  unfold RxPoll.Accounted at h
  unfold RxPoll.gather
  dsimp only
  split
  · exact h
  · cases hskb : st.skb with
    | none =>
      rw [hskb, Option.toList_none, List.append_nil] at h
      show ((st.passed ++ st.freed
          ++ (createSkb env st.allocs entry (entry.len - st.len)).1.toList
        ).map RxSkb.id).Perm (allocated env (st.allocs + 1))
      rw [List.map_append, createSkb_ids, allocated_succ]
      exact h.append_right _
    | some skb =>
      rw [hskb, List.map_append] at h
      show ((st.passed ++ st.freed
          ++ [skb.addRxFrag entry.buf (entry.len - st.len)]
        ).map RxSkb.id).Perm (allocated env st.allocs)
      rw [List.map_append]
      exact h

/-- A packet that is dropped. -/
theorem drop_accounted (h : st.Accounted env) :
    RxPoll.Accounted env (RxPoll.fresh
      { st with freed := st.freed ++ st.skb.toList }) := by
  unfold RxPoll.Accounted at h ⊢
  show ((st.passed ++ (st.freed ++ st.skb.toList) ++ []).map
    RxSkb.id).Perm (allocated env st.allocs)
  rw [List.append_nil, ← List.append_assoc]
  exact h

/-- A packet that is complete. -/
theorem finish_accounted (h : st.Accounted env) :
    (st.finish env).fresh.Accounted env := by
  cases hskb : st.skb with
  | none =>
    rw [finish_none hskb]
    unfold RxPoll.Accounted at h ⊢
    rw [hskb] at h
    exact h
  | some skb =>
    rw [finish_some hskb]
    split
    · have hdrop := drop_accounted h
      rw [hskb] at hdrop
      exact hdrop
    · unfold RxPoll.Accounted at h ⊢
      rw [hskb] at h
      refine List.Perm.trans ?_ h
      show ((st.passed ++ [skb.dress env st.pktInfo] ++ st.freed ++ []).map
        RxSkb.id).Perm ((st.passed ++ st.freed ++ [skb]).map RxSkb.id)
      rw [List.append_nil, List.append_assoc, List.append_assoc,
        List.map_append, List.map_append, List.map_append, List.map_append]
      exact List.perm_append_comm.append_left _

theorem turn_accounted (h : st.Accounted env) (entry : RxEntry) :
    (st.turn env entry).Accounted env := by
  have hnoted : (st.noted env entry).Accounted env := h
  cases herr : st.error with
  | true =>
    cases hrest : (st.noted env entry).more with
    | true =>
      rw [turn_again (take_drain hrest herr)]
      exact hnoted
    | false =>
      rw [turn_next (take_drop (by rw [hrest]; rfl) (by rw [herr]; rfl))]
      exact drop_accounted hnoted
  | false =>
    cases hbad : (st.noted env entry).pktInfo.frameError with
    | true =>
      rw [turn_next (take_drop (by rw [herr, Bool.and_false])
        (by rw [hbad, herr]; rfl))]
      exact drop_accounted hnoted
    | false =>
      have htake := take_good herr hbad rfl
      have hadded : ((if (st.noted env entry).pktInfo.context then
            (st.noted env entry, entry.devRead)
          else (st.noted env entry).gather env entry.devRead).1).Accounted
          env := by
        split
        · exact hnoted
        · exact gather_accounted hnoted _
      cases hrest : (st.noted env entry).more with
      | true =>
        rw [hrest, if_pos rfl] at htake
        rw [turn_again htake]
        exact hadded
      | false =>
        rw [hrest, if_neg Bool.false_ne_true] at htake
        rw [turn_next htake]
        exact finish_accounted hadded

/-- Nothing is lost or freed twice by turns that nothing ends. -/
theorem uncut_accounted (env : RxEnv) (completed : List RxEntry) :
    (uncut env completed).Accounted env := by
  have hturns : ∀ (es : List RxEntry) (st : RxPoll), st.Accounted env →
      (es.foldl (RxPoll.turn env) st).Accounted env := by
    intro es
    induction es with
    | nil => exact fun st h => h
    | cons e es ih => exact fun st h => ih _ (turn_accounted h e)
  exact hturns _ _ (List.Perm.refl [])

end Account

end BxRnic.Mac
