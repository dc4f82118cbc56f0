/-
The loop of `mac_rx_poll` over the entries of a frame.

Every segment but the last sends the loop to `read_again`; the last one,
or the context descriptor after it, ends the packet. What has then been
passed up and freed, and what is left in the entries, is read off the
segments (`loop_frame`).
-/
import BxRnic.Mac.Proofs.RxFrame

namespace BxRnic.Mac

variable {env : RxEnv} {st st₀ : RxPoll} {entry : RxEntry} {budget : Nat}
  {ss : List Segment} {s : Segment} {ctx : Bool} {before : Nat}

-- ================================================================= turns

theorem loop_again {entries : List RxEntry} {st' : RxPoll}
    (hown : entry.dmaDesc.own = false)
    (htake : st.take env entry = (true, st')) :
    st.loop env budget (entry :: entries)
      = st'.loop env budget entries := by
  rw [RxPoll.loop, if_neg (by rw [hown]; exact Bool.false_ne_true), htake]

/-- Where the loop stands after a packet. -/
theorem loop_next {entries : List RxEntry} {st' : RxPoll}
    (hown : entry.dmaDesc.own = false)
    (htake : st.take env entry = (false, st')) :
    st.loop env budget (entry :: entries)
      = if st'.packetCount + 1 < budget then
          (RxPoll.fresh
            { st' with packetCount := st'.packetCount + 1 }).loop
            env budget entries
        else ({ st' with packetCount := st'.packetCount + 1 }, entries) := by
  rw [RxPoll.loop, if_neg (by rw [hown]; exact Bool.false_ne_true), htake]

/-- The loop ends at a descriptor that the NIC has not completed. -/
theorem loop_idle {rest : List RxEntry}
    (hrest : ∀ e ∈ rest.head?, e.dmaDesc.own = true) :
    st.loop env budget rest = (st, rest) := by
  cases rest with
  | nil => rfl
  | cons e rest => rw [RxPoll.loop, if_pos (hrest e rfl)]

-- ============================================================== verdicts

/-- What becomes of a packet: passed up or freed. -/
def packetEnd (env : RxEnv) (bad : Bool) (info : RxPktInfo) :
    Option RxSkb → List RxSkb × List RxSkb
  | none => ([], [])
  | some skb =>
      if bad ∨ maxLen env skb.protocol < skb.len then ([], [skb])
      else ([skb.dress env info], [])

/-- Where the loop ends with what has been passed up and freed, and the
entries it has read and not read. -/
structure EndsWith (x : RxPoll × List RxEntry) (passed freed : List RxSkb)
    (trail : List RxEntry) : Prop where
  passed : x.1.passed = passed
  freed : x.1.freed = freed
  trail : x.1.read ++ x.2 = trail

theorem packetEnd_some (env : RxEnv) (bad : Bool) (info : RxPktInfo)
    (skb : RxSkb) :
    packetEnd env bad info (some skb)
      = if bad ∨ maxLen env skb.protocol < skb.len then ([], [skb])
        else ([skb.dress env info], []) := rfl

theorem finish_none (h : st.skb = none) : st.finish env = st := by
  unfold RxPoll.finish
  rw [h]

theorem finish_some {skb : RxSkb} (h : st.skb = some skb) :
    st.finish env
      = if maxLen env skb.protocol < skb.len then
          { st with freed := st.freed ++ [skb] }
        else
          { st with passed := st.passed ++ [skb.dress env st.pktInfo] } := by
  unfold RxPoll.finish
  rw [h]

theorem finish_spec (env : RxEnv) (st : RxPoll) :
    (st.finish env).passed
        = st.passed ++ (packetEnd env false st.pktInfo st.skb).1
      ∧ (st.finish env).freed
        = st.freed ++ (packetEnd env false st.pktInfo st.skb).2
      ∧ (st.finish env).read = st.read := by
  cases hskb : st.skb with
  | none =>
    rw [finish_none hskb]
    exact ⟨(List.append_nil _).symm, (List.append_nil _).symm, rfl⟩
  | some skb =>
    rw [finish_some hskb, packetEnd_some]
    by_cases hlong : maxLen env skb.protocol < skb.len
    · rw [if_pos hlong, if_pos (Or.inr hlong)]
      exact ⟨(List.append_nil _).symm, rfl, rfl⟩
    · have hgood : ¬ (false = true ∨ maxLen env skb.protocol < skb.len) := by
        rintro (hbad | hlong')
        · cases hbad
        · exact hlong hlong'
      rw [if_neg hlong, if_neg hgood]
      exact ⟨rfl, (List.append_nil _).symm, rfl⟩

theorem packetEnd_bad (env : RxEnv) (info : RxPktInfo)
    (skb : Option RxSkb) :
    packetEnd env true info skb = ([], skb.toList) := by
  cases skb with
  | none => rfl
  | some skb =>
    rw [packetEnd_some]
    exact if_pos (Or.inl rfl)

-- ============================================================== segments

/-- The flags of a packet that is not over. -/
structure RxPktInfo.Clear (info : RxPktInfo) (ctx : Bool) : Prop where
  frameError : info.frameError = false
  contextNext : info.contextNext = true → ctx = true

/-- There is more to come of the packet. -/
def RxPoll.more (st : RxPoll) : Bool := st.incomplete || st.contextNext

theorem leave_finish (env : RxEnv) (st : RxPoll) (entry : RxEntry) :
    (st.finish env).leave entry = (st.leave entry).finish env := by
  cases hskb : st.skb with
  | none =>
    have hskb' : (st.leave entry).skb = none := hskb
    rw [finish_none hskb, finish_none hskb']
  | some skb =>
    have hskb' : (st.leave entry).skb = some skb := hskb
    rw [finish_some hskb, finish_some hskb']
    split
    · rfl
    · rfl

/-- An earlier error: the rest of the packet is drained. -/
theorem take_drain (hmore : (st.noted env entry).more = true)
    (herr : st.error = true) :
    st.take env entry
      = (true, (st.noted env entry).leave entry.devRead) := by
  have hcond : ((st.noted env entry).more && st.error) = true := by
    rw [hmore, herr]
    rfl
  exact if_pos hcond

/-- The packet is dropped with its socket buffer. -/
theorem take_drop (hmore : ((st.noted env entry).more && st.error) = false)
    (herr : (st.error || (st.noted env entry).pktInfo.frameError) = true) :
    st.take env entry
      = (false, RxPoll.leave
          { st.noted env entry with freed := st.freed ++ st.skb.toList }
          entry.devRead) := by
  have hcond : ¬ ((st.noted env entry).more && st.error) = true := by
    rw [hmore]
    exact Bool.false_ne_true
  exact (if_neg hcond).trans (if_pos herr)

/-- The turn of a packet that is in order: what is taken in, and whether
the packet is over. -/
theorem take_good (herr : st.error = false)
    (hbad : (st.noted env entry).pktInfo.frameError = false)
    {p : RxPoll × RxEntry}
    (hp : (if (st.noted env entry).pktInfo.context then
        (st.noted env entry, entry.devRead)
      else (st.noted env entry).gather env entry.devRead) = p) :
    st.take env entry
      = if (st.noted env entry).more then (true, p.1.leave p.2)
        else (false, (p.1.leave p.2).finish env) := by
  have hdrain : ¬ ((st.noted env entry).more && st.error) = true := by
    rw [herr, Bool.and_false]
    exact Bool.false_ne_true
  have hdrop : ¬ (st.error
      || (st.noted env entry).pktInfo.frameError) = true := by
    rw [herr, hbad]
    exact Bool.false_ne_true
  subst hp
  rw [← leave_finish]
  exact (if_neg hdrain).trans (if_neg hdrop)

/-- A segment is taken in, and if it is the last the packet is
finished. -/
theorem take_segment (hctx : (st.noted env s.entry).pktInfo.context = false)
    (herr : st.error = false)
    (hbad : (st.noted env s.entry).pktInfo.frameError = false) :
    st.take env s.entry
      = if (st.noted env s.entry).more then
          (true, (st.noted env s.entry).absorb env s)
        else (false, ((st.noted env s.entry).absorb env s).finish env) := by
  have herr' : ¬ (st.noted env s.entry).error = true := by
    show ¬ st.error = true
    rw [herr]
    exact Bool.false_ne_true
  have habs : (st.noted env s.entry).absorb env s
      = ((st.noted env s.entry).gather env s.held).1.leave
          ((st.noted env s.entry).gather env s.held).2 := if_neg herr'
  rw [habs]
  refine take_good herr hbad ?_
  rw [hctx]
  rfl

/-- A context descriptor finishes the packet. -/
theorem take_context (hctxt : entry.dmaDesc.ctxt = true)
    (hmore : (st.noted env entry).more = false)
    (hctx : (st.noted env entry).pktInfo.context = true)
    (herr : st.error = false)
    (hbad : (st.noted env entry).pktInfo.frameError = false) :
    st.take env entry
      = (false, ((st.noted env entry).leave entry).finish env) := by
  have hread : entry.devRead = entry := if_pos hctxt
  have hp := take_good (p := (st.noted env entry, entry)) herr hbad (by
    rw [hctx, hread]
    rfl)
  rw [hp, hmore]
  rfl

theorem absorb_pktInfo (env : RxEnv) (st : RxPoll) (s : Segment) :
    (st.absorb env s).pktInfo = st.pktInfo := by
  unfold RxPoll.absorb RxPoll.gather
  split
  · rfl
  · dsimp only
    split
    · rfl
    · cases hskb : st.skb with
      | none => rfl
      | some skb => rfl

/-- The flags while a segment that is not the last is read. -/
theorem noted_mid (env : RxEnv) (hs : s.Written before false ctx)
    (hinfo : st.pktInfo.Clear ctx) :
    (st.noted env s.entry).more = true
      ∧ (st.noted env s.entry).pktInfo.context = false
      ∧ (st.noted env s.entry).pktInfo.Clear ctx := by
  obtain ⟨hctx, hnext, hinc, herr⟩ :=
    devRead_flags env st.pktInfo hs.normal
  rw [hs.ends] at hinc herr
  refine ⟨?_, hctx, ?_, fun h => ?_⟩
  · show ((st.pktInfo.devRead env s.entry.dmaDesc).incomplete
      || (st.pktInfo.devRead env s.entry.dmaDesc).contextNext) = true
    rw [hinc]
    rfl
  · rw [hinfo.frameError] at herr
    exact herr
  · have hor := hnext.symm.trans h
    rcases (Bool.or_eq_true _ _).mp hor with hold | hcda
    · exact hinfo.contextNext hold
    · exact hs.cda hcda

/-- A segment that is not the last is taken in, or drained. -/
theorem take_mid (hs : s.Written before false ctx)
    (hinfo : st.pktInfo.Clear ctx) :
    st.take env s.entry
      = (true, (st.noted env s.entry).absorb env s) := by
  obtain ⟨hmore, hctx, hclear⟩ := noted_mid env hs hinfo
  cases herr : st.error with
  | true =>
    have herr' : (st.noted env s.entry).error = true := herr
    rw [take_drain hmore herr, absorb_error herr']
    rfl
  | false =>
    rw [take_segment hctx herr hclear.frameError, if_pos hmore]

/-- The loop up to the last segment. -/
theorem loop_front (env : RxEnv) (budget : Nat) (st₀ : RxPoll)
    (ss : List Segment) :
    ∀ (s : Segment) (done : List Segment) (st : RxPoll),
      WrittenFrom ctx (done.flatMap Segment.bytes).length (s :: ss) →
      Poured env st₀ done st → st.pktInfo.Clear ctx →
      ∃ st', Poured env st₀ (done ++ (s :: ss).dropLast) st'
        ∧ st'.pktInfo.Clear ctx
        ∧ ((s :: ss).getLast (List.cons_ne_nil _ _)).Written
            ((done ++ (s :: ss).dropLast).flatMap Segment.bytes).length
            true ctx
        ∧ ∀ es, st.loop env budget ((s :: ss).map Segment.entry ++ es)
          = st'.loop env budget
              (((s :: ss).getLast (List.cons_ne_nil _ _)).entry :: es) := by
  induction ss with
  | nil =>
    intro s done st hw hp hinfo
    have hdone : done ++ [s].dropLast = done := List.append_nil done
    rw [hdone]
    exact ⟨st, hp, hinfo, hw.1, fun es => rfl⟩
  | cons r rs ih =>
    intro s done st hw hp hinfo
    have hs : s.Written (done.flatMap Segment.bytes).length false ctx :=
      hw.1
    have hlen : ((done ++ [s]).flatMap Segment.bytes).length
        = (done.flatMap Segment.bytes).length + s.bytes.length := by
      rw [List.flatMap_append, List.length_append,
        List.flatMap_singleton]
    have hp' := (hp.noted s.entry).absorb hs
    have hinfo' : ((st.noted env s.entry).absorb env s).pktInfo.Clear ctx
        := by
      rw [absorb_pktInfo]
      exact (noted_mid env hs hinfo).2.2
    obtain ⟨st', hpour, hclear, hlast, hloop⟩ :=
      ih r (done ++ [s]) _ (hlen ▸ hw.2) hp' hinfo'
    have hsplit : done ++ (s :: r :: rs).dropLast
        = (done ++ [s]) ++ (r :: rs).dropLast := by
      rw [List.append_assoc]
      rfl
    refine ⟨st', hsplit ▸ hpour, hclear, ?_, fun es => ?_⟩
    · rw [hsplit]
      exact hlast
    · rw [List.map_cons, List.cons_append,
        loop_again hs.own (take_mid hs hinfo)]
      exact hloop es

-- =============================================================== the end

section End

variable {st' : RxPoll} {rest : List RxEntry}

/-- The packet is over, and the NIC has completed nothing more. -/
theorem ends_idle (budget : Nat) (hown : entry.dmaDesc.own = false)
    (htake : st.take env entry = (false, st'))
    (hrest : ∀ e ∈ rest.head?, e.dmaDesc.own = true) :
    EndsWith (st.loop env budget (entry :: rest)) st'.passed st'.freed
      (st'.read ++ rest) := by
  rw [loop_next hown htake]
  split
  · rw [loop_idle hrest]
    exact ⟨rfl, rfl, rfl⟩
  · exact ⟨rfl, rfl, rfl⟩

/-- The packet is over ahead of its context descriptor, which is then
read as a packet of its own or left for the next poll. -/
theorem ends_stray (budget : Nat) {e : RxEntry} (hown : entry.dmaDesc.own = false)
    (htake : st.take env entry = (false, st'))
    (he : e.dmaDesc.own = false ∧ e.dmaDesc.ctxt = true)
    (hrest : ∀ e ∈ rest.head?, e.dmaDesc.own = true) :
    EndsWith (st.loop env budget (entry :: e :: rest)) st'.passed st'.freed
      (st'.read ++ e :: rest) := by
  rw [loop_next hown htake]
  split
  · obtain ⟨hctx, hnext, hinc, hbad⟩ :=
      devRead_context env RxPktInfo.zero he.2
    have hmore : (RxPoll.noted env (RxPoll.fresh
        { st' with packetCount := st'.packetCount + 1 }) e).more = false := by
      show ((RxPktInfo.zero.devRead env e.dmaDesc).incomplete
        || (RxPktInfo.zero.devRead env e.dmaDesc).contextNext) = false
      rw [hinc, hnext]
      rfl
    have hend := ends_idle budget he.1
      (take_context he.2 hmore hctx rfl hbad) hrest
    rw [finish_none rfl] at hend
    refine ⟨hend.passed, hend.freed, hend.trail.trans ?_⟩
    exact List.append_assoc _ _ _
  · exact ⟨rfl, rfl, rfl⟩

/-- The packet is over: whatever is left is not looked at, or is its
context descriptor. -/
theorem ends_over (budget : Nat) {ctx : Option RxEntry}
    (hown : entry.dmaDesc.own = false)
    (htake : st.take env entry = (false, st'))
    (hctx : ∀ e ∈ ctx, e.dmaDesc.own = false ∧ e.dmaDesc.ctxt = true)
    (hrest : ∀ e ∈ rest.head?, e.dmaDesc.own = true) :
    EndsWith (st.loop env budget (entry :: (ctx.toList ++ rest)))
      st'.passed st'.freed (st'.read ++ (ctx.toList ++ rest)) := by
  cases ctx with
  | none => exact ends_idle budget hown htake hrest
  | some e => exact ends_stray budget hown htake (hctx e rfl) hrest

/-- The flags after the last segment. -/
theorem noted_last (env : RxEnv) (hs : s.Written before true ctx)
    (hinfo : st.pktInfo.Clear ctx) :
    (st.noted env s.entry).more = ctx
      ∧ (st.noted env s.entry).pktInfo.context = false
      ∧ (st.noted env s.entry).pktInfo.incomplete = false
      ∧ (st.noted env s.entry).pktInfo.frameError
        = s.entry.dmaDesc.frameError := by
  obtain ⟨hctx, hnext, hinc, herr⟩ :=
    devRead_flags env st.pktInfo hs.normal
  rw [hs.ends] at hinc herr
  rw [hinfo.frameError] at herr
  refine ⟨?_, hctx, hinc, herr⟩
  show ((st.pktInfo.devRead env s.entry.dmaDesc).incomplete
    || (st.pktInfo.devRead env s.entry.dmaDesc).contextNext) = ctx
  rw [hinc, hnext]
  cases ctx with
  | false =>
    have hold : st.pktInfo.contextNext = false := by
      by_contra h
      exact Bool.false_ne_true (hinfo.contextNext (by simpa using h))
    have hcda : s.entry.dmaDesc.cda = false := by
      by_contra h
      exact Bool.false_ne_true (hs.cda (by simpa using h))
    rw [hold, hcda]
    rfl
  | true =>
    rw [hs.cda_last rfl rfl]
    simp

/-- The flags after the context descriptor of a packet. -/
theorem noted_context (env : RxEnv) (st : RxPoll) {e : RxEntry}
    (he : e.dmaDesc.ctxt = true)
    (hinc : st.pktInfo.incomplete = false) :
    (st.noted env e).more = false
      ∧ (st.noted env e).pktInfo.context = true
      ∧ (st.noted env e).pktInfo.frameError = st.pktInfo.frameError := by
  obtain ⟨hctx, hnext, hinc', hbad⟩ := devRead_context env st.pktInfo he
  refine ⟨?_, hctx, hbad⟩
  show ((st.pktInfo.devRead env e.dmaDesc).incomplete
    || (st.pktInfo.devRead env e.dmaDesc).contextNext) = false
  rw [hinc', hinc, hnext]
  rfl

/-- After an error the last segment is drained, its context descriptor
too, and the packet is dropped. -/
theorem ends_error (env : RxEnv) (budget : Nat) {c : Option RxEntry}
    (hs : s.Written before true c.isSome)
    (hinfo : st.pktInfo.Clear c.isSome) (herr : st.error = true)
    (hc : ∀ e ∈ c, e.dmaDesc.own = false ∧ e.dmaDesc.ctxt = true)
    (hrest : ∀ e ∈ rest.head?, e.dmaDesc.own = true) :
    EndsWith (st.loop env budget (s.entry :: (c.toList ++ rest)))
      st.passed (st.freed ++ st.skb.toList)
      (st.read ++ s.held :: (c.toList ++ rest)) := by
  obtain ⟨hmore, -, hinc, -⟩ := noted_last env hs hinfo
  have hdrop (b : Bool) : (st.error || b) = true := by
    rw [herr]
    rfl
  cases c with
  | none =>
    have hstop : ((st.noted env s.entry).more && st.error) = false := by
      rw [hmore]
      rfl
    have hend := ends_over budget hs.own (take_drop hstop (hdrop _)) hc
      hrest
    refine ⟨hend.passed, hend.freed, hend.trail.trans ?_⟩
    exact List.append_assoc _ _ _
  | some e =>
    obtain ⟨hown, hctxt⟩ := hc e rfl
    have hread : e.devRead = e := if_pos hctxt
    rw [Option.toList_some, List.singleton_append,
      loop_again hs.own (take_drain hmore herr)]
    generalize hr : (st.noted env s.entry).leave s.entry.devRead = r
    have hinc' : r.pktInfo.incomplete = false := by
      rw [← hr]
      exact hinc
    have herr' : r.error = true := by
      rw [← hr]
      exact herr
    have hstop : ((r.noted env e).more && r.error) = false := by
      rw [(noted_context env r hctxt hinc').1]
      rfl
    have hend := ends_idle budget hown
      (take_drop hstop (by rw [herr']; rfl)) hrest
    have hend' : EndsWith (r.loop env budget (e :: rest)) r.passed
        (r.freed ++ r.skb.toList) ((r.read ++ [e.devRead]) ++ rest) := hend
    rw [← hr] at hend' ⊢
    refine ⟨hend'.passed, hend'.freed, hend'.trail.trans ?_⟩
    show ((st.read ++ [s.held]) ++ [e.devRead]) ++ rest = _
    rw [hread]
    simp

/-- An error that the NIC reports drops the packet as it is. -/
theorem ends_reported (budget : Nat) {c : Option RxEntry}
    (hs : s.Written before true c.isSome)
    (hinfo : st.pktInfo.Clear c.isSome) (herr : st.error = false)
    (hbad : s.entry.dmaDesc.frameError = true)
    (hc : ∀ e ∈ c, e.dmaDesc.own = false ∧ e.dmaDesc.ctxt = true)
    (hrest : ∀ e ∈ rest.head?, e.dmaDesc.own = true) :
    EndsWith (st.loop env budget (s.entry :: (c.toList ++ rest)))
      st.passed (st.freed ++ st.skb.toList)
      (st.read ++ s.held :: (c.toList ++ rest)) := by
  obtain ⟨-, -, -, hframe⟩ := noted_last env hs hinfo
  have hstop : ((st.noted env s.entry).more && st.error) = false := by
    rw [herr]
    exact Bool.and_false _
  have hdrop : (st.error
      || (st.noted env s.entry).pktInfo.frameError) = true := by
    rw [hframe, hbad]
    exact Bool.or_true _
  have hend := ends_over budget hs.own (take_drop hstop hdrop) hc hrest
  refine ⟨hend.passed, hend.freed, hend.trail.trans ?_⟩
  exact List.append_assoc _ _ _

/-- Otherwise the last segment is taken in and the packet is
finished. -/
theorem ends_good (budget : Nat) {c : Option RxEntry}
    (hs : s.Written before true c.isSome)
    (hinfo : st.pktInfo.Clear c.isSome) (herr : st.error = false)
    (hgood : s.entry.dmaDesc.frameError = false)
    (hc : ∀ e ∈ c, e.dmaDesc.own = false ∧ e.dmaDesc.ctxt = true)
    (hrest : ∀ e ∈ rest.head?, e.dmaDesc.own = true)
    (hst : (st.noted env s.entry).absorb env s = st')
    (hnone : st'.error = true → st'.skb = none) :
    ∃ info, EndsWith (st.loop env budget (s.entry :: (c.toList ++ rest)))
      (st'.passed ++ (packetEnd env false info st'.skb).1)
      (st'.freed ++ (packetEnd env false info st'.skb).2)
      (st'.read ++ (c.toList ++ rest)) := by
  obtain ⟨hmore, hctx, hinc, hframe⟩ := noted_last env hs hinfo
  rw [hgood] at hframe
  have htake := take_segment hctx herr hframe
  rw [hst] at htake
  have hinfo' : st'.pktInfo = (st.noted env s.entry).pktInfo := by
    rw [← hst, absorb_pktInfo]
  cases c with
  | none =>
    rw [if_neg (by rw [hmore]; exact Bool.false_ne_true)] at htake
    obtain ⟨hpassed, hfreed, hread⟩ := finish_spec env st'
    have hend := ends_over budget hs.own htake hc hrest
    refine ⟨st'.pktInfo, hend.passed.trans hpassed,
      hend.freed.trans hfreed, hend.trail.trans ?_⟩
    rw [hread]
  | some e =>
    rw [hmore, Option.isSome_some, if_pos rfl] at htake
    obtain ⟨hown, hctxt⟩ := hc e rfl
    have hinc' : st'.pktInfo.incomplete = false := by
      rw [hinfo']
      exact hinc
    obtain ⟨hmore', hctx', hframe'⟩ :=
      noted_context env st' hctxt hinc'
    rw [hinfo', hframe] at hframe'
    rw [Option.toList_some, List.singleton_append,
      loop_again hs.own htake]
    cases herr' : st'.error with
    | true =>
      have hstop : ((st'.noted env e).more && st'.error) = false := by
        rw [hmore']
        rfl
      have hdrop : (st'.error
          || (st'.noted env e).pktInfo.frameError) = true := by
        rw [herr']
        rfl
      have hread : e.devRead = e := if_pos hctxt
      have hend := ends_idle budget hown (take_drop hstop hdrop) hrest
      rw [hnone herr'] at hend ⊢
      refine ⟨.zero, hend.passed.trans (List.append_nil _).symm,
        hend.freed, hend.trail.trans ?_⟩
      show (st'.read ++ [e.devRead]) ++ rest = _
      rw [hread, List.append_assoc]
      rfl
    | false =>
      have hend := ends_idle budget hown
        (take_context hctxt hmore' hctx' herr' hframe') hrest
      obtain ⟨hpassed, hfreed, hread⟩ :=
        finish_spec env ((st'.noted env e).leave e)
      refine ⟨_, hend.passed.trans hpassed, hend.freed.trans hfreed,
        hend.trail.trans ?_⟩
      rw [hread]
      exact List.append_assoc _ _ _

end End

-- =============================================================== frames

/-- The last segment, whose descriptor says how the frame was
received. -/
def RxFrame.last (f : RxFrame) : Segment :=
  f.segments.getLast (List.cons_ne_nil _ _)

/-- The NIC reports an error. -/
def RxFrame.reported (f : RxFrame) : Bool :=
  f.last.entry.dmaDesc.frameError

/-- The segments whose data is taken in: not the one that reports an
error. -/
def RxFrame.gathered (f : RxFrame) : List Segment :=
  if f.reported then f.segments.dropLast else f.segments

/-- The socket buffer of a frame, if it can be allocated. -/
def RxFrame.skb (f : RxFrame) (env : RxEnv) (id : Nat) : Option RxSkb :=
  if env.alloc id then skbFrom id f.gathered else none

/-- The entries of a frame after the poll. -/
def RxFrame.spent (f : RxFrame) (env : RxEnv) (id : Nat) :
    List RxEntry :=
  entriesAfter (env.alloc id) f.gathered
    ++ (if f.reported then [f.last.held] else []) ++ f.ctx.toList

theorem entriesAfter_false (ss : List Segment) :
    entriesAfter false ss = ss.map Segment.held := rfl

theorem RxFrame.dropLast_append_last (f : RxFrame) :
    f.segments.dropLast ++ [f.last] = f.segments :=
  List.dropLast_append_getLast _

/-- The loop over a frame, from the start of a packet. -/
theorem loop_frame (env : RxEnv) (budget : Nat) {f : RxFrame}
    (hf : f.Written) {rest : List RxEntry} (hskb : st₀.skb = none)
    (herr : st₀.error = false) (hlen : st₀.len = 0)
    (hinfo : st₀.pktInfo = .zero)
    (hrest : ∀ e ∈ rest.head?, e.dmaDesc.own = true) :
    ∃ info, EndsWith (st₀.loop env budget (f.entries ++ rest))
      (st₀.passed
        ++ (packetEnd env f.reported info (f.skb env st₀.allocs)).1)
      (st₀.freed
        ++ (packetEnd env f.reported info (f.skb env st₀.allocs)).2)
      (st₀.read ++ f.spent env st₀.allocs ++ rest) := by
  have hclear : st₀.pktInfo.Clear f.ctx.isSome := by
    rw [hinfo]
    exact ⟨rfl, fun h => absurd h Bool.false_ne_true⟩
  obtain ⟨st, hp, hclear, hlast, hloop⟩ :=
    loop_front env budget st₀ f.later f.lead [] st₀ hf.segments
      (poured_nil hskb herr hlen) hclear
  have hentries : f.entries ++ rest
      = (f.lead :: f.later).map Segment.entry
        ++ (f.ctx.toList ++ rest) := List.append_assoc _ _ _
  rw [hentries, hloop]
  change Poured env st₀ f.segments.dropLast st at hp
  change f.last.Written (f.segments.dropLast.flatMap
    Segment.bytes).length true _ at hlast
  change ∃ info, EndsWith (st.loop env budget (f.last.entry :: _)) _ _ _
  unfold RxFrame.skb RxFrame.spent RxFrame.gathered
  cases hbad : f.reported with
  | true =>
    have hend : EndsWith (st.loop env budget
        (f.last.entry :: (f.ctx.toList ++ rest))) st.passed
        (st.freed ++ st.skb.toList)
        (st.read ++ f.last.held :: (f.ctx.toList ++ rest)) := by
      cases herr' : st.error with
      | true => exact ends_error env budget hlast hclear herr' hf.ctx hrest
      | false =>
        exact ends_reported budget hlast hclear herr' hbad hf.ctx hrest
    refine ⟨.zero, ?_⟩
    rw [packetEnd_bad]
    simp only [if_true]
    refine ⟨hend.passed.trans (hp.passed.trans (List.append_nil _).symm),
      hend.freed.trans (by rw [hp.freed, hp.skb]), hend.trail.trans ?_⟩
    rw [hp.read]
    simp
  | false =>
    have hp' := (hp.noted f.last.entry).absorb hlast
    rw [f.dropLast_append_last] at hp'
    simp only [Bool.false_eq_true, if_false]
    cases herr' : st.error with
    | true =>
      obtain ⟨halloc, -⟩ := hp.error.1 herr'
      have hnone : st.skb = none := by
        rw [hp.skb, halloc]
        rfl
      have hend := ends_error env budget hlast hclear herr' hf.ctx hrest
      rw [halloc]
      refine ⟨.zero, hend.passed.trans ?_, hend.freed.trans ?_,
        hend.trail.trans ?_⟩
      · rw [hp.passed]
        exact (List.append_nil _).symm
      · rw [hp.freed, hnone]
        rfl
      · rw [hp.read, halloc, entriesAfter_false, entriesAfter_false]
        have hall := congrArg (List.map Segment.held)
          f.dropLast_append_last
        rw [List.map_append] at hall
        rw [← hall]
        simp
    | false =>
      obtain ⟨info, hend⟩ := ends_good budget hlast hclear herr' hbad
        hf.ctx hrest rfl (fun h => by
          rw [hp'.skb, (hp'.error.1 h).1]
          rfl)
      refine ⟨info, hend.passed.trans ?_, hend.freed.trans ?_,
        hend.trail.trans ?_⟩
      · rw [hp'.passed, hp'.skb]
      · rw [hp'.freed, hp'.skb]
      · rw [hp'.read]
        simp

end BxRnic.Mac
