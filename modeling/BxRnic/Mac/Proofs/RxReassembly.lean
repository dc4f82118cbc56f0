/-
Receive reassembly: what one poll makes of a frame that the NIC has
written, against what it should make of it.

The length filter asks for the protocol of the socket buffer, which
`eth_type_trans` sets only afterwards, so that a tagged frame gets no
room for its tag. The socket buffer is made of the first descriptor with
data, taken to have a header; and nothing counts the fragments.
-/
import BxRnic.Mac.Proofs.RxPacket

namespace BxRnic.Mac

-- ========================================================= what is meant

/-- The frame has an 802.1Q tag behind the two addresses. -/
def RxFrame.tagged (f : RxFrame) : Bool :=
  f.data[12]? = some 0x81 ∧ f.data[13]? = some 0x00

/-- The longest frame to be passed up, with room for a tag that is not
stripped. -/
def RxFrame.limit (f : RxFrame) (env : RxEnv) : Nat :=
  env.mtu.toNat + 14 + if ¬ env.vlanCtagRx ∧ f.tagged then 4 else 0

/-- What becomes of a frame is right: it is dropped only for a reason and
otherwise passed up as it is, and every page stays with its entry or goes
to the socket buffer. -/
structure Reassembled (env : RxEnv) (ring : RxView) (f : RxFrame)
    (x : RxPoll × RxView) : Prop where
  dropped : x.1.passed = []
    ↔ f.reported = true ∨ env.alloc ring.allocs = false
      ∨ f.limit env < f.data.length
  passed : x.1.passed ≠ [] →
    ∃ skb, x.1.passed = [skb] ∧ skb.bytes = f.data.map some
  pages : ((x.1.passed ++ x.1.freed).flatMap RxSkb.pages
      ++ (x.1.read ++ x.2.entries).flatMap RxEntry.pages).Perm
    (ring.entries.flatMap RxEntry.pages)
  owner : List.Forall₂
    (fun before after => after = before ∨ after = [])
    (ring.entries.map RxEntry.pages)
    ((x.1.read ++ x.2.entries).map RxEntry.pages)

/-- The poll makes the right thing of a frame. -/
def RxFrame.Fits (env : RxEnv) (id : Nat) (f : RxFrame) : Prop :=
  (env.alloc id = true → (fragsFrom f.gathered).length ≤ maxSkbFrags)
    ∧ (f.reported = true ∨ env.alloc id = false
      ∨ f.limit env < f.data.length
      ∨ (f.lead.bytes ≠ [] ∧ f.data.length ≤ env.mtu.toNat + 14))

-- ================================================================ entries

section Entries

variable {env : RxEnv} {ss : List Segment} {ctx : Bool} {f : RxFrame}

/-- An entry keeps its page or loses it. -/
abbrev Keeps (before after : List Nat) : Prop :=
  after = before ∨ after = []

theorem keeps_held (hw : AllWritten ctx ss) :
    List.Forall₂ Keeps ((ss.map Segment.entry).map RxEntry.pages)
      ((ss.map Segment.held).map RxEntry.pages) := by
  induction ss with
  | nil => exact .nil
  | cons s ss ih => exact .cons (Or.inl hw.head.1) (ih hw.tail)

theorem keeps_added (hw : AllWritten ctx ss) :
    List.Forall₂ Keeps ((ss.map Segment.entry).map RxEntry.pages)
      ((ss.map Segment.added).map RxEntry.pages) := by
  induction ss with
  | nil => exact .nil
  | cons s ss ih =>
    refine .cons ?_ (ih hw.tail)
    unfold Segment.added
    split
    · exact Or.inl hw.head.1
    · exact Or.inr rfl

theorem keeps_from (hw : AllWritten ctx ss) :
    List.Forall₂ Keeps ((ss.map Segment.entry).map RxEntry.pages)
      ((entriesFrom ss).map RxEntry.pages) := by
  induction ss with
  | nil => exact .nil
  | cons s ss ih =>
    unfold entriesFrom
    split
    · exact .cons (Or.inl hw.head.1) (ih hw.tail)
    · refine .cons ?_ (keeps_added hw.tail)
      unfold Segment.opened
      split
      · exact Or.inr rfl
      · exact Or.inl hw.head.1

theorem keeps_after (hw : AllWritten ctx ss) (allocated : Bool) :
    List.Forall₂ Keeps ((ss.map Segment.entry).map RxEntry.pages)
      ((entriesAfter allocated ss).map RxEntry.pages) := by
  unfold entriesAfter
  split
  · exact keeps_from hw
  · exact keeps_held hw

theorem RxFrame.Written.all (hf : f.Written) :
    AllWritten f.ctx.isSome f.segments := WrittenFrom.all 0 hf.segments

theorem RxFrame.Written.front (hf : f.Written) :
    AllWritten f.ctx.isSome f.segments.dropLast :=
  fun s hs => hf.all s (List.dropLast_subset _ hs)

theorem RxFrame.Written.gathered (hf : f.Written) :
    AllWritten f.ctx.isSome f.gathered := by
  unfold RxFrame.gathered
  split
  · exact hf.front
  · exact hf.all

theorem RxFrame.Written.last_pages (hf : f.Written) :
    f.last.held.pages = f.last.entry.pages := by
  obtain ⟨_, _, hs⟩ := hf.all f.last (List.getLast_mem _)
  exact hs.held_pages

/-- The entries of a frame, the segment with the error apart. -/
theorem RxFrame.entries_split (f : RxFrame) :
    f.entries = f.gathered.map Segment.entry
      ++ (if f.reported then [f.last.entry] else []) ++ f.ctx.toList := by
  unfold RxFrame.entries RxFrame.gathered
  split
  · have hall := congrArg (List.map Segment.entry) f.dropLast_append_last
    rw [List.map_append] at hall
    rw [← hall]
    rfl
  · rw [List.append_nil]

theorem keeps_spent (hf : f.Written) (env : RxEnv) (id : Nat) :
    List.Forall₂ Keeps (f.entries.map RxEntry.pages)
      ((f.spent env id).map RxEntry.pages) := by
  rw [f.entries_split, RxFrame.spent, List.map_append, List.map_append,
    List.map_append, List.map_append]
  refine List.rel_append (List.rel_append
    (keeps_after hf.gathered _) ?_) ?_
  · split
    · exact .cons (Or.inl hf.last_pages) .nil
    · exact .nil
  · exact List.forall₂_same.2 fun _ _ => Or.inl rfl

-- ================================================================== pages

theorem fragsFrom_of_none {id : Nat} (h : skbFrom id ss = none) :
    fragsFrom ss = [] := by
  induction ss with
  | nil => rfl
  | cons s ss ih =>
    by_cases hs : s.bytes = []
    · rw [skbFrom, if_pos hs] at h
      rw [fragsFrom, if_pos hs]
      exact ih h
    · rw [skbFrom, if_neg hs] at h
      cases h

/-- The pages of the socket buffer of segments. -/
theorem skbFrom_pages (id : Nat) (ss : List Segment) :
    (skbFrom id ss).toList.flatMap RxSkb.pages
      = fragPages ((fragsFrom ss).take maxSkbFrags) := by
  cases hskb : skbFrom id ss with
  | none =>
    rw [fragsFrom_of_none hskb]
    rfl
  | some skb =>
    obtain ⟨-, hfr, -⟩ := skbFrom_spec hskb
    rw [Option.toList_some, List.flatMap_singleton, RxSkb.pages, hfr]
    rfl

/-- The pages of a frame are all there exactly if its fragments have
room. -/
theorem spent_pages_iff (hf : f.Written) (env : RxEnv) (id : Nat)
    (rest : List Nat) :
    ((f.skb env id).toList.flatMap RxSkb.pages
        ++ ((f.spent env id).flatMap RxEntry.pages ++ rest)).Perm
      (f.entries.flatMap RxEntry.pages ++ rest)
    ↔ (env.alloc id = true →
        (fragsFrom f.gathered).length ≤ maxSkbFrags) := by
  have hlast : (if f.reported then [f.last.held] else []).flatMap
        RxEntry.pages
      = (if f.reported then [f.last.entry] else []).flatMap
        RxEntry.pages := by
    split
    · rw [List.flatMap_singleton, List.flatMap_singleton, hf.last_pages]
    · rfl
  rw [f.entries_split, RxFrame.spent, List.flatMap_append,
    List.flatMap_append, List.flatMap_append, List.flatMap_append, hlast,
    List.append_assoc, List.append_assoc, List.append_assoc,
    List.append_assoc, ← List.append_assoc, List.perm_append_right_iff]
  unfold RxFrame.skb entriesAfter
  cases halloc : env.alloc id with
  | false =>
    refine iff_of_true ?_ fun h => absurd h Bool.false_ne_true
    rw [if_neg Bool.false_ne_true, if_neg Bool.false_ne_true,
      held_pages_all hf.gathered]
    exact List.Perm.refl _
  | true =>
    rw [if_pos rfl, if_pos rfl, skbFrom_pages,
      kept_pages_iff hf.gathered]
    exact ⟨fun h _ => h, fun h => h rfl⟩

end Entries

-- =================================================================== calls

section Calls

variable {env : RxEnv} {f : RxFrame} {ring : RxView}
  {rest : List RxEntry} {budget : Nat}

theorem save_pages (st : RxPoll) (entry : RxEntry) :
    (st.save entry).pages = entry.pages := by
  unfold RxPoll.save
  split
  · rfl
  · rfl

theorem ringAfter_pages (st : RxPoll) (entries : List RxEntry) :
    (st.ringAfter entries).entries.map RxEntry.pages
      = entries.map RxEntry.pages := by
  cases entries with
  | nil => rfl
  | cons entry entries =>
    show (st.save entry).pages :: _ = _
    rw [save_pages]
    rfl

/-- One call with a frame at the start of the ring. -/
theorem macRxPoll_frame (env : RxEnv) (hf : f.Written)
    (hring : ring.entries = f.entries ++ rest)
    (hrest : ∀ e ∈ rest.head?, e.dmaDesc.own = true)
    (hsaved : f.lead.entry.stateSaved = false) (hbudget : 0 < budget) :
    ∃ info, (macRxPoll env ring budget).1.passed
        = (packetEnd env f.reported info (f.skb env ring.allocs)).1
      ∧ (macRxPoll env ring budget).1.freed
        = (packetEnd env f.reported info (f.skb env ring.allocs)).2
      ∧ ((macRxPoll env ring budget).1.read
          ++ (macRxPoll env ring budget).2.entries).map RxEntry.pages
        = (f.spent env ring.allocs ++ rest).map RxEntry.pages := by
  have hresume : (RxPoll.start ring).resume f.lead.entry
      = (RxPoll.start ring).fresh := by
    unfold RxPoll.resume
    rw [if_neg]
    rw [hsaved]
    exact Bool.false_ne_true
  have hentries : f.entries ++ rest = f.lead.entry
      :: (f.later.map Segment.entry ++ f.ctx.toList ++ rest) := rfl
  have hturns : rxTurns env ring budget
      = (RxPoll.start ring).fresh.loop env budget (f.entries ++ rest) := by
    unfold rxTurns
    rw [if_pos hbudget, hring, hentries]
    dsimp only
    rw [hresume]
  obtain ⟨info, hend⟩ := loop_frame env budget hf
    (rfl : (RxPoll.start ring).fresh.skb = none) rfl rfl rfl hrest
  rw [← hturns] at hend
  refine ⟨info, hend.passed, hend.freed, ?_⟩
  have htrail := congrArg (List.map RxEntry.pages) hend.trail
  rw [List.map_append] at htrail ⊢
  refine (congrArg _ (ringAfter_pages _ _)).trans (htrail.trans ?_)
  rfl

theorem packetEnd_pages (env : RxEnv) (bad : Bool) (info : RxPktInfo)
    (skb : Option RxSkb) :
    ((packetEnd env bad info skb).1
        ++ (packetEnd env bad info skb).2).flatMap RxSkb.pages
      = skb.toList.flatMap RxSkb.pages := by
  cases skb with
  | none => rfl
  | some skb =>
    rw [packetEnd_some]
    split
    · rfl
    · rfl

theorem flatMap_pages (entries : List RxEntry) :
    entries.flatMap RxEntry.pages
      = (entries.map RxEntry.pages).flatten := rfl

/-- The length of a frame is that of its socket buffer. -/
theorem RxFrame.Written.data_lt (hf : f.Written) :
    f.data.length < 2 ^ 32 := by
  have hlast : ∀ (ss : List Segment) (s : Segment) (before : Nat),
      WrittenFrom f.ctx.isSome before (s :: ss) →
      before + ((s :: ss).flatMap Segment.bytes).length < 2 ^ 32 := by
    intro ss
    induction ss with
    | nil =>
      intro s before hw
      have hpl := hw.1.packetLen
      have hlt := s.entry.dmaDesc.packetLen.isLt
      rw [List.flatMap_singleton]
      omega
    | cons r rs ih =>
      intro s before hw
      have hrest := ih r _ hw.2
      rw [List.flatMap_cons, List.length_append]
      omega
  have hall := hlast f.later f.lead 0 hf.segments
  rw [Nat.zero_add] at hall
  exact hall

/-- The length filter, for a socket buffer that has no protocol yet. -/
theorem maxLen_lt_iff (env : RxEnv) {n : Nat} (hn : n < 2 ^ 32) :
    maxLen env 0 < BitVec.ofNat 32 n ↔ env.mtu.toNat + 14 < n := by
  have hproto : ¬ (¬ env.vlanCtagRx ∧ (0 : U16) = ETH_P_8021Q) := by
    rintro ⟨-, h⟩
    exact absurd h (by decide)
  have hmtu := env.mtu_le
  unfold maxLen
  rw [if_neg hproto, BitVec.lt_def, BitVec.toNat_ofNat]
  unfold ETH_HLEN jumboPacketMtu at *
  rw [Nat.mod_eq_of_lt hn]
  bv_omega

theorem RxFrame.le_limit (f : RxFrame) (env : RxEnv) :
    env.mtu.toNat + 14 ≤ f.limit env := Nat.le_add_right _ _

theorem stale_of_empty {id : Nat} {skb : RxSkb} (hf : f.Written)
    (hlead : f.lead.bytes = [])
    (hskb : skbFrom id f.segments = some skb) :
    ∃ bytes, skb.bytes = none :: bytes := by
  have hlater : skbFrom id f.later = some skb := by
    have hcons : skbFrom id (f.lead :: f.later) = some skb := hskb
    rwa [skbFrom, if_pos hlead] at hcons
  exact skbFrom_stale hf.later _ hf.segments.2 hlater

/-- Whether the frame passed up or dropped is the right thing, given that
its fragments have room. -/
theorem packet_right_iff (hf : f.Written) (env : RxEnv) (id : Nat)
    (info : RxPktInfo)
    (hroom : env.alloc id = true →
      (fragsFrom f.gathered).length ≤ maxSkbFrags) :
    ((((packetEnd env f.reported info (f.skb env id)).1 = []
          ↔ f.reported = true ∨ env.alloc id = false
            ∨ f.limit env < f.data.length))
        ∧ ((packetEnd env f.reported info (f.skb env id)).1 ≠ [] →
          ∃ skb, (packetEnd env f.reported info (f.skb env id)).1 = [skb]
            ∧ skb.bytes = f.data.map some))
      ↔ (f.reported = true ∨ env.alloc id = false
        ∨ f.limit env < f.data.length
        ∨ (f.lead.bytes ≠ [] ∧ f.data.length ≤ env.mtu.toNat + 14)) := by
  have hlimit := f.le_limit env
  cases hrep : f.reported with
  | true =>
    rw [packetEnd_bad]
    refine iff_of_true ⟨iff_of_true rfl (Or.inl rfl), ?_⟩ (Or.inl rfl)
    exact fun hne => absurd rfl hne
  | false =>
    cases halloc : env.alloc id with
    | false =>
      have hnone : f.skb env id = none := by
        unfold RxFrame.skb
        rw [halloc]
        rfl
      rw [hnone]
      refine iff_of_true ⟨iff_of_true rfl (Or.inr (Or.inl rfl)), ?_⟩
        (Or.inr (Or.inl rfl))
      exact fun hne => absurd rfl hne
    | true =>
      have hgathered : f.gathered = f.segments := by
        unfold RxFrame.gathered
        rw [hrep]
        rfl
      have hskb : f.skb env id = skbFrom id f.segments := by
        unfold RxFrame.skb
        rw [halloc, hgathered]
        rfl
      have hroom' := hroom halloc
      rw [hgathered] at hroom'
      rw [hskb]
      cases hfrom : skbFrom id f.segments with
      | none =>
        have hdata : f.data = [] := skbFrom_eq_none.1 hfrom
        have hlead : f.lead.bytes = [] := by
          have hall : f.lead.bytes ++ f.later.flatMap Segment.bytes = [] :=
            hdata
          exact (List.append_eq_nil_iff.1 hall).1
        have hshort : ¬ f.limit env < f.data.length := by
          rw [hdata]
          exact Nat.not_lt_zero _
        refine iff_of_false ?_ ?_
        · rintro ⟨hdrop, -⟩
          rcases hdrop.1 rfl with h | h | h
          · cases h
          · cases h
          · exact hshort h
        · rintro (h | h | h | ⟨h, -⟩)
          · cases h
          · cases h
          · exact hshort h
          · exact h hlead
      | some skb =>
        obtain ⟨hproto, -, hlen⟩ := skbFrom_spec hfrom
        change skb.len = BitVec.ofNat 32 f.data.length at hlen
        have hfilter : (false = true ∨ maxLen env skb.protocol < skb.len)
            ↔ env.mtu.toNat + 14 < f.data.length := by
          rw [hproto, hlen, maxLen_lt_iff env hf.data_lt]
          exact or_iff_right Bool.false_ne_true
        by_cases hlong : env.mtu.toNat + 14 < f.data.length
        · -- the filter drops the frame
          rw [packetEnd_some, if_pos (hfilter.2 hlong)]
          constructor
          · rintro ⟨hdrop, -⟩
            exact (hdrop.1 rfl).imp_right (Or.imp_right Or.inl)
          · rintro (h | h | h | ⟨-, h⟩)
            · cases h
            · cases h
            · exact ⟨iff_of_true rfl (Or.inr (Or.inr h)),
                fun hne => absurd rfl hne⟩
            · omega
        · -- the frame is passed up
          have hshort : ¬ f.limit env < f.data.length := by omega
          rw [packetEnd_some, if_neg (mt hfilter.1 hlong)]
          have hpass : (skb.dress env info).bytes = skb.bytes := rfl
          constructor
          · rintro ⟨-, hbytes⟩
            refine Or.inr (Or.inr (Or.inr ⟨fun hlead => ?_, by omega⟩))
            obtain ⟨skb', heq, hdata⟩ := hbytes (List.cons_ne_nil _ _)
            cases heq
            obtain ⟨bytes, hstale⟩ := stale_of_empty hf hlead hfrom
            rw [hpass, hstale] at hdata
            cases hd : f.data with
            | nil =>
              rw [hd] at hdata
              cases hdata
            | cons b bs =>
              rw [hd] at hdata
              cases hdata
          · rintro (h | h | h | ⟨hlead, -⟩)
            · cases h
            · cases h
            · exact absurd h hshort
            · refine ⟨iff_of_false (List.cons_ne_nil _ _) ?_, fun _ =>
                ⟨_, rfl, ?_⟩⟩
              · rintro (h | h | h)
                · cases h
                · cases h
                · exact hshort h
              · exact hpass.trans (skbFrom_bytes hf.lead hf.later
                  hf.segments hlead hroom' hfrom)

/-- One poll of a frame that the NIC has written makes the right thing of
it exactly if the frame fits. -/
theorem mac_rx_poll_reassembles_iff (env : RxEnv) (f : RxFrame)
    (ring : RxView) (rest : List RxEntry) (budget : Nat)
    (hf : f.Written) (hring : ring.entries = f.entries ++ rest)
    (hrest : ∀ e ∈ rest.head?, e.dmaDesc.own = true)
    (hsaved : f.lead.entry.stateSaved = false) (hbudget : 0 < budget) :
    Reassembled env ring f (macRxPoll env ring budget)
      ↔ f.Fits env ring.allocs := by
  obtain ⟨info, hpassed, hfreed, hpages⟩ :=
    macRxPoll_frame env hf hring hrest hsaved hbudget
  have hskb : ((macRxPoll env ring budget).1.passed
        ++ (macRxPoll env ring budget).1.freed).flatMap RxSkb.pages
      = (f.skb env ring.allocs).toList.flatMap RxSkb.pages := by
    rw [hpassed, hfreed]
    exact packetEnd_pages _ _ _ _
  have hkept : ((macRxPoll env ring budget).1.read
        ++ (macRxPoll env ring budget).2.entries).flatMap RxEntry.pages
      = (f.spent env ring.allocs).flatMap RxEntry.pages
        ++ rest.flatMap RxEntry.pages := by
    rw [flatMap_pages, hpages, ← flatMap_pages, List.flatMap_append]
  have hperm := spent_pages_iff hf env ring.allocs
    (rest.flatMap RxEntry.pages)
  rw [← hskb, ← hkept, ← List.flatMap_append, ← hring] at hperm
  constructor
  · intro h
    have hroom := hperm.1 h.pages
    refine ⟨hroom, (packet_right_iff hf env _ info hroom).1 ⟨?_, ?_⟩⟩
    · rw [← hpassed]
      exact h.dropped
    · rw [← hpassed]
      exact h.passed
  · rintro ⟨hroom, hright⟩
    obtain ⟨hdropped, hpass⟩ :=
      (packet_right_iff hf env _ info hroom).2 hright
    rw [← hpassed] at hdropped hpass
    refine ⟨hdropped, hpass, hperm.2 hroom, ?_⟩
    rw [hpages, hring, List.map_append, List.map_append]
    exact List.rel_append (keeps_spent hf env _)
      (List.forall₂_same.2 fun _ _ => Or.inl rfl)

end Calls

-- =================================================================== cases

/-- A completed entry with these buffers. -/
def completedEntry (desc3 : U32) (hdr buf : List U8) (page : Nat) :
    RxEntry where
  dmaDesc := ⟨0, 0, 0, desc3⟩
  hdr := ⟨some 0, 0, 512, hdr⟩
  buf := ⟨some page, 0, 1536, buf⟩
  hdrLen := 0
  len := 0
  stateSaved := false
  state := ⟨none, 0, false⟩

/-- A device that leaves the tags in the frames. -/
def plainEnv : RxEnv where
  alloc _ := true
  ethTypeTrans _ := ETH_P_8021Q
  mtu := 1500
  mtu_le := by decide
  rxcsum := true
  vlanCtagRx := false
  queueIndex := 0

/-- Two bytes, three bytes more, and a context descriptor. -/
def twoSegments : RxFrame where
  lead := ⟨completedEntry 0x28000002 [1, 2] [] 1, [1, 2]⟩
  later := [⟨completedEntry 0x18000005 [] [3, 4, 5] 2, [3, 4, 5]⟩]
  ctx := some (completedEntry 0x40000000 [] [] 3)

theorem twoSegments_written : twoSegments.Written where
  segments := by
    refine ⟨?_, ?_, trivial⟩
    · constructor <;> decide +kernel
    · constructor <;> decide +kernel
  lead := by constructor <;> decide +kernel
  later := by
    intro s hs
    rw [List.mem_singleton.1 hs]
    constructor <;> decide +kernel
  ctx := by
    rintro e he
    cases he
    exact ⟨by decide +kernel, by decide +kernel⟩

theorem mac_rx_poll_reassembles_iff_twoSegments :
    Reassembled plainEnv ⟨.zero, twoSegments.entries, 0⟩ twoSegments
      (macRxPoll plainEnv ⟨.zero, twoSegments.entries, 0⟩ 64) := by
  refine (mac_rx_poll_reassembles_iff plainEnv twoSegments
    ⟨.zero, twoSegments.entries, 0⟩ [] 64 twoSegments_written
    (List.append_nil _).symm (fun e he => by cases he) rfl
    (by decide)).2 ⟨fun _ => by decide +kernel, ?_⟩
  exact Or.inr (Or.inr (Or.inr ⟨by decide, by decide +kernel⟩))

/-- A frame of the largest size with its tag. -/
def taggedBytes : List U8 :=
  List.replicate 12 0 ++ [0x81, 0x00] ++ List.replicate 1504 0

/-- It fills the header buffer and goes on in the data buffer. -/
def taggedFrame : RxFrame where
  lead :=
    ⟨completedEntry 0x300005ee (taggedBytes.take 512)
      (taggedBytes.drop 512) 1, taggedBytes⟩
  later := []
  ctx := none

theorem taggedFrame_written : taggedFrame.Written where
  segments := by
    refine ⟨?_, trivial⟩
    constructor <;> decide +kernel
  lead := by constructor <;> decide +kernel
  later := by
    intro s hs
    cases hs
  ctx := by
    intro e he
    cases he

/-- A frame of `mtu + ETH_HLEN + VLAN_HLEN` bytes with an 802.1Q tag that
nobody strips is dropped. -/
theorem tagged_frame_dropped :
    ¬ ∀ (f : RxFrame) (ring : RxView), f.Written →
        ring.entries = f.entries → f.lead.entry.stateSaved = false →
        Reassembled plainEnv ring f (macRxPoll plainEnv ring 64) := by
  intro h
  have hright := h taggedFrame ⟨.zero, taggedFrame.entries, 0⟩
    taggedFrame_written rfl rfl
  have hdropped : (macRxPoll plainEnv ⟨.zero, taggedFrame.entries, 0⟩
      64).1.passed = [] := by decide +kernel
  rcases hright.dropped.1 hdropped with hrep | halloc | hlong
  · exact absurd hrep (by decide +kernel)
  · cases halloc
  · exact absurd hlong (by decide +kernel)

end BxRnic.Mac
