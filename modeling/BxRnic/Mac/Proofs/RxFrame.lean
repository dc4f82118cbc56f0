/-
A frame in a receive ring: what the NIC writes for it, and what the poll
makes of its segments one by one.

The socket buffer of a frame is that of its first segment with data,
with a fragment added for every later one (`skbFrom`). The loop of
`mac_rx_poll` is followed segment by segment (`absorb`): before there is
data, with a socket buffer, and after an allocation has failed.
-/
import Mathlib.Data.List.Perm.Basic
import BxRnic.Mac.RxPoll

namespace BxRnic.Mac

-- ============================================================= the frame

/-- An entry with the bytes of a frame the NIC used it for. -/
structure Segment where
  entry : RxEntry
  bytes : List U8

/-- How much of the first segment goes to the header buffer: the header
where headers are split off, otherwise what the buffer has room for. -/
def Segment.headerLen (s : Segment) : Nat :=
  if s.entry.dmaDesc.hdrLen ≠ 0 then s.entry.dmaDesc.hdrLen.toNat
  else min s.entry.hdr.dmaLen.toNat s.bytes.length

/-- A completed descriptor for a segment with so many bytes of the frame
before it. -/
structure Segment.Written (s : Segment) (before : Nat) (last ctx : Bool) :
    Prop where
  own : s.entry.dmaDesc.own = false
  normal : s.entry.dmaDesc.ctxt = false
  packetLen : s.entry.dmaDesc.packetLen.toNat = before + s.bytes.length
  ends : s.entry.dmaDesc.last = last
  /-- A context descriptor is announced if there is one, in the last
  descriptor at the latest. -/
  cda : s.entry.dmaDesc.cda = true → ctx = true
  cda_last : last = true → ctx = true → s.entry.dmaDesc.cda = true
  /-- `mac_map_rx_buffer` -/
  hdrRoom : s.entry.hdr.dmaLen = BitVec.ofNat 32 skbAllocSize
  page : s.entry.buf.pages.isSome = true

/-- The first segment is put into both buffers. -/
structure Segment.Leads (s : Segment) : Prop where
  first : s.entry.dmaDesc.first = true
  header : s.headerLen ≤ s.bytes.length
  hdrFits : s.headerLen ≤ s.entry.hdr.dmaLen.toNat
  bufFits : s.bytes.length - s.headerLen ≤ s.entry.buf.dmaLen.toNat
  hdrData : s.entry.hdr.data = s.bytes.take s.headerLen
  bufData : s.entry.buf.data = s.bytes.drop s.headerLen

/-- A later one is put into the data buffer only. The entry has not been
read since `mac_unmap_desc_data` cleared it. -/
structure Segment.Follows (s : Segment) : Prop where
  first : s.entry.dmaDesc.first = false
  hdrLen : s.entry.hdrLen = 0
  hdrData : s.entry.hdr.data = []
  bufFits : s.bytes.length ≤ s.entry.buf.dmaLen.toNat
  bufData : s.entry.buf.data = s.bytes

/-- The segments of a frame, and the context descriptor after them. -/
structure RxFrame where
  lead : Segment
  later : List Segment
  ctx : Option RxEntry

def RxFrame.segments (f : RxFrame) : List Segment := f.lead :: f.later

/-- The bytes of the frame. -/
def RxFrame.data (f : RxFrame) : List U8 :=
  f.segments.flatMap Segment.bytes

def RxFrame.entries (f : RxFrame) : List RxEntry :=
  f.segments.map Segment.entry ++ f.ctx.toList

/-- The lengths are cumulative. -/
def WrittenFrom (ctx : Bool) : Nat → List Segment → Prop
  | _, [] => True
  | before, s :: ss =>
      s.Written before ss.isEmpty ctx
        ∧ WrittenFrom ctx (before + s.bytes.length) ss

/-- The NIC has written a frame. -/
structure RxFrame.Written (f : RxFrame) : Prop where
  segments : WrittenFrom f.ctx.isSome 0 f.segments
  lead : f.lead.Leads
  later : ∀ s ∈ f.later, s.Follows
  ctx : ∀ e ∈ f.ctx, e.dmaDesc.own = false ∧ e.dmaDesc.ctxt = true

-- ======================================================= packet info

section Info

variable (env : RxEnv) (info : RxPktInfo) {d : DmaDesc}

theorem getRss_flags (d : DmaDesc) :
    (info.getRss d).context = info.context
      ∧ (info.getRss d).contextNext = info.contextNext
      ∧ (info.getRss d).frameError = info.frameError := by
  unfold RxPktInfo.getRss
  split
  · exact ⟨rfl, rfl, rfl⟩
  · exact ⟨rfl, rfl, rfl⟩

theorem getLast_flags (d : DmaDesc) :
    (info.getLast env d).context = info.context
      ∧ (info.getLast env d).contextNext = info.contextNext
      ∧ (info.getLast env d).incomplete = false
      ∧ (info.getLast env d).frameError
        = (info.frameError || d.frameError) := by
  -- the checksum setting touches none of the flags
  have hcsum : ∀ i : RxPktInfo, ∀ j, j = (if env.rxcsum then
      { i with csumDone := true } else i) →
      j.context = i.context ∧ j.contextNext = i.contextNext
        ∧ j.incomplete = i.incomplete ∧ j.frameError = i.frameError := by
    rintro i j rfl
    split
    · exact ⟨rfl, rfl, rfl, rfl⟩
    · exact ⟨rfl, rfl, rfl, rfl⟩
  obtain ⟨hctx, hnext, hinc, herr⟩ :=
    hcsum { info with incomplete := false } _ rfl
  simp only [RxPktInfo.getLast, DmaDesc.frameError]
  split
  · rename_i hok
    split
    · refine ⟨hctx, hnext, hinc, herr.trans ?_⟩
      grind
    · refine ⟨hctx, hnext, hinc, herr.trans ?_⟩
      grind
  · split
    · refine ⟨hctx, hnext, hinc, herr.trans ?_⟩
      grind
    · refine ⟨hctx, hnext, hinc, ?_⟩
      grind

/-- What reading a normal descriptor does to the flags of the loop. -/
theorem devRead_flags (hnorm : d.ctxt = false) :
    (info.devRead env d).context = false
      ∧ (info.devRead env d).contextNext = (info.contextNext || d.cda)
      ∧ (info.devRead env d).incomplete = !d.last
      ∧ (info.devRead env d).frameError
        = (info.frameError || (d.last && d.frameError)) := by
  simp only [RxPktInfo.devRead]
  rw [if_neg (by rw [hnorm]; exact Bool.false_ne_true)]
  generalize hi : ({ info with
    context := false
    contextNext := info.contextNext || d.cda } : RxPktInfo) = i
  obtain ⟨hctx, hnext, herr⟩ := getRss_flags i d
  cases hlast : d.last with
  | false =>
    rw [if_neg Bool.false_ne_true]
    refine ⟨?_, ?_, rfl, ?_⟩
    · rw [← hi] at hctx ⊢
      exact hctx
    · rw [← hi] at hnext ⊢
      exact hnext
    · rw [← hi] at herr ⊢
      simpa using herr
  | true =>
    obtain ⟨hctx', hnext', hinc', herr'⟩ :=
      getLast_flags env (i.getRss d) d
    rw [if_pos rfl, hctx', hnext', hinc', herr', hctx, hnext, herr, ← hi]
    exact ⟨rfl, rfl, rfl, rfl⟩

/-- What reading a context descriptor does to them. -/
theorem devRead_context (hctxt : d.ctxt = true) :
    (info.devRead env d).context = true
      ∧ (info.devRead env d).contextNext = false
      ∧ (info.devRead env d).incomplete = info.incomplete
      ∧ (info.devRead env d).frameError = info.frameError := by
  simp only [RxPktInfo.devRead]
  rw [if_pos hctxt, RxPktInfo.getRxTstamp]
  split
  · exact ⟨rfl, rfl, rfl, rfl⟩
  · exact ⟨rfl, rfl, rfl, rfl⟩

end Info

-- ============================================================= segments

/-- A segment's fragment. -/
def Segment.frag (s : Segment) (size : U32) : RxFrag :=
  ⟨s.entry.buf.pages, s.entry.buf.pagesOffset, size, s.entry.buf.dmaLen,
    s.entry.buf.read size⟩

/-- The length of a segment as the driver computes it. -/
def Segment.len (s : Segment) : U32 := BitVec.ofNat 32 s.bytes.length

/-- The entry of a segment that keeps its page. -/
def Segment.held (s : Segment) : RxEntry := s.entry.devRead

/-- The entry of a segment whose page went to the socket buffer. -/
def Segment.given (s : Segment) : RxEntry :=
  { s.entry.devRead with buf.pages := none }

/-- How much of a segment is copied where the socket buffer is made of
it. -/
def Segment.copied (s : Segment) : U32 :=
  let copyLen :=
    if s.held.hdrLen ≠ 0 then s.held.hdrLen else s.len
  if s.entry.hdr.dmaLen < copyLen then s.entry.hdr.dmaLen else copyLen

/-- The socket buffer made of a segment. -/
def Segment.skb (s : Segment) (id : Nat) : RxSkb :=
  let skb := (RxSkb.alloc id).put s.entry.hdr s.copied
  if s.len - s.copied ≠ 0 then
    skb.addRxFrag s.entry.buf (s.len - s.copied)
  else skb

/-- The entry the socket buffer was made of. -/
def Segment.opened (s : Segment) : RxEntry :=
  if s.len - s.copied ≠ 0 then s.given else s.held

/-- A later segment is added to the socket buffer, if it has data. -/
def RxSkb.add (skb : RxSkb) (s : Segment) : RxSkb :=
  if s.bytes = [] then skb else skb.addRxFrag s.entry.buf s.len

/-- Its entry after that. -/
def Segment.added (s : Segment) : RxEntry :=
  if s.bytes = [] then s.held else s.given

/-- The socket buffer of segments: none without data. -/
def skbFrom (id : Nat) : List Segment → Option RxSkb
  | [] => none
  | s :: ss =>
      if s.bytes = [] then skbFrom id ss
      else some (ss.foldl RxSkb.add (s.skb id))

/-- The entries of segments after their socket buffer is made. -/
def entriesFrom : List Segment → List RxEntry
  | [] => []
  | s :: ss =>
      if s.bytes = [] then s.held :: entriesFrom ss
      else s.opened :: ss.map Segment.added

-- ================================================== segment by segment

/-- What `mac_dev_read` and the flags after it change. -/
def RxPoll.noted (env : RxEnv) (st : RxPoll) (entry : RxEntry) : RxPoll :=
  { st with
    pktInfo := st.pktInfo.devRead env entry.dmaDesc
    received := st.received + 1
    incomplete := (st.pktInfo.devRead env entry.dmaDesc).incomplete
    contextNext := (st.pktInfo.devRead env entry.dmaDesc).contextNext }

/-- What is done with the data of a segment. -/
def RxPoll.absorb (env : RxEnv) (st : RxPoll) (s : Segment) : RxPoll :=
  if st.error then st.leave s.held
  else
    (st.gather env s.held).1.leave (st.gather env s.held).2

section Absorb

variable {env : RxEnv} {st : RxPoll} {s : Segment} {before : Nat}
  {last ctx : Bool}

theorem Segment.Written.held_len (h : s.Written before last ctx) :
    s.held.len = s.entry.dmaDesc.packetLen := by
  unfold Segment.held RxEntry.devRead
  rw [if_neg]
  rw [h.normal]
  exact Bool.false_ne_true

theorem Segment.Written.held_buf (h : s.Written before last ctx) :
    s.held.buf = s.entry.buf ∧ s.held.hdr = s.entry.hdr := by
  unfold Segment.held RxEntry.devRead
  rw [if_neg]
  · exact ⟨rfl, rfl⟩
  · rw [h.normal]
    exact Bool.false_ne_true

/-- The length of a segment is recovered from the cumulative one. -/
theorem Segment.Written.diff (h : s.Written before last ctx)
    (hlen : st.len.toNat = before) : s.held.len - st.len = s.len := by
  refine BitVec.eq_of_toNat_eq ?_
  have hpl := h.packetLen
  have hlt := s.entry.dmaDesc.packetLen.isLt
  rw [h.held_len, Segment.len, BitVec.toNat_sub, BitVec.toNat_ofNat]
  omega

theorem Segment.Written.len_toNat (h : s.Written before last ctx) :
    s.len.toNat = s.bytes.length := by
  have hpl := h.packetLen
  have hlt := s.entry.dmaDesc.packetLen.isLt
  rw [Segment.len, BitVec.toNat_ofNat]
  omega

theorem Segment.Written.len_eq_zero (h : s.Written before last ctx) :
    s.len = 0 ↔ s.bytes = [] := by
  rw [← List.length_eq_zero_iff, ← h.len_toNat]
  constructor
  · intro h0
    rw [h0]
    rfl
  · intro h0
    exact BitVec.eq_of_toNat_eq h0

/-- A segment without data leaves only its entry behind. -/
theorem absorb_empty (h : s.Written before last ctx)
    (hlen : st.len.toNat = before) (hempty : s.bytes = []) :
    st.absorb env s = st.leave s.held := by
  unfold RxPoll.absorb
  split
  · rfl
  · simp only [RxPoll.gather, h.diff hlen]
    rw [if_pos (h.len_eq_zero.2 hempty), h.len_eq_zero.2 hempty]
    simp

theorem absorb_error (h : st.error = true) :
    st.absorb env s = st.leave s.held := if_pos h

theorem createSkb_held (h : s.Written before last ctx) {id : Nat}
    (halloc : env.alloc id = true) :
    createSkb env id s.held s.len = (some (s.skb id), s.opened) := by
  obtain ⟨hbuf, hhdr⟩ := h.held_buf
  have hcopy : (if s.held.hdr.dmaLen
        < (if s.held.hdrLen ≠ 0 then s.held.hdrLen else s.len) then
        s.held.hdr.dmaLen
      else if s.held.hdrLen ≠ 0 then s.held.hdrLen else s.len)
      = s.copied := by
    rw [hhdr]
    rfl
  have hgiven : ({ s.held with buf.pages := none } : RxEntry)
      = s.given := rfl
  unfold createSkb
  rw [if_pos halloc]
  dsimp only
  rw [hcopy, hgiven, hbuf, hhdr, Segment.skb, Segment.opened]
  by_cases hrest : s.len - s.copied = 0
  · rw [if_neg (not_not.2 hrest), if_neg (not_not.2 hrest),
      if_neg (not_not.2 hrest)]
  · rw [if_pos hrest, if_pos hrest, if_pos hrest]

/-- The socket buffer is made of the segment. -/
theorem absorb_open (h : s.Written before last ctx)
    (hlen : st.len.toNat = before) (hdata : s.bytes ≠ [])
    (herr : st.error = false) (hskb : st.skb = none)
    (halloc : env.alloc st.allocs = true) :
    st.absorb env s = RxPoll.leave
      { st with
        len := st.len + s.len
        skb := some (s.skb st.allocs)
        allocs := st.allocs + 1 } s.opened := by
  have hne : ¬ s.len = 0 := fun h0 => hdata (h.len_eq_zero.1 h0)
  unfold RxPoll.absorb
  rw [if_neg (by rw [herr]; exact Bool.false_ne_true)]
  simp only [RxPoll.gather, h.diff hlen, if_neg hne, hskb,
    createSkb_held h halloc]
  have hsome : (some (s.skb st.allocs)).isNone = st.error := herr.symm
  rw [hsome]

/-- The socket buffer cannot be allocated. -/
theorem absorb_fail (h : s.Written before last ctx)
    (hlen : st.len.toNat = before) (hdata : s.bytes ≠ [])
    (herr : st.error = false) (hskb : st.skb = none)
    (halloc : env.alloc st.allocs = false) :
    st.absorb env s = RxPoll.leave
      { st with
        len := st.len + s.len
        error := true
        allocs := st.allocs + 1 } s.held := by
  have hne : ¬ s.len = 0 := fun h0 => hdata (h.len_eq_zero.1 h0)
  unfold RxPoll.absorb
  rw [if_neg (by rw [herr]; exact Bool.false_ne_true)]
  simp only [RxPoll.gather, h.diff hlen, if_neg hne, hskb, createSkb,
    halloc]
  simp [RxPoll.leave]

/-- The segment is added to the socket buffer. -/
theorem absorb_add {skb : RxSkb} (h : s.Written before last ctx)
    (hlen : st.len.toNat = before) (herr : st.error = false)
    (hskb : st.skb = some skb) :
    st.absorb env s = RxPoll.leave
      { st with len := st.len + s.len, skb := some (skb.add s) }
      s.added := by
  by_cases hdata : s.bytes = []
  · have h0 : s.len = 0 := h.len_eq_zero.2 hdata
    rw [absorb_empty h hlen hdata, RxSkb.add, Segment.added, if_pos hdata,
      if_pos hdata, h0, ← hskb]
    simp
  · have hne : ¬ s.len = 0 := fun h0 => hdata (h.len_eq_zero.1 h0)
    obtain ⟨hbuf, -⟩ := h.held_buf
    unfold RxPoll.absorb
    rw [if_neg (by rw [herr]; exact Bool.false_ne_true)]
    simp only [RxPoll.gather, h.diff hlen, if_neg hne, hskb]
    rw [RxSkb.add, Segment.added, if_neg hdata, if_neg hdata, ← hbuf]
    rfl

end Absorb

-- ===================================================== several segments

theorem skbFrom_append (id : Nat) (ss : List Segment) (s : Segment) :
    skbFrom id (ss ++ [s])
      = match skbFrom id ss with
        | none => if s.bytes = [] then none else some (s.skb id)
        | some skb => some (skb.add s) := by
  induction ss with
  | nil =>
    show (if s.bytes = [] then none else some (s.skb id)) = _
    rfl
  | cons r rs ih =>
    by_cases h : r.bytes = []
    · simp only [List.cons_append, skbFrom, if_pos h]
      exact ih
    · simp only [List.cons_append, skbFrom, if_neg h, List.foldl_append]
      rfl

theorem skbFrom_eq_none {id : Nat} {ss : List Segment} :
    skbFrom id ss = none ↔ ss.flatMap Segment.bytes = [] := by
  induction ss with
  | nil => exact iff_of_true rfl rfl
  | cons r rs ih =>
    by_cases h : r.bytes = []
    · rw [skbFrom, if_pos h, List.flatMap_cons, h, List.nil_append]
      exact ih
    · simp [skbFrom, h]

theorem entriesFrom_append (ss : List Segment) (s : Segment) :
    entriesFrom (ss ++ [s])
      = entriesFrom ss ++ [if ss.flatMap Segment.bytes = [] then
          if s.bytes = [] then s.held else s.opened
        else s.added] := by
  induction ss with
  | nil =>
    by_cases h : s.bytes = []
    · simp [entriesFrom, h]
    · simp [entriesFrom, h]
  | cons r rs ih =>
    by_cases h : r.bytes = []
    · rw [List.cons_append, entriesFrom, entriesFrom, if_pos h, if_pos h,
        List.flatMap_cons, h, List.nil_append, ih]
      rfl
    · simp [entriesFrom, h]

/-- The entries of segments, by whether there is a socket buffer. -/
def entriesAfter (allocated : Bool) (ss : List Segment) : List RxEntry :=
  if allocated then entriesFrom ss else ss.map Segment.held

/-- The state inside a frame, after the segments `ss`: of a poll that was
at the start of a packet in `st₀`. -/
structure Poured (env : RxEnv) (st₀ : RxPoll) (ss : List Segment)
    (st : RxPoll) : Prop where
  passed : st.passed = st₀.passed
  freed : st.freed = st₀.freed
  skb : st.skb
    = if env.alloc st₀.allocs then skbFrom st₀.allocs ss else none
  error : st.error = true
    ↔ env.alloc st₀.allocs = false ∧ ss.flatMap Segment.bytes ≠ []
  read : st.read
    = st₀.read ++ entriesAfter (env.alloc st₀.allocs) ss
  len : st.error = false →
    st.len.toNat = (ss.flatMap Segment.bytes).length
  allocs : ss.flatMap Segment.bytes = [] → st.allocs = st₀.allocs

section Pour

variable {env : RxEnv} {st₀ st : RxPoll} {ss : List Segment}
  {s : Segment} {last ctx : Bool}

/-- The state at the start of a packet. -/
theorem poured_nil (hskb : st₀.skb = none) (herr : st₀.error = false)
    (hlen : st₀.len = 0) : Poured env st₀ [] st₀ where
  passed := rfl
  freed := rfl
  skb := by
    rw [hskb]
    exact (ite_self _).symm
  error := by simp [herr]
  read := by
    unfold entriesAfter
    simp [entriesFrom]
  len := fun _ => by
    rw [hlen]
    rfl
  allocs := fun _ => rfl

/-- Reading a descriptor changes nothing of it. -/
theorem Poured.noted (h : Poured env st₀ ss st) (entry : RxEntry) :
    Poured env st₀ ss (st.noted env entry) :=
  ⟨h.passed, h.freed, h.skb, h.error, h.read, h.len, h.allocs⟩

/-- Without a socket buffer and without an error there has been no
data. -/
theorem Poured.no_data (h : Poured env st₀ ss st) (herr : st.error = false)
    (hskb : st.skb = none) : ss.flatMap Segment.bytes = [] := by
  by_contra hdata
  cases halloc : env.alloc st₀.allocs with
  | false =>
    have herr' : st.error = true := h.error.2 ⟨halloc, hdata⟩
    rw [herr] at herr'
    cases herr'
  | true =>
    have hskb' := h.skb
    rw [hskb, halloc, if_pos rfl] at hskb'
    exact hdata (skbFrom_eq_none.1 hskb'.symm)

theorem Poured.len_add (h : Poured env st₀ ss st) (herr : st.error = false)
    (hs : s.Written (ss.flatMap Segment.bytes).length last ctx) :
    (st.len + s.len).toNat
      = ((ss ++ [s]).flatMap Segment.bytes).length := by
  have hpl := hs.packetLen
  have hlt := s.entry.dmaDesc.packetLen.isLt
  rw [BitVec.toNat_add, h.len herr, hs.len_toNat, List.flatMap_append,
    List.length_append, List.flatMap_singleton]
  omega

theorem flatMap_snoc_ne_nil (hdata : ss.flatMap Segment.bytes ≠ []) :
    (ss ++ [s]).flatMap Segment.bytes ≠ [] := by
  rw [List.flatMap_append]
  exact List.append_ne_nil_of_left_ne_nil hdata _

/-- After an error the segment is drained. -/
theorem Poured.drain (h : Poured env st₀ ss st) (herr : st.error = true) :
    Poured env st₀ (ss ++ [s]) (st.absorb env s) := by
  obtain ⟨halloc, hdata⟩ := h.error.1 herr
  have hdata' := flatMap_snoc_ne_nil (s := s) hdata
  rw [absorb_error herr]
  exact
    { passed := h.passed
      freed := h.freed
      skb := h.skb.trans (by rw [halloc]; rfl)
      error := iff_of_true herr ⟨halloc, hdata'⟩
      read := by
        show st.read ++ [s.held] = _
        rw [h.read, halloc]
        simp [entriesAfter]
      len := fun h0 => absurd (herr.symm.trans h0) (by decide)
      allocs := fun h0 => absurd h0 hdata' }

/-- With a socket buffer the segment is added to it. -/
theorem Poured.extend {skb : RxSkb} (h : Poured env st₀ ss st)
    (hs : s.Written (ss.flatMap Segment.bytes).length last ctx)
    (herr : st.error = false) (hskb : st.skb = some skb) :
    Poured env st₀ (ss ++ [s]) (st.absorb env s) := by
  have halloc : env.alloc st₀.allocs = true := by
    by_contra hno
    have hnone := h.skb
    rw [hskb, if_neg hno] at hnone
    cases hnone
  have hfrom : skbFrom st₀.allocs ss = some skb := by
    have hsome := h.skb
    rw [hskb, halloc, if_pos rfl] at hsome
    exact hsome.symm
  have hdata : ss.flatMap Segment.bytes ≠ [] := by
    intro h0
    rw [skbFrom_eq_none.2 h0] at hfrom
    cases hfrom
  have hok : ¬ st.error = true := by
    rw [herr]
    exact Bool.false_ne_true
  rw [absorb_add hs (h.len herr) herr hskb]
  exact
    { passed := h.passed
      freed := h.freed
      skb := by
        rw [halloc, if_pos rfl, skbFrom_append, hfrom]
        rfl
      error := iff_of_false hok fun h0 => by
        rw [halloc] at h0
        cases h0.1
      read := by
        show st.read ++ [s.added] = _
        rw [h.read, halloc, entriesAfter, entriesAfter, if_pos rfl,
          if_pos rfl, entriesFrom_append, if_neg hdata]
        exact List.append_assoc _ _ _
      len := fun _ => h.len_add herr hs
      allocs := fun h0 => absurd h0 (flatMap_snoc_ne_nil hdata) }

/-- Before there is data, an empty segment changes nothing. -/
theorem Poured.skip (h : Poured env st₀ ss st)
    (hs : s.Written (ss.flatMap Segment.bytes).length last ctx)
    (herr : st.error = false) (hdata : ss.flatMap Segment.bytes = [])
    (hempty : s.bytes = []) :
    Poured env st₀ (ss ++ [s]) (st.absorb env s) := by
  have hdata' : (ss ++ [s]).flatMap Segment.bytes = [] := by
    rw [List.flatMap_append, hdata, List.flatMap_singleton, hempty]
    rfl
  have hok : ¬ st.error = true := by
    rw [herr]
    exact Bool.false_ne_true
  rw [absorb_empty hs (h.len herr) hempty]
  exact
    { passed := h.passed
      freed := h.freed
      skb := by
        rw [skbFrom_eq_none.2 hdata']
        exact h.skb.trans (by rw [skbFrom_eq_none.2 hdata])
      error := iff_of_false hok fun h0 => h0.2 hdata'
      read := by
        show st.read ++ [s.held] = _
        rw [h.read, List.append_assoc]
        unfold entriesAfter
        split
        · rw [entriesFrom_append, if_pos hdata, if_pos hempty]
        · rw [List.map_append]
          rfl
      len := fun _ => by
        rw [hdata', ← hdata]
        exact h.len herr
      allocs := fun _ => h.allocs hdata }

/-- The first segment with data asks for the socket buffer. -/
theorem Poured.open (h : Poured env st₀ ss st)
    (hs : s.Written (ss.flatMap Segment.bytes).length last ctx)
    (herr : st.error = false) (hskb : st.skb = none)
    (hdata : ss.flatMap Segment.bytes = []) (hs0 : s.bytes ≠ []) :
    Poured env st₀ (ss ++ [s]) (st.absorb env s) := by
  have hallocs : st.allocs = st₀.allocs := h.allocs hdata
  have hdata' : (ss ++ [s]).flatMap Segment.bytes ≠ [] := by
    rw [List.flatMap_append, List.flatMap_singleton]
    exact List.append_ne_nil_of_right_ne_nil _ hs0
  have hlen := h.len_add herr hs
  cases halloc : env.alloc st₀.allocs with
  | true =>
    have hok : ¬ st.error = true := by
      rw [herr]
      exact Bool.false_ne_true
    rw [absorb_open hs (h.len herr) hs0 herr hskb
      (by rw [hallocs]; exact halloc), hallocs]
    exact
      { passed := h.passed
        freed := h.freed
        skb := by
          rw [halloc, if_pos rfl, skbFrom_append,
            skbFrom_eq_none.2 hdata]
          exact (if_neg hs0).symm
        error := iff_of_false hok fun h0 => by
          rw [halloc] at h0
          cases h0.1
        read := by
          show st.read ++ [s.opened] = _
          rw [h.read, halloc, entriesAfter, entriesAfter, if_pos rfl,
            if_pos rfl, entriesFrom_append, if_pos hdata, if_neg hs0]
          exact List.append_assoc _ _ _
        len := fun _ => hlen
        allocs := fun h0 => absurd h0 hdata' }
  | false =>
    rw [absorb_fail hs (h.len herr) hs0 herr hskb
      (by rw [hallocs]; exact halloc)]
    exact
      { passed := h.passed
        freed := h.freed
        skb := hskb.trans (by rw [halloc]; rfl)
        error := iff_of_true rfl ⟨halloc, hdata'⟩
        read := by
          show st.read ++ [s.held] = _
          rw [h.read, halloc, entriesAfter, entriesAfter,
            if_neg Bool.false_ne_true, if_neg Bool.false_ne_true,
            List.map_append, List.append_assoc]
          rfl
        len := fun _ => hlen
        allocs := fun h0 => absurd h0 hdata' }

/-- One more segment. -/
theorem Poured.absorb (h : Poured env st₀ ss st)
    (hs : s.Written (ss.flatMap Segment.bytes).length last ctx) :
    Poured env st₀ (ss ++ [s]) (st.absorb env s) := by
  cases herr : st.error with
  | true => exact h.drain herr
  | false =>
    cases hskb : st.skb with
    | some skb => exact h.extend hs herr hskb
    | none =>
      have hdata := h.no_data herr hskb
      by_cases hempty : s.bytes = []
      · exact h.skip hs herr hdata hempty
      · exact h.open hs herr hskb hdata hempty

end Pour

end BxRnic.Mac
