/-
What the socket buffer of a frame holds: the frame's bytes, and the pages
of the segments it was given. The poll passes it up or drops it, and what
it makes of a frame is right exactly under `RxFrame.Fits`.
-/
import Mathlib.Data.List.Forall2
import BxRnic.Mac.Proofs.RxLoop

namespace BxRnic.Mac

-- ================================================================ reading

/-- What the NIC wrote is read back. -/
theorem RxBuf.read_full {buf : RxBuf} {n : U32}
    (h : n.toNat = buf.data.length) : buf.read n = buf.data.map some := by
  unfold RxBuf.read
  rw [h]
  refine List.ext_getElem (by simp) fun i hi hi' => ?_
  have hlt : i < buf.data.length := by simpa using hi
  simp [hlt]

/-- A buffer that was not written is read as stale. -/
theorem RxBuf.read_stale {buf : RxBuf} (h : buf.data = []) (n : U32) :
    buf.read n = List.replicate n.toNat none := by
  unfold RxBuf.read
  rw [h]
  simp [List.map_const']

-- ========================================================= socket buffers

section Buffers

variable {skb : RxSkb} {s : Segment} {ss : List Segment} {id : Nat}

/-- The segments that have data. -/
def withData (ss : List Segment) : List Segment :=
  ss.filter fun s => s.bytes ≠ []

theorem withData_cons_empty (h : s.bytes = []) :
    withData (s :: ss) = withData ss := by
  simp [withData, h]

theorem withData_cons (h : s.bytes ≠ []) :
    withData (s :: ss) = s :: withData ss := by
  simp [withData, h]

theorem addRxFrag_frags (skb : RxSkb) (s : Segment) (size : U32)
    (h : skb.frags.length ≤ maxSkbFrags) :
    (skb.addRxFrag s.entry.buf size).frags
      = (skb.frags ++ [s.frag size]).take maxSkbFrags := by
  unfold RxSkb.addRxFrag
  dsimp only
  by_cases hroom : skb.frags.length < maxSkbFrags
  · rw [if_pos hroom, List.take_of_length_le]
    · rfl
    · rw [List.length_append]
      exact hroom
  · have hfull : skb.frags.length = maxSkbFrags := by omega
    rw [if_neg hroom, ← hfull, List.take_left]

theorem take_take_append {α : Type} (n : Nat) (l l' : List α) :
    (l.take n ++ l').take n = (l ++ l').take n := by
  rw [List.take_append, List.take_append, List.take_take, Nat.min_self,
    List.length_take]
  congr 2
  omega

/-- What adding segments does to a socket buffer. -/
theorem foldl_add (ss : List Segment) (skb : RxSkb)
    (h : skb.frags.length ≤ maxSkbFrags) :
    (ss.foldl RxSkb.add skb).linear = skb.linear
      ∧ (ss.foldl RxSkb.add skb).protocol = skb.protocol
      ∧ (ss.foldl RxSkb.add skb).frags
        = (skb.frags ++ (withData ss).map fun s => s.frag s.len).take
          maxSkbFrags
      ∧ (ss.foldl RxSkb.add skb).len
        = skb.len + BitVec.ofNat 32 (ss.flatMap Segment.bytes).length := by
  induction ss generalizing skb with
  | nil =>
    refine ⟨rfl, rfl, ?_, ?_⟩
    · rw [List.take_of_length_le]
      · simp [withData]
      · simpa [withData] using h
    · simp
  | cons s ss ih =>
    by_cases hs : s.bytes = []
    · have hadd : skb.add s = skb := if_pos hs
      rw [List.foldl_cons, hadd, withData_cons_empty hs,
        List.flatMap_cons, hs, List.nil_append]
      exact ih skb h
    · have hadd : skb.add s = skb.addRxFrag s.entry.buf s.len := if_neg hs
      have hfrags : (skb.add s).frags
          = (skb.frags ++ [s.frag s.len]).take maxSkbFrags := by
        rw [hadd]
        exact addRxFrag_frags skb s s.len h
      have hle : (skb.add s).frags.length ≤ maxSkbFrags := by
        rw [hfrags]
        exact List.length_take_le _ _
      have hlen : (skb.add s).len = skb.len + s.len := by
        rw [hadd]
        rfl
      obtain ⟨hlin, hproto, hfr, hsum⟩ := ih (skb.add s) hle
      rw [List.foldl_cons, withData_cons hs]
      refine ⟨?_, ?_, ?_, ?_⟩
      · rw [hlin, hadd]
        rfl
      · rw [hproto, hadd]
        rfl
      · rw [hfr, hfrags, take_take_append, List.append_assoc]
        rfl
      · rw [hsum, hlen, Segment.len, List.flatMap_cons,
          List.length_append, BitVec.ofNat_add, BitVec.add_assoc]

/-- The fragments of a segment that the socket buffer is made of. -/
def Segment.rest (s : Segment) : List RxFrag :=
  if s.len - s.copied ≠ 0 then [s.frag (s.len - s.copied)] else []

theorem Segment.rest_length (s : Segment) :
    s.rest.length ≤ maxSkbFrags := by
  unfold Segment.rest maxSkbFrags
  split
  · simp
  · simp

/-- The socket buffer made of a segment. -/
theorem segment_skb (s : Segment) (id : Nat) :
    (s.skb id).linear = s.entry.hdr.read s.copied
      ∧ (s.skb id).protocol = 0
      ∧ (s.skb id).frags = s.rest
      ∧ (s.skb id).len = s.len := by
  unfold Segment.skb Segment.rest
  by_cases h : s.len - s.copied = 0
  · have heq : s.len = s.copied := by bv_omega
    rw [if_neg (not_not.2 h), if_neg (not_not.2 h)]
    refine ⟨rfl, rfl, rfl, ?_⟩
    show (0 : U32) + s.copied = s.len
    bv_omega
  · rw [if_pos h, if_pos h]
    refine ⟨rfl, rfl, rfl, ?_⟩
    show (0 : U32) + s.copied + (s.len - s.copied) = s.len
    bv_omega

/-- All fragments the socket buffer of segments is given. -/
def fragsFrom : List Segment → List RxFrag
  | [] => []
  | s :: ss =>
      if s.bytes = [] then fragsFrom ss
      else s.rest ++ (withData ss).map fun s => s.frag s.len

theorem skbFrom_spec (h : skbFrom id ss = some skb) :
    skb.protocol = 0 ∧ skb.frags = (fragsFrom ss).take maxSkbFrags
      ∧ skb.len = BitVec.ofNat 32 (ss.flatMap Segment.bytes).length := by
  induction ss with
  | nil => cases h
  | cons s ss ih =>
    by_cases hs : s.bytes = []
    · rw [skbFrom, if_pos hs] at h
      rw [fragsFrom, if_pos hs, List.flatMap_cons, hs, List.nil_append]
      exact ih h
    · rw [skbFrom, if_neg hs] at h
      cases h
      obtain ⟨-, hproto, hfr, hlen⟩ := segment_skb s id
      obtain ⟨-, hproto', hfr', hlen'⟩ := foldl_add ss (s.skb id)
        (by rw [hfr]; exact s.rest_length)
      rw [fragsFrom, if_neg hs]
      refine ⟨hproto'.trans hproto, ?_, ?_⟩
      · rw [hfr', hfr]
      · rw [hlen', hlen, Segment.len, List.flatMap_cons,
          List.length_append, BitVec.ofNat_add]

end Buffers

-- ================================================================ bytes

section Bytes

variable {s : Segment} {ss : List Segment} {before : Nat}
  {last ctx : Bool} {id : Nat} {skb : RxSkb}

theorem Segment.Written.held_hdrLen (hs : s.Written before last ctx) :
    s.held.hdrLen
      = if s.entry.dmaDesc.first then s.entry.dmaDesc.hdrLen
        else s.entry.hdrLen := by
  unfold Segment.held RxEntry.devRead
  rw [if_neg]
  rw [hs.normal]
  exact Bool.false_ne_true

/-- Of the first segment the header part is copied. -/
theorem Segment.Leads.copied (h : s.Leads)
    (hs : s.Written before last ctx) : s.copied.toNat = s.headerLen := by
  have hlen := hs.len_toNat
  have hfits := h.hdrFits
  have hhdr : s.held.hdrLen = s.entry.dmaDesc.hdrLen := by
    rw [hs.held_hdrLen, if_pos h.first]
  unfold Segment.copied Segment.headerLen at *
  dsimp only
  rw [hhdr]
  by_cases hsplit : s.entry.dmaDesc.hdrLen = 0
  · rw [if_neg (not_not.2 hsplit), if_neg (not_not.2 hsplit), ← hlen]
    split
    · bv_omega
    · bv_omega
  · rw [if_pos hsplit] at hfits ⊢
    rw [if_pos hsplit, if_neg]
    bv_omega

/-- The first segment's bytes come out in order. -/
theorem Segment.Leads.bytes (h : s.Leads) (hs : s.Written before last ctx)
    (id : Nat) : (s.skb id).bytes = s.bytes.map some := by
  obtain ⟨hlin, -, hfr, -⟩ := segment_skb s id
  have hcopied := h.copied hs
  have hlen := hs.len_toNat
  have hle := h.header
  have hhdr : s.entry.hdr.read s.copied
      = (s.bytes.take s.headerLen).map some := by
    rw [← h.hdrData]
    refine RxBuf.read_full ?_
    rw [h.hdrData, List.length_take, hcopied]
    omega
  have hrest : (s.len - s.copied).toNat
      = s.bytes.length - s.headerLen := by
    rw [BitVec.toNat_sub_of_le]
    · rw [hlen, hcopied]
    · rw [BitVec.le_def, hlen, hcopied]
      exact hle
  have hbuf : s.rest.flatMap RxFrag.data
      = (s.bytes.drop s.headerLen).map some := by
    unfold Segment.rest
    split
    · rw [List.flatMap_singleton]
      show s.entry.buf.read (s.len - s.copied) = _
      rw [← h.bufData]
      refine RxBuf.read_full ?_
      rw [h.bufData, List.length_drop, hrest]
    · rename_i h0
      have hnone : s.bytes.length - s.headerLen = 0 := by
        rw [← hrest, not_not.1 h0]
        rfl
      rw [List.drop_of_length_le (by omega)]
      rfl
  rw [RxSkb.bytes, hlin, hfr, hhdr, hbuf, ← List.map_append,
    List.take_append_drop]

theorem Segment.Follows.frag_data (h : s.Follows)
    (hs : s.Written before last ctx) :
    (s.frag s.len).data = s.bytes.map some := by
  show s.entry.buf.read s.len = _
  rw [RxBuf.read_full, h.bufData]
  rw [h.bufData, hs.len_toNat]

/-- The data of later segments. -/
theorem frags_data (hf : ∀ s ∈ ss, s.Follows) :
    ∀ before, WrittenFrom ctx before ss →
      ((withData ss).map fun s => s.frag s.len).flatMap RxFrag.data
        = (ss.flatMap Segment.bytes).map some := by
  induction ss with
  | nil =>
    intro _ _
    rfl
  | cons s ss ih =>
    intro before hw
    have hrest := ih (fun r hr => hf r (List.mem_cons_of_mem _ hr)) _ hw.2
    by_cases hs : s.bytes = []
    · rw [withData_cons_empty hs, List.flatMap_cons, hs, List.nil_append]
      exact hrest
    · rw [withData_cons hs, List.map_cons, List.flatMap_cons, hrest,
        (hf s (List.mem_cons_self ..)).frag_data hw.1,
        List.flatMap_cons, List.map_append]

/-- With data in the first segment and room for all fragments, the bytes
are those of the segments in order. -/
theorem skbFrom_bytes (hs : s.Leads) (hf : ∀ r ∈ ss, r.Follows)
    (hw : WrittenFrom ctx 0 (s :: ss)) (hdata : s.bytes ≠ [])
    (hroom : (fragsFrom (s :: ss)).length ≤ maxSkbFrags)
    (hskb : skbFrom id (s :: ss) = some skb) :
    skb.bytes = ((s :: ss).flatMap Segment.bytes).map some := by
  obtain ⟨-, hfrags, -⟩ := skbFrom_spec hskb
  rw [List.take_of_length_le hroom, fragsFrom, if_neg hdata] at hfrags
  rw [skbFrom, if_neg hdata] at hskb
  cases hskb
  obtain ⟨-, -, hfr, -⟩ := segment_skb s id
  obtain ⟨hlin, -, -, -⟩ := foldl_add ss (s.skb id)
    (by rw [hfr]; exact s.rest_length)
  have hlead : (s.skb id).linear ++ s.rest.flatMap RxFrag.data
      = s.bytes.map some := by
    rw [← hs.bytes hw.1 id, RxSkb.bytes, hfr]
  rw [RxSkb.bytes, hlin, hfrags, List.flatMap_append, ← List.append_assoc,
    hlead, frags_data hf _ hw.2, List.flatMap_cons, List.map_append]

/-- A later segment that the socket buffer is made of is taken for one
with a header. -/
theorem Segment.Follows.copied_ne (h : s.Follows)
    (hs : s.Written before last ctx) (hdata : s.bytes ≠ []) :
    s.copied ≠ 0 := by
  have hne : s.len ≠ 0 := fun h0 => hdata (hs.len_eq_zero.1 h0)
  have hhdr : s.held.hdrLen = 0 := by
    rw [hs.held_hdrLen, if_neg, h.hdrLen]
    rw [h.first]
    exact Bool.false_ne_true
  unfold Segment.copied
  dsimp only
  rw [hhdr, if_neg (not_not.2 rfl), hs.hdrRoom]
  split
  · decide
  · exact hne

/-- Without data in the first segment, the socket buffer starts with what
the NIC did not write. -/
theorem skbFrom_stale (hf : ∀ r ∈ ss, r.Follows) :
    ∀ before, WrittenFrom ctx before ss → skbFrom id ss = some skb →
      ∃ bytes, skb.bytes = none :: bytes := by
  induction ss with
  | nil =>
    intro _ _ hskb
    cases hskb
  | cons s ss ih =>
    intro before hw hskb
    by_cases hdata : s.bytes = []
    · rw [skbFrom, if_pos hdata] at hskb
      exact ih (fun r hr => hf r (List.mem_cons_of_mem _ hr)) _ hw.2 hskb
    · rw [skbFrom, if_neg hdata] at hskb
      cases hskb
      have hs := hf s (List.mem_cons_self ..)
      obtain ⟨hlin, -, hfr, -⟩ := segment_skb s id
      obtain ⟨hlin', -, -, -⟩ := foldl_add ss (s.skb id)
        (by rw [hfr]; exact s.rest_length)
      have hpos : s.copied.toNat ≠ 0 := fun h0 =>
        hs.copied_ne hw.1 hdata (BitVec.eq_of_toNat_eq h0)
      obtain ⟨n, hn⟩ := Nat.exists_eq_succ_of_ne_zero hpos
      rw [RxSkb.bytes, hlin', hlin, RxBuf.read_stale hs.hdrData, hn,
        List.replicate_succ, List.cons_append]
      exact ⟨_, rfl⟩

end Bytes

-- ================================================================ pages

/-- The page of a data buffer, as long as the entry has it. -/
def RxEntry.pages (entry : RxEntry) : List Nat :=
  entry.buf.pages.toList

/-- The pages a socket buffer has. -/
def RxSkb.pages (skb : RxSkb) : List Nat :=
  skb.frags.flatMap fun frag => frag.pages.toList

/-- The pages of fragments. -/
def fragPages (frags : List RxFrag) : List Nat :=
  frags.flatMap fun frag => frag.pages.toList

section Pages

variable {s : Segment} {ss : List Segment} {before : Nat}
  {last ctx : Bool}

theorem Segment.Written.held_pages (hs : s.Written before last ctx) :
    s.held.pages = s.entry.pages := by
  unfold RxEntry.pages
  rw [hs.held_buf.1]

theorem segment_frag_pages (s : Segment) (size : U32) :
    fragPages [s.frag size] = s.entry.pages := by
  simp [fragPages, Segment.frag, RxEntry.pages]

theorem given_pages (s : Segment) : s.given.pages = [] := rfl

/-- One page more, with the fragments or with the entries. -/
theorem pages_step {frags frags' entries entries' page all : List Nat}
    (h : frags ++ entries = page) (hrest : (frags' ++ entries').Perm all) :
    ((frags ++ frags') ++ (entries ++ entries')).Perm (page ++ all) := by
  rw [← h, List.append_assoc, List.append_assoc]
  refine List.Perm.append_left frags ?_
  refine (List.perm_append_comm_assoc frags' entries entries').trans ?_
  exact List.Perm.append_left entries hrest

/-- Each of the segments was written at some place of a frame. -/
def AllWritten (ctx : Bool) (ss : List Segment) : Prop :=
  ∀ s ∈ ss, ∃ before last, s.Written before last ctx

theorem WrittenFrom.all :
    ∀ before, WrittenFrom ctx before ss → AllWritten ctx ss := by
  induction ss with
  | nil =>
    intro _ _ s hs
    cases hs
  | cons r rs ih =>
    intro before hw s hs
    rcases List.mem_cons.1 hs with rfl | hs
    · exact ⟨_, _, hw.1⟩
    · exact ih _ hw.2 s hs

theorem AllWritten.tail (h : AllWritten ctx (s :: ss)) :
    AllWritten ctx ss := fun r hr => h r (List.mem_cons_of_mem _ hr)

theorem AllWritten.head (h : AllWritten ctx (s :: ss)) :
    s.held.pages = s.entry.pages ∧ s.entry.buf.pages.isSome = true := by
  obtain ⟨before, last, hs⟩ := h s (List.mem_cons_self ..)
  exact ⟨hs.held_pages, hs.page⟩

/-- A later segment's page is with its fragment or with its entry. -/
theorem added_pages (hw : AllWritten ctx ss) :
    (fragPages ((withData ss).map fun s => s.frag s.len)
      ++ (ss.map Segment.added).flatMap RxEntry.pages).Perm
    ((ss.map Segment.entry).flatMap RxEntry.pages) := by
  induction ss with
  | nil => exact List.Perm.refl _
  | cons s ss ih =>
    have hrest := ih hw.tail
    rw [List.map_cons, List.map_cons, List.flatMap_cons,
      List.flatMap_cons]
    by_cases hs : s.bytes = []
    · rw [withData_cons_empty hs, Segment.added, if_pos hs, hw.head.1]
      exact pages_step (List.nil_append _) hrest
    · rw [withData_cons hs, Segment.added, if_neg hs, given_pages]
      exact pages_step (List.append_nil _) hrest

/-- The page of the segment that the socket buffer is made of. -/
theorem opened_pages (hs : s.held.pages = s.entry.pages) :
    fragPages s.rest ++ s.opened.pages = s.entry.pages := by
  unfold Segment.rest Segment.opened
  split
  · rw [segment_frag_pages, given_pages, List.append_nil]
  · rw [hs]
    exact List.nil_append _

/-- Every page is with a fragment or with its entry. -/
theorem entriesFrom_pages (hw : AllWritten ctx ss) :
    (fragPages (fragsFrom ss)
      ++ (entriesFrom ss).flatMap RxEntry.pages).Perm
    ((ss.map Segment.entry).flatMap RxEntry.pages) := by
  induction ss with
  | nil => exact List.Perm.refl _
  | cons s ss ih =>
    rw [List.map_cons, List.flatMap_cons]
    by_cases hs : s.bytes = []
    · rw [fragsFrom, if_pos hs, entriesFrom, if_pos hs, List.flatMap_cons,
        hw.head.1]
      exact pages_step (List.nil_append _) (ih hw.tail)
    · rw [fragsFrom, if_neg hs, entriesFrom, if_neg hs, List.flatMap_cons,
        fragPages, List.flatMap_append]
      exact pages_step (opened_pages hw.head.1) (added_pages hw.tail)

/-- Every fragment has a page. -/
theorem fragsFrom_isSome (hw : AllWritten ctx ss) :
    ∀ frag ∈ fragsFrom ss, frag.pages.isSome = true := by
  induction ss with
  | nil =>
    intro frag hfrag
    cases hfrag
  | cons s ss ih =>
    intro frag hfrag
    by_cases hs : s.bytes = []
    · rw [fragsFrom, if_pos hs] at hfrag
      exact ih hw.tail frag hfrag
    · rw [fragsFrom, if_neg hs, List.mem_append] at hfrag
      rcases hfrag with hfrag | hfrag
      · unfold Segment.rest at hfrag
        split at hfrag
        · rw [List.mem_singleton.1 hfrag]
          exact hw.head.2
        · cases hfrag
      · obtain ⟨r, hr, rfl⟩ := List.mem_map.1 hfrag
        obtain ⟨_, _, hwr⟩ := hw.tail r (List.mem_filter.1 hr).1
        exact hwr.page

theorem fragPages_length {frags : List RxFrag}
    (h : ∀ frag ∈ frags, frag.pages.isSome = true) :
    (fragPages frags).length = frags.length := by
  induction frags with
  | nil => rfl
  | cons frag frags ih =>
    have hone : frag.pages.toList.length = 1 := by
      obtain ⟨page, hpage⟩ :=
        Option.isSome_iff_exists.1 (h frag (List.mem_cons_self ..))
      rw [hpage]
      rfl
    have hrest := ih fun f hf => h f (List.mem_cons_of_mem _ hf)
    unfold fragPages at *
    rw [List.flatMap_cons, List.length_append, hone, hrest,
      List.length_cons]
    omega

/-- No page is lost exactly if there is room for all fragments. -/
theorem kept_pages_iff (hw : AllWritten ctx ss) :
    (fragPages ((fragsFrom ss).take maxSkbFrags)
        ++ (entriesFrom ss).flatMap RxEntry.pages).Perm
      ((ss.map Segment.entry).flatMap RxEntry.pages)
    ↔ (fragsFrom ss).length ≤ maxSkbFrags := by
  have hall := entriesFrom_pages hw
  have hsome := fragsFrom_isSome hw
  constructor
  · intro hperm
    have hlen := hperm.length_eq.trans hall.length_eq.symm
    rw [List.length_append, List.length_append, fragPages_length hsome,
      fragPages_length fun frag h => hsome frag (List.mem_of_mem_take h),
      List.length_take] at hlen
    omega
  · intro hroom
    rw [List.take_of_length_le hroom]
    exact hall

theorem held_pages_all (hw : AllWritten ctx ss) :
    (ss.map Segment.held).flatMap RxEntry.pages
      = (ss.map Segment.entry).flatMap RxEntry.pages := by
  induction ss with
  | nil => rfl
  | cons s ss ih =>
    rw [List.map_cons, List.map_cons, List.flatMap_cons,
      List.flatMap_cons, hw.head.1, ih hw.tail]

end Pages

end BxRnic.Mac
