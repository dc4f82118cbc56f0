/-
Whether `mr->map` becomes the list of a region's pages.

Up to entry `k` of the scatter list the loop has written the first `k`
buffers, and stands at buffer `k % 256` of block `k / 256` (`AtEntry`).
It goes wrong in two ways. The table for the library may be full, or its
last segment taken, before the list is at its end: then the loop breaks
off, and the rest is not recorded (`record_short`). And after a buffer
that fills its block the loop reads the next element of the array,
whether there is one or not; the list must not end there
(`record_full`).

The table for the library is filled in by the same loop (`record_sg`), and
its segments begin at pages of the list (`segments_recorded`).
-/
import Mathlib.Data.List.Basic
import BxRnic.Kernel.MrMap

namespace BxRnic.Kernel

section Loop

variable (umem : Umem) (length : U64)

/-- `memsize` at entry `k`. -/
def Umem.memsizeAt (k : Nat) : U64 :=
  (umem.sgl.take k).foldl (fun size e => size + e.dmaLen.setWidth 64) 0

/-- `leftsize` at entry `k`. -/
def Umem.leftsizeAt (k : Nat) : U64 :=
  (umem.sgl.take k).foldl (fun size e => size - e.dmaLen.setWidth 64) length

/-- A huge page begins at entry `k`. -/
def Umem.wholeAt (k : Nat) : Bool :=
  umem.memsizeAt k % BXROCE_HUGEPAGE_SIZE = 0
    ∧ umem.leftsizeAt length k ≥ BXROCE_HUGEPAGE_SIZE

/-- Less than a huge page is left at entry `k`. -/
def Umem.tailAt (k : Nat) : Bool :=
  (umem.memsizeAt k % BXROCE_HUGEPAGE_SIZE + umem.leftsizeAt length k)
    / BXROCE_HUGEPAGE_SIZE = 0

/-- How many segments are taken before entry `k`. -/
def Umem.takenAt (k : Nat) : Nat :=
  if umem.hugetlb then (List.range k).countP (umem.wholeAt length) else k

/-- The loop breaks off at entry `k`, if it gets there: the library's
table is full, or its last segment is taken. -/
def Umem.stopsAt (k : Nat) : Bool :=
  if umem.hugetlb then
    (umem.wholeAt length k && decide (MAX_SG_NUM ≤ umem.takenAt length k))
      || umem.tailAt length k
  else decide (MAX_SG_NUM ≤ umem.takenAt length k)

/-- The loop is at entry `k`. -/
structure AtEntry (k : Nat) (st : MapLoop) : Prop where
  map : st.map = k / BXROCE_BUF_PER_MAP
  buf : st.buf = ⟨k / BXROCE_BUF_PER_MAP, k % BXROCE_BUF_PER_MAP⟩
  numBuf : st.numBuf = k % BXROCE_BUF_PER_MAP
  memsize : st.memsize = umem.memsizeAt k
  leftsize : st.leftsize = umem.leftsizeAt length k
  taken : st.sg.length = umem.takenAt length k

/-- The page of an entry, where it belongs. -/
def Umem.slot (k : Nat) (e : Sg) : MapSlot × PhysBuf :=
  (⟨k / BXROCE_BUF_PER_MAP, k % BXROCE_BUF_PER_MAP⟩,
    ⟨e.dmaAddress, 1 <<< umem.pageShift⟩)

variable {umem length} {k : Nat} {st : MapLoop} {e : Sg}

theorem memsizeAt_succ (hk : umem.sgl[k]? = some e) :
    umem.memsizeAt (k + 1) = umem.memsizeAt k + e.dmaLen.setWidth 64 := by
  rw [Umem.memsizeAt, List.take_add_one, hk, List.foldl_append]
  rfl

theorem leftsizeAt_succ (hk : umem.sgl[k]? = some e) :
    umem.leftsizeAt length (k + 1)
      = umem.leftsizeAt length k - e.dmaLen.setWidth 64 := by
  rw [Umem.leftsizeAt, List.take_add_one, hk, List.foldl_append]
  rfl

theorem takenAt_succ :
    umem.takenAt length (k + 1) = umem.takenAt length k
      + if umem.hugetlb then (if umem.wholeAt length k then 1 else 0)
        else 1 := by
  unfold Umem.takenAt
  cases umem.hugetlb with
  | false => rfl
  | true =>
    rw [if_pos rfl, if_pos rfl, if_pos rfl, List.range_succ,
      List.countP_append, List.countP_singleton]

/-- What the answer to the library leaves as it is. -/
def MapLoop.SameMap (st st' : MapLoop) : Prop :=
  st' = { st with sg := st'.sg }

@[simp] theorem push_memsize (addr size : U64) :
    (st.push addr size).memsize = st.memsize := rfl

@[simp] theorem push_leftsize (addr size : U64) :
    (st.push addr size).leftsize = st.leftsize := rfl

/-- At an entry the loop breaks off or takes its segment. -/
theorem answer_spec (hat : AtEntry umem length k st) :
    st.SameMap (st.answer umem.hugetlb e).1
      ∧ (st.answer umem.hugetlb e).2 = umem.stopsAt length k
      ∧ (umem.stopsAt length k = false →
        (st.answer umem.hugetlb e).1.sg.length
          = umem.takenAt length (k + 1)) := by
  have hwhole : (st.memsize % BXROCE_HUGEPAGE_SIZE = 0
        ∧ st.leftsize ≥ BXROCE_HUGEPAGE_SIZE)
      ↔ umem.wholeAt length k = true := by
    rw [hat.memsize, hat.leftsize, Umem.wholeAt, decide_eq_true_iff]
  have htail : ((st.memsize % BXROCE_HUGEPAGE_SIZE + st.leftsize)
        / BXROCE_HUGEPAGE_SIZE = 0)
      ↔ umem.tailAt length k = true := by
    rw [hat.memsize, hat.leftsize, Umem.tailAt, decide_eq_true_iff]
  have htaken := hat.taken
  rw [takenAt_succ]
  unfold MapLoop.answer Umem.stopsAt
  cases hhuge : umem.hugetlb with
  | false =>
    simp only [Bool.false_eq_true, if_false]
    by_cases hfull : MAX_SG_NUM ≤ umem.takenAt length k
    · rw [if_pos (by omega)]
      exact ⟨rfl, (decide_eq_true hfull).symm, fun hgo => by
        rw [decide_eq_true hfull] at hgo; cases hgo⟩
    · rw [if_neg (by omega)]
      refine ⟨rfl, (decide_eq_false hfull).symm, fun _ => ?_⟩
      rw [MapLoop.push, List.length_append, htaken]
      rfl
  | true =>
    simp only [if_true]
    cases hw : umem.wholeAt length k with
    | false =>
      have hnot : ¬ (st.memsize % BXROCE_HUGEPAGE_SIZE = 0
          ∧ st.leftsize ≥ BXROCE_HUGEPAGE_SIZE) := by
        rw [hwhole, hw]
        exact Bool.false_ne_true
      rw [if_neg fun hboth => hnot hboth.1, if_neg hnot]
      cases ht : umem.tailAt length k with
      | false =>
        rw [if_neg (by rw [htail, ht]; exact Bool.false_ne_true)]
        exact ⟨rfl, rfl, fun _ => htaken⟩
      | true =>
        rw [if_pos (htail.2 ht)]
        split
        · exact ⟨rfl, rfl, fun hgo => by cases hgo⟩
        · exact ⟨rfl, rfl, fun hgo => by cases hgo⟩
    | true =>
      have hyes := hwhole.2 hw
      by_cases hfull : MAX_SG_NUM ≤ umem.takenAt length k
      · rw [if_pos ⟨hyes, by omega⟩, decide_eq_true hfull]
        exact ⟨rfl, rfl, fun hgo => by cases hgo⟩
      · rw [if_neg (fun hboth => by have := hboth.2; omega), if_pos hyes,
          decide_eq_false hfull]
        generalize (if st.leftsize > BXROCE_HUGEPAGE_SIZE then
          BXROCE_HUGEPAGE_SIZE else st.leftsize) = size
        rw [push_memsize, push_leftsize]
        cases ht : umem.tailAt length k with
        | false =>
          rw [if_neg (by rw [htail, ht]; exact Bool.false_ne_true)]
          refine ⟨rfl, rfl, fun _ => ?_⟩
          rw [MapLoop.push, List.length_append, htaken]
          rfl
        | true =>
          rw [if_pos (htail.2 ht)]
          split
          · exact ⟨rfl, rfl, fun hgo => by cases hgo⟩
          · exact ⟨rfl, rfl, fun hgo => by cases hgo⟩

/-- On to the next entry. -/
theorem next_spec (hat : AtEntry umem length k st) (hk : umem.sgl[k]? = some e)
    {sg : List SgPhy} (hsg : sg.length = umem.takenAt length (k + 1)) :
    AtEntry umem length (k + 1) (MapLoop.next e { st with sg := sg })
      ∧ (MapLoop.next e { st with sg := sg }).writes = st.writes
      ∧ (MapLoop.next e { st with sg := sg }).reads
        = if (k + 1) % BXROCE_BUF_PER_MAP = 0 then
            st.reads ++ [(k + 1) / BXROCE_BUF_PER_MAP]
          else st.reads := by
  obtain ⟨hmap, hbuf, hnumBuf, hmemsize, hleftsize, -⟩ := hat
  unfold MapLoop.next
  dsimp only
  rw [hmap, hbuf, hnumBuf, hmemsize, hleftsize]
  unfold BXROCE_BUF_PER_MAP
  by_cases hfull : k % 256 + 1 ≥ 256
  · have hmod : (k + 1) % 256 = 0 := by omega
    have hdiv : (k + 1) / 256 = k / 256 + 1 := by omega
    rw [if_pos hfull, if_pos hmod]
    refine ⟨⟨?_, ?_, ?_, ?_, ?_, hsg⟩, rfl, ?_⟩
    · exact hdiv.symm
    · unfold BXROCE_BUF_PER_MAP
      rw [hmod, hdiv]
    · exact hmod.symm
    · exact (memsizeAt_succ hk).symm
    · exact (leftsizeAt_succ hk).symm
    · rw [hdiv]
  · have hmod : (k + 1) % 256 = k % 256 + 1 := by omega
    have hdiv : (k + 1) / 256 = k / 256 := by omega
    rw [if_neg hfull, if_neg (by omega)]
    refine ⟨⟨?_, ?_, ?_, ?_, ?_, hsg⟩, rfl, rfl⟩
    · exact hdiv.symm
    · unfold BXROCE_BUF_PER_MAP
      rw [hmod, hdiv]
    · exact hmod.symm
    · exact (memsizeAt_succ hk).symm
    · exact (leftsizeAt_succ hk).symm

/-- The pages of the entries from `k` on, where they belong. -/
def Umem.slotsFrom (umem : Umem) (k : Nat) (sgl : List Sg) :
    List (MapSlot × PhysBuf) :=
  sgl.mapIdx fun i e => umem.slot (k + i) e

theorem slotsFrom_cons (sgl : List Sg) :
    umem.slotsFrom k (e :: sgl)
      = umem.slot k e :: umem.slotsFrom (k + 1) sgl := by
  unfold Umem.slotsFrom
  rw [List.mapIdx_cons, Nat.add_zero]
  refine congrArg _ (congrArg (List.mapIdx · sgl) ?_)
  funext i e
  rw [Nat.add_assoc, Nat.add_comm 1 i]

/-- What an iteration leaves for the entries behind it. -/
theorem record_cons (hat : AtEntry umem length k st)
    (hk : umem.sgl[k]? = some e) (sgl : List Sg) :
    (umem.stopsAt length k = true ∧
      ∃ out, MapLoop.record umem.hugetlb umem.pageShift (e :: sgl) st = out
        ∧ out.writes = st.writes ++ [umem.slot k e]
        ∧ out.reads = st.reads)
    ∨ (umem.stopsAt length k = false ∧
      ∃ st', MapLoop.record umem.hugetlb umem.pageShift (e :: sgl) st
          = MapLoop.record umem.hugetlb umem.pageShift sgl st'
        ∧ AtEntry umem length (k + 1) st'
        ∧ st'.writes = st.writes ++ [umem.slot k e]
        ∧ st'.reads = if (k + 1) % BXROCE_BUF_PER_MAP = 0 then
            st.reads ++ [(k + 1) / BXROCE_BUF_PER_MAP]
          else st.reads) := by
  have hwrite : AtEntry umem length k
      (st.write ⟨e.dmaAddress, 1 <<< umem.pageShift⟩) :=
    ⟨hat.map, hat.buf, hat.numBuf, hat.memsize, hat.leftsize, hat.taken⟩
  have hwrites : (st.write ⟨e.dmaAddress, 1 <<< umem.pageShift⟩).writes
      = st.writes ++ [umem.slot k e] := by
    rw [MapLoop.write, hat.buf]
    rfl
  obtain ⟨hsame, hstops, htaken⟩ := answer_spec (e := e) hwrite
  rw [MapLoop.record]
  cases hans : (st.write ⟨e.dmaAddress, 1 <<< umem.pageShift⟩).answer
      umem.hugetlb e with
  | mk st' stopped =>
    rw [hans] at hsame hstops htaken
    dsimp only at hsame hstops htaken
    rw [← hstops] at htaken ⊢
    cases stopped with
    | true =>
      refine Or.inl ⟨rfl, st', rfl, ?_, ?_⟩
      · rw [hsame]
        exact hwrites
      · rw [hsame]
        rfl
    | false =>
      rw [MapLoop.SameMap] at hsame
      obtain ⟨hat', hw', hr'⟩ := next_spec hwrite hk (htaken rfl)
      refine Or.inr ⟨rfl, MapLoop.next e st', rfl, ?_, ?_, ?_⟩
      · rw [hsame]
        exact hat'
      · rw [hsame]
        exact hw'.trans hwrites
      · rw [hsame]
        exact hr'

theorem of_drop_cons {sgl rest : List Sg} (h : sgl.drop k = e :: rest) :
    sgl[k]? = some e ∧ sgl.drop (k + 1) = rest
      ∧ sgl.length = k + 1 + rest.length := by
  have hget := congrArg (fun l : List Sg => l[0]?) h
  have hlength := congrArg List.length h
  rw [List.getElem?_drop, Nat.add_zero] at hget
  rw [List.length_drop, List.length_cons] at hlength
  refine ⟨hget, ?_, by omega⟩
  rw [← List.drop_drop, h]
  rfl

/-- The read behind a full block stays in the array as long as entries
follow. -/
theorem read_inside_iff {n : Nat} (hk : k < n)
    (hfull : (k + 1) % BXROCE_BUF_PER_MAP = 0) :
    (k + 1) / BXROCE_BUF_PER_MAP < numMap n ↔ k + 1 < n := by
  unfold numMap
  unfold BXROCE_BUF_PER_MAP at *
  omega

/-- A loop that is not stopped before the last entry records all of them,
and reads within the array unless the last one fills its block. -/
theorem record_full (sgl : List Sg) (hat : AtEntry umem length k st)
    (hrest : umem.sgl.drop k = sgl)
    (hgo : ∀ j, k ≤ j → j + 1 < umem.sgl.length →
      umem.stopsAt length j = false) :
    (MapLoop.record umem.hugetlb umem.pageShift sgl st).writes
        = st.writes ++ umem.slotsFrom k sgl
      ∧ ((∀ m ∈ (MapLoop.record umem.hugetlb umem.pageShift sgl st).reads,
            m < numMap umem.sgl.length)
        ↔ (∀ m ∈ st.reads, m < numMap umem.sgl.length)
          ∧ (k < umem.sgl.length →
            umem.sgl.length % BXROCE_BUF_PER_MAP ≠ 0
              ∨ umem.stopsAt length (umem.sgl.length - 1) = true)) := by
  induction sgl generalizing k st with
  | nil =>
    have hle : umem.sgl.length ≤ k := List.drop_eq_nil_iff.1 hrest
    refine ⟨(List.append_nil _).symm, ?_⟩
    exact ⟨fun hall => ⟨hall, fun hlt => absurd hlt (Nat.not_lt.2 hle)⟩,
      fun hall => hall.1⟩
  | cons e rest ih =>
    obtain ⟨hk, hdrop, hlength⟩ := of_drop_cons hrest
    rcases record_cons hat hk rest with
      ⟨hstop, out, hout, hwrites, hreads⟩
        | ⟨hstop, st', hout, hat', hwrites, hreads⟩
    · -- the loop may break off at the last entry only
      have hlast : k + 1 = umem.sgl.length := by
        by_contra hne
        rw [hgo k (Nat.le_refl k) (by omega)] at hstop
        cases hstop
      have hnil : rest = [] := List.length_eq_zero_iff.1 (by omega)
      rw [hout, hwrites, hreads, slotsFrom_cons, hnil]
      refine ⟨rfl, ⟨fun hall => ⟨hall, fun _ => Or.inr ?_⟩,
        fun hall => hall.1⟩⟩
      rw [← hlast, Nat.add_sub_cancel]
      exact hstop
    · obtain ⟨hwrites', hreads'⟩ := ih hat' hdrop fun j hj hlt =>
        hgo j (by omega) hlt
      rw [hout, hwrites', hreads', hwrites, slotsFrom_cons,
        List.append_assoc]
      refine ⟨rfl, ?_⟩
      have hlt : k < umem.sgl.length := by omega
      rw [hreads]
      by_cases hfull : (k + 1) % BXROCE_BUF_PER_MAP = 0
      · rw [if_pos hfull, List.forall_mem_append, List.forall_mem_singleton,
          read_inside_iff hlt hfull]
        by_cases hnext : k + 1 < umem.sgl.length
        · simp [hnext, hlt]
        · have hn : umem.sgl.length = k + 1 := by omega
          rw [hn, Nat.add_sub_cancel, hstop]
          simp [hfull]
      · rw [if_neg hfull]
        by_cases hnext : k + 1 < umem.sgl.length
        · simp [hnext, hlt]
        · have hn : umem.sgl.length = k + 1 := by omega
          rw [hn]
          simp [hfull]

/-- A loop that is stopped before does not. -/
theorem record_short (sgl : List Sg) (hat : AtEntry umem length k st)
    (hrest : umem.sgl.drop k = sgl) {j : Nat} (hj : k ≤ j)
    (hlast : j + 1 < umem.sgl.length)
    (hstop : umem.stopsAt length j = true) :
    (MapLoop.record umem.hugetlb umem.pageShift sgl st).writes.length
      < st.writes.length + sgl.length := by
  induction sgl generalizing k st with
  | nil =>
    have hle : umem.sgl.length ≤ k := List.drop_eq_nil_iff.1 hrest
    omega
  | cons e rest ih =>
    obtain ⟨hk, hdrop, hlength⟩ := of_drop_cons hrest
    rcases record_cons hat hk rest with
      ⟨-, out, hout, hwrites, -⟩ | ⟨hgo, st', hout, hat', hwrites, -⟩
    · rw [hout, hwrites, List.length_append, List.length_singleton,
        List.length_cons]
      omega
    · have hne : k ≠ j := by
        rintro rfl
        rw [hstop] at hgo
        cases hgo
      have hless := ih hat' hdrop (by omega)
      rw [hwrites, List.length_append, List.length_singleton] at hless
      rw [hout, List.length_cons]
      omega

end Loop

-- ================================================================ result

section Result

variable {umem : Umem} {length : U64}

/-- The list is the region's: no element of the array is read and no
buffer written that is not there, and the buffers written are the pages,
in order. -/
structure Umem.Recorded (umem : Umem) (length : U64) : Prop where
  reads : ∀ m ∈ (recordMap umem length).reads, m < numMap umem.sgl.length
  writes : ∀ w ∈ (recordMap umem length).writes,
    w.1.map < numMap umem.sgl.length ∧ w.1.buf < BXROCE_BUF_PER_MAP
  pages : (recordMap umem length).writes = umem.sgl.mapIdx umem.slot

theorem slotsFrom_zero (sgl : List Sg) :
    umem.slotsFrom 0 sgl = sgl.mapIdx umem.slot := by
  unfold Umem.slotsFrom
  refine congrArg (List.mapIdx · sgl) ?_
  funext i e
  rw [Nat.zero_add]

/-- The places of the pages are in the list. -/
theorem slot_inside : ∀ w ∈ umem.sgl.mapIdx umem.slot,
    w.1.map < numMap umem.sgl.length ∧ w.1.buf < BXROCE_BUF_PER_MAP := by
  intro w hw
  obtain ⟨k, hk, rfl⟩ := List.mem_mapIdx.1 hw
  unfold Umem.slot numMap BXROCE_BUF_PER_MAP
  dsimp only
  omega

theorem atEntry_zero (reads : List Nat) :
    AtEntry umem length 0
      ⟨0, ⟨0, 0⟩, 0, [], 0, length, reads, []⟩ := by
  refine ⟨rfl, rfl, rfl, rfl, rfl, ?_⟩
  unfold Umem.takenAt
  cases umem.hugetlb with
  | false => rfl
  | true => rfl

/-- Exactly which lists of pages are recorded. -/
theorem pages_recorded_iff :
    umem.Recorded length
      ↔ (length = 0 ∧ umem.sgl = [])
        ∨ (length ≠ 0 ∧ umem.sgl ≠ []
          ∧ (∀ k, k + 1 < umem.sgl.length →
            umem.stopsAt length k = false)
          ∧ (umem.sgl.length % BXROCE_BUF_PER_MAP ≠ 0
            ∨ umem.stopsAt length (umem.sgl.length - 1) = true)) := by
  by_cases hzero : length = 0
  · have hrec : recordMap umem length
        = ⟨0, ⟨0, 0⟩, 0, [], 0, length, [], []⟩ := by
      rw [recordMap, if_neg (by rw [hzero]; decide)]
    constructor
    · intro hrecorded
      have hpages := congrArg List.length hrecorded.pages
      rw [hrec, List.length_mapIdx] at hpages
      exact Or.inl ⟨hzero, List.length_eq_zero_iff.1 hpages.symm⟩
    · rintro (⟨-, hnil⟩ | ⟨hne, -⟩)
      · refine ⟨?_, ?_, ?_⟩
        · rw [hrec]
          exact fun m hm => absurd hm List.not_mem_nil
        · rw [hrec]
          exact fun w hw => absurd hw List.not_mem_nil
        · rw [hrec, hnil]
          rfl
      · exact absurd hzero hne
  · have hpos : length > 0 := by
      rw [gt_iff_lt, BitVec.lt_def]
      exact Nat.pos_of_ne_zero fun h => hzero (BitVec.eq_of_toNat_eq h)
    have hrec : recordMap umem length
        = MapLoop.record umem.hugetlb umem.pageShift umem.sgl
          ⟨0, ⟨0, 0⟩, 0, [], 0, length, [0], []⟩ := by
      rw [recordMap, if_pos hpos]
    have hat : AtEntry umem length 0
        ⟨0, ⟨0, 0⟩, 0, [], 0, length, [0], []⟩ := atEntry_zero [0]
    have hfirst : (∀ m ∈ [0], m < numMap umem.sgl.length)
        ↔ umem.sgl ≠ [] := by
      rw [List.forall_mem_singleton, ← List.length_pos_iff]
      unfold numMap BXROCE_BUF_PER_MAP
      omega
    by_cases hgo : ∀ k, k + 1 < umem.sgl.length →
        umem.stopsAt length k = false
    · obtain ⟨hwrites, hreads⟩ := record_full umem.sgl hat rfl
        fun j _ hj => hgo j hj
      rw [List.nil_append, slotsFrom_zero] at hwrites
      rw [hfirst] at hreads
      constructor
      · intro hrecorded
        have hin := hrecorded.reads
        rw [hrec] at hin
        obtain ⟨hne, hlast⟩ := hreads.1 hin
        exact Or.inr ⟨hzero, hne, hgo, hlast (List.length_pos_iff.2 hne)⟩
      · rintro (⟨h, -⟩ | ⟨-, hne, -, hlast⟩)
        · exact absurd h hzero
        · refine ⟨?_, ?_, ?_⟩
          · rw [hrec]
            exact hreads.2 ⟨hne, fun _ => hlast⟩
          · rw [hrec, hwrites]
            exact slot_inside
          · rw [hrec, hwrites]
    · constructor
      · intro hrecorded
        obtain ⟨k, hk⟩ := not_forall.1 hgo
        obtain ⟨hlt, hstop⟩ := Classical.not_imp.1 hk
        have hless := record_short umem.sgl hat rfl (Nat.zero_le k) hlt
          (Bool.of_not_eq_false hstop)
        have hpages := congrArg List.length hrecorded.pages
        rw [hrec, List.length_mapIdx] at hpages
        rw [hpages, List.length_nil, Nat.zero_add] at hless
        exact absurd hless (Nat.lt_irrefl _)
      · rintro (⟨h, -⟩ | ⟨-, -, hall, -⟩)
        · exact absurd h hzero
        · exact absurd hall hgo

/-- Without huge pages the library's table is the bound: it has an
element for each entry, and the break comes behind the write. -/
theorem pages_recorded_normal_iff (hnormal : umem.hugetlb = false) :
    umem.Recorded length
      ↔ (length = 0 ∧ umem.sgl = [])
        ∨ (length ≠ 0 ∧ umem.sgl ≠ []
          ∧ umem.sgl.length ≤ MAX_SG_NUM + 1) := by
  have hstops : ∀ k, umem.stopsAt length k = decide (MAX_SG_NUM ≤ k) := by
    intro k
    unfold Umem.stopsAt Umem.takenAt
    rw [hnormal]
    rfl
  rw [pages_recorded_iff]
  refine or_congr_right
    (and_congr_right fun _ => and_congr_right fun hne => ?_)
  have hpos : 0 < umem.sgl.length := List.length_pos_iff.2 hne
  constructor
  · rintro ⟨hgo, -⟩
    by_contra hlong
    have hfalse := hgo MAX_SG_NUM (by omega)
    rw [hstops, decide_eq_false_iff_not] at hfalse
    exact hfalse (Nat.le_refl _)
  · intro hshort
    refine ⟨fun k hk => ?_, Or.inl ?_⟩
    · rw [hstops, decide_eq_false_iff_not]
      omega
    · unfold MAX_SG_NUM at hshort
      unfold BXROCE_BUF_PER_MAP
      omega

/-- So many pages in a row, as the kernel lists them. -/
def pagesInARow (hugetlb : Bool) (n : Nat) : Umem where
  address := 0x200000
  pageShift := 12
  hugetlb
  sgl := (List.range n).map fun k =>
    ⟨BitVec.ofNat 64 (0x200000 + 0x1000 * k), 0x1000⟩

/-- The 512 pages of a huge page: the second block is full, and the array
is read behind its end. Of 130 pages the last is not recorded. -/
theorem page_map_overrun :
    2 ∈ (recordMap (pagesInARow true 512) 0x200000).reads
      ∧ numMap (pagesInARow true 512).sgl.length = 2
      ∧ ¬ (pagesInARow true 512).Recorded 0x200000
      ∧ ¬ (pagesInARow false 130).Recorded 0x82000 := by
  have hread : 2 ∈ (recordMap (pagesInARow true 512) 0x200000).reads := by
    decide +kernel
  have hshort : (recordMap (pagesInARow false 130) 0x82000).writes.length
      = 129 := by
    decide +kernel
  have hnum : numMap (pagesInARow true 512).sgl.length = 2 := by
    unfold pagesInARow
    rw [List.length_map, List.length_range]
    rfl
  refine ⟨hread, hnum, fun hrecorded => ?_, fun hrecorded => ?_⟩
  · have hlt := hrecorded.reads 2 hread
    rw [hnum] at hlt
    exact absurd hlt (Nat.lt_irrefl _)
  · rw [hrecorded.pages, List.length_mapIdx, pagesInARow, List.length_map,
      List.length_range] at hshort
    cases hshort

end Result

-- ================================================================ answer

section Answer

variable {st : MapLoop} {e : Sg}

@[simp] theorem next_sg : (MapLoop.next e st).sg = st.sg := by
  unfold MapLoop.next
  dsimp only
  split <;> rfl

@[simp] theorem next_memsize : (MapLoop.next e st).memsize
    = st.memsize + e.dmaLen.setWidth 64 := by
  unfold MapLoop.next
  dsimp only
  split <;> rfl

@[simp] theorem next_leftsize : (MapLoop.next e st).leftsize
    = st.leftsize - e.dmaLen.setWidth 64 := by
  unfold MapLoop.next
  dsimp only
  split <;> rfl

@[simp] theorem push_sg (addr size : U64) :
    (st.push addr size).sg = st.sg ++ [⟨addr, size.setWidth 32⟩] := rfl

/-- The last segment of a list of huge pages, or on to the next entry. -/
theorem tail_sg {pageShift : Nat} {sgl : List Sg}
    (ih : ∀ st, (MapLoop.record true pageShift sgl st).sg
      = walkSgl true sgl st.sg st.memsize st.leftsize) (st : MapLoop) :
    (match (if (st.memsize % BXROCE_HUGEPAGE_SIZE + st.leftsize)
          / BXROCE_HUGEPAGE_SIZE = 0 then
        if st.sg.length ≥ MAX_SG_NUM then (st, true)
        else (st.push e.dmaAddress st.leftsize, true)
      else (st, false)) with
    | (st, true) => st
    | (st, false) => MapLoop.record true pageShift sgl (st.next e)).sg
      = if (st.memsize % BXROCE_HUGEPAGE_SIZE + st.leftsize)
          / BXROCE_HUGEPAGE_SIZE = 0 then
        if st.sg.length ≥ MAX_SG_NUM then st.sg
        else st.sg ++ [⟨e.dmaAddress, st.leftsize.setWidth 32⟩]
      else walkSgl true sgl st.sg (st.memsize + e.dmaLen.setWidth 64)
        (st.leftsize - e.dmaLen.setWidth 64) := by
  by_cases htail : (st.memsize % BXROCE_HUGEPAGE_SIZE + st.leftsize)
      / BXROCE_HUGEPAGE_SIZE = 0
  · rw [if_pos htail, if_pos htail]
    by_cases hfull : st.sg.length ≥ MAX_SG_NUM
    · rw [if_pos hfull, if_pos hfull]
    · rw [if_neg hfull, if_neg hfull]
      rfl
  · rw [if_neg htail, if_neg htail]
    simp only [ih, next_sg, next_memsize, next_leftsize]

/-- The table for the library is the one of `memInitUser`. -/
theorem record_sg (hugetlb : Bool) (pageShift : Nat) (sgl : List Sg)
    (st : MapLoop) :
    (MapLoop.record hugetlb pageShift sgl st).sg
      = walkSgl hugetlb sgl st.sg st.memsize st.leftsize := by
  induction sgl generalizing st with
  | nil => rfl
  | cons e sgl ih =>
    have hsg : (st.write ⟨e.dmaAddress, 1 <<< pageShift⟩).sg = st.sg := rfl
    have hmem : (st.write ⟨e.dmaAddress, 1 <<< pageShift⟩).memsize
      = st.memsize := rfl
    have hleft : (st.write ⟨e.dmaAddress, 1 <<< pageShift⟩).leftsize
      = st.leftsize := rfl
    rw [MapLoop.record, walkSgl]
    generalize st.write ⟨e.dmaAddress, 1 <<< pageShift⟩ = st' at *
    rw [← hsg, ← hmem, ← hleft]
    unfold MapLoop.answer
    dsimp only
    cases hugetlb with
    | false =>
      simp only [Bool.false_eq_true, if_false]
      by_cases hfull : st'.sg.length ≥ MAX_SG_NUM
      · rw [if_pos hfull, if_pos hfull]
      · rw [if_neg hfull, if_neg hfull]
        simp only [ih, next_sg, next_memsize, next_leftsize, push_sg,
          push_memsize, push_leftsize]
    | true =>
      simp only [if_true]
      by_cases hw : st'.memsize % BXROCE_HUGEPAGE_SIZE = 0
          ∧ st'.leftsize ≥ BXROCE_HUGEPAGE_SIZE
      · by_cases hfull : st'.sg.length ≥ MAX_SG_NUM
        · rw [if_pos ⟨hw, hfull⟩, if_pos ⟨hw, hfull⟩]
        · have hroom : ¬ ((st'.memsize % BXROCE_HUGEPAGE_SIZE = 0
              ∧ st'.leftsize ≥ BXROCE_HUGEPAGE_SIZE)
              ∧ st'.sg.length ≥ MAX_SG_NUM) := fun hboth => hfull hboth.2
          rw [if_neg hroom, if_neg hroom, if_pos hw, if_pos hw]
          exact tail_sg ih _
      · have hpart : ¬ ((st'.memsize % BXROCE_HUGEPAGE_SIZE = 0
            ∧ st'.leftsize ≥ BXROCE_HUGEPAGE_SIZE)
            ∧ st'.sg.length ≥ MAX_SG_NUM) := fun hboth => hw hboth.1
        rw [if_neg hpart, if_neg hpart, if_neg hw, if_neg hw]
        exact tail_sg ih _

/-- What the library is told at an entry begins with the entry, and is one
segment at most: where a huge page begins there is one left. -/
theorem answer_sg (hugetlb : Bool) (e : Sg) (st : MapLoop) :
    (st.answer hugetlb e).1.writes = st.writes
      ∧ ((st.answer hugetlb e).1.sg = st.sg
        ∨ ∃ size, (st.answer hugetlb e).1.sg
          = st.sg ++ [⟨e.dmaAddress, size⟩]) := by
  unfold MapLoop.answer
  dsimp only
  cases hugetlb with
  | false =>
    rw [if_neg Bool.false_ne_true]
    split
    · exact ⟨rfl, Or.inl rfl⟩
    · exact ⟨rfl, Or.inr ⟨_, rfl⟩⟩
  | true =>
    rw [if_pos rfl]
    by_cases hwhole : st.memsize % BXROCE_HUGEPAGE_SIZE = 0
        ∧ st.leftsize ≥ BXROCE_HUGEPAGE_SIZE
    · have hmore : ¬ (st.memsize % BXROCE_HUGEPAGE_SIZE + st.leftsize)
          / BXROCE_HUGEPAGE_SIZE = 0 := by
        intro hnone
        have hsize := BitVec.le_def.1 hwhole.2
        have hnat := congrArg BitVec.toNat hnone
        rw [hwhole.1, show (0 : U64) + st.leftsize = st.leftsize
          from BitVec.zero_add _, BitVec.toNat_udiv] at hnat
        have hpos : 0 < BXROCE_HUGEPAGE_SIZE.toNat := by decide
        exact absurd hnat (Nat.div_pos hsize hpos).ne'
      split
      · exact ⟨rfl, Or.inl rfl⟩
      · rw [push_memsize, push_leftsize, if_neg hmore]
        exact ⟨rfl, Or.inr ⟨_, rfl⟩⟩
    · rw [if_neg fun hboth => hwhole hboth.1, if_neg hwhole]
      split
      · split
        · exact ⟨rfl, Or.inl rfl⟩
        · exact ⟨rfl, Or.inr ⟨_, rfl⟩⟩
      · exact ⟨rfl, Or.inl rfl⟩

/-- The addresses of the segments, and of the buffers that were written. -/
def MapLoop.told (st : MapLoop) : List U64 := st.sg.map (·.addr)

def MapLoop.recorded (st : MapLoop) : List U64 := st.writes.map (·.2.addr)

theorem told_push (addr size : U64) :
    (st.push addr size).told = st.told ++ [addr] := List.map_append

theorem recorded_write (st : MapLoop) (buf : PhysBuf) :
    (st.write buf).recorded = st.recorded ++ [buf.addr] := List.map_append

theorem told_next : (st.next e).told = st.told := by
  rw [MapLoop.told, next_sg, MapLoop.told]

theorem recorded_next : (st.next e).recorded = st.recorded := by
  unfold MapLoop.next MapLoop.recorded
  dsimp only
  split
  · rfl
  · rfl

/-- The segments begin at pages of the list, in its order. -/
theorem record_told (hugetlb : Bool) (pageShift : Nat) (sgl : List Sg)
    {st : MapLoop} (h : st.told.Sublist st.recorded) :
    (MapLoop.record hugetlb pageShift sgl st).told.Sublist
      (MapLoop.record hugetlb pageShift sgl st).recorded := by
  induction sgl generalizing st with
  | nil => exact h
  | cons e sgl ih =>
    obtain ⟨hwrites, hsg⟩ := answer_sg hugetlb e
      (st.write ⟨e.dmaAddress, 1 <<< pageShift⟩)
    rw [MapLoop.record]
    generalize MapLoop.answer hugetlb e _ = out at hwrites hsg ⊢
    obtain ⟨st', stopped⟩ := out
    have hrecorded : st'.recorded = st.recorded ++ [e.dmaAddress] := by
      rw [MapLoop.recorded, hwrites]
      exact List.map_append
    have htold : st'.told.Sublist st'.recorded := by
      rw [hrecorded]
      rcases hsg with hsame | ⟨size, hmore⟩
      · rw [MapLoop.told, hsame]
        exact h.trans (List.sublist_append_left _ _)
      · rw [MapLoop.told, hmore, List.map_append]
        exact h.append (List.Sublist.refl _)
    cases stopped with
    | true => exact htold
    | false =>
      refine ih ?_
      rw [told_next, recorded_next]
      exact htold

/-- Without huge pages the segments are the first pages of the list, as
many as there is room for. -/
theorem record_told_small (pageShift : Nat) (sgl : List Sg) {st : MapLoop}
    (hsame : st.told = st.recorded) (hroom : st.told.length ≤ MAX_SG_NUM) :
    (MapLoop.record false pageShift sgl st).told
      = (MapLoop.record false pageShift sgl st).recorded.take
        MAX_SG_NUM := by
  induction sgl generalizing st with
  | nil =>
    rw [MapLoop.record, ← hsame, List.take_of_length_le hroom]
  | cons e sgl ih =>
    have hlength : st.told.length = st.sg.length := List.length_map _
    have hrecorded := recorded_write st
      ⟨e.dmaAddress, 1 <<< pageShift⟩
    rw [MapLoop.record, MapLoop.answer]
    dsimp only
    rw [if_neg Bool.false_ne_true]
    by_cases hfull : st.sg.length ≥ MAX_SG_NUM
    · have hfull' : (st.write ⟨e.dmaAddress, 1 <<< pageShift⟩).sg.length
          ≥ MAX_SG_NUM := hfull
      rw [if_pos hfull']
      dsimp only
      rw [hrecorded, ← hsame, List.take_append_of_le_length (by omega),
        List.take_of_length_le hroom]
      rfl
    · have hfree : ¬ (st.write ⟨e.dmaAddress, 1 <<< pageShift⟩).sg.length
          ≥ MAX_SG_NUM := hfull
      rw [if_neg hfree]
      dsimp only
      refine ih ?_ ?_
      · rw [told_next, told_push, recorded_next]
        exact (congrArg (· ++ [e.dmaAddress]) hsame).trans hrecorded.symm
      · rw [told_next, told_push, List.length_append, List.length_singleton]
        show st.told.length + 1 ≤ _
        omega

theorem recordMap_sg (umem : Umem) (length : U64) :
    (recordMap umem length).sg
      = if length > 0 then walkSgl umem.hugetlb umem.sgl [] 0 length
        else [] := by
  unfold recordMap
  split
  · exact record_sg umem.hugetlb umem.pageShift umem.sgl _
  · rfl

/-- The two tables that a registration makes agree: each segment that the
library is told begins at a page of the driver's list, in the order of the
list, and without huge pages they are the first ones of the list, up to
the size of the library's table. -/
theorem segments_recorded (start length : U64) (umem : Umem)
    (copyOk : Bool) :
    let told := (memInitUser ⟨start, length, some umem, true, copyOk⟩).2.sg
    let pages := (recordMap umem length).writes.map (·.2.addr)
    (told.map (·.addr)).Sublist pages
      ∧ (umem.hugetlb = false →
        told.map (·.addr) = pages.take MAX_SG_NUM) := by
  intro told pages
  have htold : told = (recordMap umem length).sg := by
    rw [recordMap_sg]
    show (memInitUser _).2.sg = _
    unfold memInitUser
    dsimp only
    rw [if_neg (fun h => Bool.noConfusion h)]
    split
    · rfl
    · rfl
  rw [htold]
  show (recordMap umem length).told.Sublist (recordMap umem length).recorded
    ∧ (_ → (recordMap umem length).told
      = (recordMap umem length).recorded.take MAX_SG_NUM)
  unfold recordMap
  split
  · refine ⟨record_told _ _ _ (List.Sublist.refl _), fun hsmall => ?_⟩
    rw [hsmall]
    exact record_told_small _ _ rfl (Nat.zero_le _)
  · exact ⟨List.Sublist.refl _, fun _ => rfl⟩

end Answer

end BxRnic.Kernel
