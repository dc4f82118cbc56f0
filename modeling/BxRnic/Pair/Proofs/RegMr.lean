/-
Whether the segments a registration is answered with describe the region
that was registered, in the kernel's answer and in the library's table.

The region is the pinned pages read from the in-page offset on, for the
registered length; `Describes` compares addresses byte by byte, so it
does not matter where a list of segments cuts. Three things go wrong: the
library's stores are sixteen elements apart instead of one, the kernel
drops what does not fit its table and succeeds, and neither of its two
walks takes the in-page offset off the first segment. What is left is
the region that needs one segment (`OneSegment`).
-/
import BxRnic.Lib.Extent
import BxRnic.User.RegMr

namespace BxRnic.Kernel

open Extent

-- ============================================================= the region

/-- The memory an entry of the scatter list stands for. -/
def Sg.extent (e : Sg) : Extent 64 := ⟨e.dmaAddress, e.dmaLen.toNat⟩

/-- The memory a reported segment stands for. -/
def SgPhy.extent (s : SgPhy) : Extent 64 := ⟨s.addr, s.size.toNat⟩

/-- The addresses of the registered bytes, in order. -/
def Umem.region (umem : Umem) (length : U64) : List U64 :=
  ((bytes (umem.sgl.map Sg.extent)).drop umem.offset).take length.toNat

/-- What `ib_umem_get` promises: the entries are whole pages, no larger
than a huge page, and as many as the region touches. -/
structure Umem.Pins (umem : Umem) (start length : U64) : Prop where
  address : umem.address = start
  shift : umem.pageShift ≤ 21
  whole : ∀ e ∈ umem.sgl, 2 ^ umem.pageShift ∣ e.dmaLen.toNat
  nonempty : ∀ e ∈ umem.sgl, 0 < e.dmaLen.toNat
  covers : umem.offset + length.toNat ≤ total (umem.sgl.map Sg.extent)
  tight : total (umem.sgl.map Sg.extent)
    < umem.offset + length.toNat + 2 ^ umem.pageShift

/-- The first extent begins further on. -/
def shiftFirst (offset : Nat) : List (Extent 64) → List (Extent 64)
  | [] => []
  | e :: es => ⟨e.addr + BitVec.ofNat 64 offset, e.len⟩ :: es

/-- The segments go through the region, when the first starts at the
in-page offset. -/
def Umem.Describes (umem : Umem) (length : U64) (sg : List SgPhy) : Prop :=
  bytes (shiftFirst umem.offset (sg.map SgPhy.extent))
    = umem.region length

/-- The registration succeeds. -/
def RegMrCall.Succeeds (call : RegMrCall) : Prop :=
  (memInitUser call).1 = 0

instance (call : RegMrCall) : Decidable call.Succeeds :=
  inferInstanceAs (Decidable (_ = _))

/-- The answer is right, on both sides. -/
structure RegMrCall.Right (call : RegMrCall) : Prop where
  described : ∀ umem : Umem, call.umem = some umem → call.Succeeds →
    umem.Describes call.length (memInitUser call).2.sg
  /-- A region that no table of the kernel's size describes is refused. -/
  refused : ∀ umem : Umem, call.umem = some umem →
    (∀ sg : List SgPhy, umem.Describes call.length sg →
      MAX_SG_NUM < sg.length) → ¬ call.Succeeds
  inside : call.Succeeds →
    ∀ i ∈ (User.regMr (memInitUser call).2).stores,
      i < (User.regMr (memInitUser call).2).numSge
  copied : call.Succeeds →
    (User.regMr (memInitUser call).2).sginfo
      = (memInitUser call).2.sg.map fun s => ⟨s.addr, s.size⟩

/-- How far into the list each entry begins, the first at `m`. -/
def starts (m : Nat) : List Sg → List Nat
  | [] => []
  | e :: sgl => m :: starts (m + e.dmaLen.toNat) sgl

/-- The region takes one segment: on the normal path the pages are one
entry; on the huge page path the bytes lie at consecutive addresses, the
length is at most a huge page, and when it is one, no entry begins where
the page ends. -/
def Umem.OneSegment (umem : Umem) (length : U64) : Prop :=
  if umem.hugetlb then
    length ≤ BXROCE_HUGEPAGE_SIZE
      ∧ (∃ a : U64, umem.region length = run a length.toNat)
      ∧ (length = BXROCE_HUGEPAGE_SIZE →
          BXROCE_HUGEPAGE_SIZE.toNat ∉ starts 0 umem.sgl)
  else umem.sgl.length = 1

-- ================================================== the library's table

theorem storeSgs_stores (i : Nat) (sgs : List SgPhy)
    (mr : User.MrSginfo) :
    (User.storeSgs i sgs mr).stores
      = mr.stores
        ++ (List.range' i sgs.length).map (· * User.sgPhyInfoSize) := by
  induction sgs generalizing i mr with
  | nil => simp [User.storeSgs]
  | cons s sgs ih =>
      simp [User.storeSgs, ih, User.storeSg, List.range'_succ]

theorem storeSgs_numSge (i : Nat) (sgs : List SgPhy)
    (mr : User.MrSginfo) :
    (User.storeSgs i sgs mr).numSge = mr.numSge := by
  induction sgs generalizing i mr with
  | nil => rfl
  | cons s sgs ih =>
      rw [User.storeSgs, ih]
      simp [User.storeSg, User.MrSginfo.numSge]

theorem regMr_numSge (resp : RegMrUresp) :
    (User.regMr resp).numSge = resp.sg.length := by
  rw [User.regMr, storeSgs_numSge]
  simp [User.MrSginfo.numSge, RegMrUresp.sgPhyNum]

/-- The second store is already outside a table of fewer than seventeen
elements, and a longer table has its second element left out. -/
theorem regMr_inside_iff (resp : RegMrUresp) :
    (∀ i ∈ (User.regMr resp).stores, i < (User.regMr resp).numSge)
      ↔ resp.sg.length ≤ 1 := by
  rw [regMr_numSge, User.regMr, storeSgs_stores]
  simp only [List.nil_append, List.mem_map, List.mem_range'_1,
    User.sgPhyInfoSize]
  constructor
  · intro h
    by_contra hmany
    have hlast := h ((resp.sg.length - 1) * 16)
      ⟨resp.sg.length - 1, ⟨by omega, by omega⟩, rfl⟩
    omega
  · rintro hone i ⟨j, ⟨-, hj⟩, rfl⟩
    omega

/-- A table of one element is copied. -/
theorem regMr_copied {resp : RegMrUresp} (hone : resp.sg.length ≤ 1) :
    (User.regMr resp).sginfo
      = resp.sg.map fun s => ⟨s.addr, s.size⟩ := by
  rcases resp with ⟨sg, offset⟩
  cases sg with
  | nil => rfl
  | cons s sgs =>
      cases sgs with
      | nil => rfl
      | cons s' sgs =>
          simp at hone

-- ================================================================ the walk

/-- Segments already in the table stay. -/
theorem walkSgl_grows (hugetlb : Bool) (sgl : List Sg) (sg : List SgPhy)
    (memsize leftsize : U64) :
    sg <+: walkSgl hugetlb sgl sg memsize leftsize := by
  induction sgl generalizing sg memsize leftsize with
  | nil => exact List.prefix_refl sg
  | cons e sgl ih =>
      unfold walkSgl
      cases hugetlb with
      | false =>
          simp only [Bool.false_eq_true, if_false]
          split
          · exact List.prefix_refl sg
          · exact (List.prefix_append _ _).trans (ih _ _ _)
      | true =>
          simp only [if_true]
          split
          · exact List.prefix_refl sg
          · generalize hwhole : (if memsize % BXROCE_HUGEPAGE_SIZE = 0
                ∧ leftsize ≥ BXROCE_HUGEPAGE_SIZE then _ else sg) = sg'
            have hsg : sg <+: sg' := by
              rw [← hwhole]
              split
              · exact List.prefix_append _ _
              · exact List.prefix_refl sg
            split
            · split
              · exact hsg
              · exact hsg.trans (List.prefix_append _ _)
            · exact hsg.trans (ih _ _ _)

/-- On the normal path every entry is a segment, until the table is
full. -/
theorem length_walkSgl_normal (sgl : List Sg) (sg : List SgPhy)
    (memsize leftsize : U64) (hsg : sg.length ≤ MAX_SG_NUM) :
    (walkSgl false sgl sg memsize leftsize).length
      = min MAX_SG_NUM (sg.length + sgl.length) := by
  induction sgl generalizing sg memsize leftsize with
  | nil =>
      rw [walkSgl]
      simp only [List.length_nil]
      omega
  | cons e sgl ih =>
      unfold walkSgl
      simp only [Bool.false_eq_true, if_false]
      by_cases hfull : sg.length ≥ MAX_SG_NUM
      · rw [if_pos hfull]
        simp only [List.length_cons]
        omega
      · rw [if_neg hfull, ih _ _ _ (by simp; omega)]
        simp only [List.length_append, List.length_cons, List.length_nil]
        omega

/-- A region of less than a huge page is answered with one segment. -/
theorem walkSgl_short (e : Sg) (sgl : List Sg) {length : U64}
    (hshort : length < BXROCE_HUGEPAGE_SIZE) :
    walkSgl true (e :: sgl) [] 0 length
      = [⟨e.dmaAddress, length.setWidth 32⟩] := by
  have hwhole : ¬ length ≥ BXROCE_HUGEPAGE_SIZE := by
    simpa using hshort
  have hlast : (0 % BXROCE_HUGEPAGE_SIZE + length)
      / BXROCE_HUGEPAGE_SIZE = 0 := by
    apply BitVec.eq_of_toNat_eq
    have hlt : length.toNat < BXROCE_HUGEPAGE_SIZE.toNat := hshort
    simp [Nat.div_eq_of_lt hlt]
  unfold walkSgl
  simp only [if_true, hwhole, and_false, false_and, if_false, hlast]
  rfl

/-- A longer one begins with a whole huge page. -/
theorem walkSgl_long (e : Sg) (sgl : List Sg) {length : U64}
    (hlong : BXROCE_HUGEPAGE_SIZE ≤ length) :
    walkSgl true (e :: sgl) [] 0 length
      = walkSgl true sgl
          [⟨e.dmaAddress, BXROCE_HUGEPAGE_SIZE.setWidth 32⟩]
          (e.dmaLen.setWidth 64) (length - e.dmaLen.setWidth 64) := by
  have hzero : (0 : U64) % BXROCE_HUGEPAGE_SIZE = 0 := by decide
  have hlast : ¬ (0 + length) / BXROCE_HUGEPAGE_SIZE = 0 := by
    intro h
    have hle : BXROCE_HUGEPAGE_SIZE.toNat ≤ length.toNat := hlong
    have hpos : 0 < length.toNat / BXROCE_HUGEPAGE_SIZE.toNat :=
      Nat.div_pos hle (by decide)
    have hdiv : length.toNat / BXROCE_HUGEPAGE_SIZE.toNat = 0 := by
      rw [BitVec.ofNat_eq_ofNat, BitVec.zero_add] at h
      rw [← BitVec.toNat_udiv, h]
      rfl
    omega
  have hsize : (if length > BXROCE_HUGEPAGE_SIZE
      then BXROCE_HUGEPAGE_SIZE else length) = BXROCE_HUGEPAGE_SIZE := by
    split
    · rfl
    · rename_i hle
      exact BitVec.le_antisymm (by simpa using hle) hlong
  have hroom : ¬ ([] : List SgPhy).length ≥ MAX_SG_NUM := by decide
  conv_lhs => unfold walkSgl
  simp only [if_true, hzero, ge_iff_le, hlong, and_self, hsize, hlast,
    if_false, true_and]
  rw [if_neg hroom]
  simp

/-- After a first huge page that is also the last, only an entry that
begins where it ends is answered. -/
theorem walkSgl_rest {sgl : List Sg} {s : SgPhy} {m : Nat} (hm : 0 < m)
    (hstarts : ∀ k ∈ starts m sgl, k ≤ BXROCE_HUGEPAGE_SIZE.toNat) :
    walkSgl true sgl [s] (BitVec.ofNat 64 m)
        (BXROCE_HUGEPAGE_SIZE - BitVec.ofNat 64 m) = [s]
      ↔ BXROCE_HUGEPAGE_SIZE.toNat ∉ starts m sgl := by
  have hpage : BXROCE_HUGEPAGE_SIZE.toNat = 0x200000 := by decide
  have hone : ¬ [s].length ≥ MAX_SG_NUM := by simp [MAX_SG_NUM]
  induction sgl generalizing m with
  | nil => simp [walkSgl, starts]
  | cons e sgl ih =>
      have hle : m ≤ 0x200000 := hpage ▸ hstarts m (List.mem_cons_self ..)
      have hword : (BitVec.ofNat 64 m).toNat = m := by
        rw [BitVec.toNat_ofNat]
        omega
      have hleft : (BXROCE_HUGEPAGE_SIZE - BitVec.ofNat 64 m).toNat
          = 0x200000 - m := by
        rw [BitVec.toNat_sub, hword, hpage]
        omega
      rcases Nat.lt_or_eq_of_le hle with hlt | hend
      · -- inside the page: nothing is answered
        have hwhole : ¬ BitVec.ofNat 64 m % BXROCE_HUGEPAGE_SIZE = 0 := by
          intro h
          have hmod := congrArg BitVec.toNat h
          rw [BitVec.toNat_umod, hword, hpage, Nat.mod_eq_of_lt hlt]
            at hmod
          exact Nat.ne_of_gt hm hmod
        have hlast : ¬ (BitVec.ofNat 64 m % BXROCE_HUGEPAGE_SIZE
            + (BXROCE_HUGEPAGE_SIZE - BitVec.ofNat 64 m))
            / BXROCE_HUGEPAGE_SIZE = 0 := by
          intro h
          have hdiv := congrArg BitVec.toNat h
          rw [BitVec.toNat_udiv, BitVec.toNat_add, BitVec.toNat_umod,
            hword, hpage, Nat.mod_eq_of_lt hlt, hleft] at hdiv
          have hsum : (m + (0x200000 - m)) % 2 ^ 64 = 0x200000 := by omega
          rw [hsum] at hdiv
          cases hdiv
        have hmem : BitVec.ofNat 64 m + e.dmaLen.setWidth 64
            = BitVec.ofNat 64 (m + e.dmaLen.toNat) := by
          rw [BitVec.ofNat_add, BitVec.ofNat_toNat]
        have hsub : BXROCE_HUGEPAGE_SIZE - BitVec.ofNat 64 m
              - e.dmaLen.setWidth 64
            = BXROCE_HUGEPAGE_SIZE
              - BitVec.ofNat 64 (m + e.dmaLen.toNat) := by
          rw [← hmem, BitVec.sub_eq_add_neg, BitVec.sub_eq_add_neg,
            BitVec.sub_eq_add_neg, BitVec.neg_add, BitVec.sub_eq_add_neg,
            BitVec.add_assoc]
        have hnext : walkSgl true (e :: sgl) [s] (BitVec.ofNat 64 m)
              (BXROCE_HUGEPAGE_SIZE - BitVec.ofNat 64 m)
            = walkSgl true sgl [s] (BitVec.ofNat 64 (m + e.dmaLen.toNat))
              (BXROCE_HUGEPAGE_SIZE
                - BitVec.ofNat 64 (m + e.dmaLen.toNat)) := by
          conv_lhs => unfold walkSgl
          simp only [if_true, hwhole, false_and, if_false, hlast, hmem,
            hsub]
        have hrest := ih (m := m + e.dmaLen.toNat) (by omega)
          fun k hk => hstarts k (List.mem_cons_of_mem _ hk)
        rw [hnext, starts, List.mem_cons, not_or]
        exact hrest.trans ⟨fun h => ⟨by omega, h⟩, fun h => h.2⟩
      · -- at its end: the entry gets a segment of its own
        subst hend
        constructor
        · intro h
          exfalso
          have hlast : (BitVec.ofNat 64 0x200000 % BXROCE_HUGEPAGE_SIZE
              + (BXROCE_HUGEPAGE_SIZE - BitVec.ofNat 64 0x200000))
              / BXROCE_HUGEPAGE_SIZE = 0 := by decide
          have hwhole : ¬ BXROCE_HUGEPAGE_SIZE
                - BitVec.ofNat 64 0x200000 ≥ BXROCE_HUGEPAGE_SIZE := by
            decide
          unfold walkSgl at h
          simp only [if_true, hwhole, and_false, false_and, if_false,
            hlast] at h
          rw [if_neg hone] at h
          simp at h
        · intro h
          exact absurd (hpage ▸ List.mem_cons_self ..) h

-- ============================================================= one segment

/-- What makes a registration succeed. -/
theorem RegMrCall.succeeds_iff (call : RegMrCall) :
    call.Succeeds ↔ call.umem.isSome = true ∧ call.allocOk = true
      ∧ call.copyOk = true := by
  unfold RegMrCall.Succeeds memInitUser
  cases call.umem with
  | none => simp [EINVAL]
  | some umem =>
      cases call.allocOk with
      | false => simp [ENOMEM]
      | true =>
          cases call.copyOk with
          | false => simp [EINVAL]
          | true => simp

/-- A registration that succeeds is answered with what the walk found. -/
theorem RegMrCall.Succeeds.sg_eq {call : RegMrCall} {umem : Umem}
    (h : call.Succeeds) (hlen : 0 < call.length)
    (humem : call.umem = some umem) :
    (memInitUser call).2.sg
      = walkSgl umem.hugetlb umem.sgl [] 0 call.length := by
  obtain ⟨-, halloc, hcopy⟩ := call.succeeds_iff.1 h
  unfold memInitUser
  simp only [humem, halloc, hcopy, Bool.true_eq_false, if_false, if_true,
    gt_iff_lt, hlen]

section Pins

variable {umem : Umem} {start length : U64}

/-- The pages hold the region. -/
theorem Umem.Pins.length_region (h : umem.Pins start length) :
    (umem.region length).length = length.toNat := by
  have hcovers := h.covers
  unfold Umem.region
  rw [List.length_take, List.length_drop, length_bytes]
  omega

/-- There is a first entry, and it is longer than the offset. -/
theorem Umem.Pins.sgl_cons (h : umem.Pins start length)
    (hlen : 0 < length) :
    ∃ (e : Sg) (sgl : List Sg), umem.sgl = e :: sgl
      ∧ umem.offset < e.dmaLen.toNat := by
  have hpos : 0 < length.toNat := hlen
  have hcovers := h.covers
  cases hsgl : umem.sgl with
  | nil =>
      rw [hsgl] at hcovers
      simp at hcovers
      omega
  | cons e sgl =>
      have hmem : e ∈ umem.sgl := hsgl ▸ List.mem_cons_self ..
      refine ⟨e, sgl, rfl, ?_⟩
      calc umem.offset < 2 ^ umem.pageShift :=
            Nat.mod_lt _ (Nat.two_pow_pos _)
        _ ≤ e.dmaLen.toNat := Nat.le_of_dvd (h.nonempty e hmem)
            (h.whole e hmem)

/-- A region at consecutive addresses begins at the in-page offset of the
first entry. -/
theorem region_start {e : Sg} {sgl : List Sg} {a : U64}
    (hsgl : umem.sgl = e :: sgl) (hoff : umem.offset < e.dmaLen.toNat)
    (hlen : 0 < length.toNat)
    (hrun : umem.region length = run a length.toNat) :
    a = e.dmaAddress + BitVec.ofNat 64 umem.offset := by
  have hfirst : (umem.region length)[0]?
      = some (e.dmaAddress + BitVec.ofNat 64 umem.offset) := by
    unfold Umem.region
    rw [hsgl, List.getElem?_take_of_lt hlen, List.getElem?_drop]
    simp [Sg.extent, run, hoff, List.getElem?_append_left]
  rw [hrun] at hfirst
  simpa [run, hlen] using hfirst

/-- One segment describes the region iff it is as long and the region
lies at consecutive addresses. -/
theorem describes_single {e : Sg} {sgl : List Sg} {size : U32}
    (h : umem.Pins start length) (hlen : 0 < length)
    (hsgl : umem.sgl = e :: sgl) (hoff : umem.offset < e.dmaLen.toNat) :
    umem.Describes length [⟨e.dmaAddress, size⟩]
      ↔ size.toNat = length.toNat
        ∧ ∃ a : U64, umem.region length = run a length.toNat := by
  have hbytes : bytes (shiftFirst umem.offset
        (([⟨e.dmaAddress, size⟩] : List SgPhy).map SgPhy.extent))
      = run (e.dmaAddress + BitVec.ofNat 64 umem.offset) size.toNat := by
    simp [shiftFirst, SgPhy.extent]
  unfold Umem.Describes
  rw [hbytes]
  constructor
  · intro heq
    have hsize : size.toNat = length.toNat := by
      rw [← h.length_region, ← heq, length_run]
    exact ⟨hsize, _, by rw [← heq, hsize]⟩
  · rintro ⟨hsize, a, hrun⟩
    rw [hrun, hsize, region_start hsgl hoff hlen hrun]

/-- Entries begin at page bounds, and a page or more before the end. -/
theorem mem_starts {page : Nat} {sgl : List Sg} {m k : Nat}
    (hwhole : ∀ e ∈ sgl, page ∣ e.dmaLen.toNat)
    (hnonempty : ∀ e ∈ sgl, 0 < e.dmaLen.toNat) (hm : page ∣ m)
    (hk : k ∈ starts m sgl) :
    page ∣ k ∧ k + page ≤ m + total (sgl.map Sg.extent) := by
  induction sgl generalizing m with
  | nil => cases hk
  | cons e sgl ih =>
      have hpage := hwhole e (List.mem_cons_self ..)
      have hle : page ≤ e.dmaLen.toNat :=
        Nat.le_of_dvd (hnonempty e (List.mem_cons_self ..)) hpage
      rw [List.map_cons, total_cons]
      rcases List.mem_cons.1 hk with rfl | hrest
      · refine ⟨hm, ?_⟩
        simp only [Sg.extent]
        omega
      · obtain ⟨hdvd, hend⟩ := ih
          (fun e he => hwhole e (List.mem_cons_of_mem _ he))
          (fun e he => hnonempty e (List.mem_cons_of_mem _ he))
          (Nat.dvd_add hm hpage) hrest
        refine ⟨hdvd, ?_⟩
        simp only [Sg.extent] at hend ⊢
        omega

/-- Of a region of one huge page, no entry begins after its end. -/
theorem Umem.Pins.starts_le (h : umem.Pins start length)
    (hlen : length = BXROCE_HUGEPAGE_SIZE) :
    ∀ k ∈ starts 0 umem.sgl, k ≤ BXROCE_HUGEPAGE_SIZE.toNat := by
  intro k hk
  have hoff : umem.offset < 2 ^ umem.pageShift :=
    Nat.mod_lt _ (Nat.two_pow_pos _)
  have htight := h.tight
  rw [hlen] at htight
  obtain ⟨⟨c, rfl⟩, hend⟩ :=
    mem_starts h.whole h.nonempty (Nat.dvd_zero _) hk
  have hpage : BXROCE_HUGEPAGE_SIZE.toNat
      = 2 ^ umem.pageShift * 2 ^ (21 - umem.pageShift) := by
    have hshift := h.shift
    rw [← Nat.pow_add, Nat.add_sub_cancel' hshift]
    decide
  rw [hpage] at htight ⊢
  apply Nat.mul_le_mul_left
  by_contra hlt
  -- a further page would be a page too many
  have hnext : 2 ^ umem.pageShift * (2 ^ (21 - umem.pageShift) + 1)
      ≤ 2 ^ umem.pageShift * c := Nat.mul_le_mul_left _ (by omega)
  rw [Nat.mul_add, Nat.mul_one] at hnext
  omega

/-- On the normal path: the pages are one entry. -/
theorem Umem.Pins.single_normal (h : umem.Pins start length)
    (hlen : 0 < length) :
    (walkSgl false umem.sgl [] 0 length).length ≤ 1
        ∧ umem.Describes length (walkSgl false umem.sgl [] 0 length)
      ↔ umem.sgl.length = 1 := by
  obtain ⟨e, sgl, hsgl, hoff⟩ := h.sgl_cons hlen
  have hlength := length_walkSgl_normal umem.sgl [] 0 length (by simp)
  constructor
  · rintro ⟨hone, -⟩
    rw [hlength] at hone
    simp only [MAX_SG_NUM, List.length_nil, Nat.zero_add] at hone
    rw [hsgl] at hone ⊢
    simp only [List.length_cons] at hone ⊢
    omega
  · intro hone
    refine ⟨by rw [hlength, hone]; simp [MAX_SG_NUM], ?_⟩
    have hnil : sgl = [] := by
      rw [hsgl] at hone
      simpa using hone
    subst hnil
    -- the one entry holds the whole region
    have hfits : umem.offset + length.toNat ≤ e.dmaLen.toNat := by
      have hcovers := h.covers
      rw [hsgl] at hcovers
      simpa [Sg.extent] using hcovers
    have hle : ¬ length > e.dmaLen.setWidth 64 := by
      intro hgt
      have hlt : e.dmaLen.toNat % 2 ^ 64 < length.toNat := by
        rw [← BitVec.toNat_setWidth]
        exact hgt
      omega
    have hwalk : walkSgl false umem.sgl [] 0 length
        = [⟨e.dmaAddress, length.setWidth 32⟩] := by
      rw [hsgl]
      unfold walkSgl
      simp only [Bool.false_eq_true, if_false, hle]
      rfl
    rw [hwalk, describes_single h hlen hsgl hoff]
    refine ⟨?_, e.dmaAddress + BitVec.ofNat 64 umem.offset, ?_⟩
    · rw [BitVec.toNat_setWidth]
      omega
    · unfold Umem.region
      rw [hsgl]
      simp only [List.map_cons, List.map_nil, bytes_cons, bytes_nil,
        List.append_nil]
      exact take_drop_run _ hfits

/-- On the huge page path. -/
theorem Umem.Pins.single_huge (h : umem.Pins start length)
    (hlen : 0 < length) :
    (walkSgl true umem.sgl [] 0 length).length ≤ 1
        ∧ umem.Describes length (walkSgl true umem.sgl [] 0 length)
      ↔ length ≤ BXROCE_HUGEPAGE_SIZE
        ∧ (∃ a : U64, umem.region length = run a length.toNat)
        ∧ (length = BXROCE_HUGEPAGE_SIZE →
            BXROCE_HUGEPAGE_SIZE.toNat ∉ starts 0 umem.sgl) := by
  obtain ⟨e, sgl, hsgl, hoff⟩ := h.sgl_cons hlen
  have hpage : BXROCE_HUGEPAGE_SIZE.toNat = 0x200000 := by decide
  by_cases hshort : length < BXROCE_HUGEPAGE_SIZE
  · have hlt : length.toNat < BXROCE_HUGEPAGE_SIZE.toNat := hshort
    have hsize : (length.setWidth 32).toNat = length.toNat := by
      rw [BitVec.toNat_setWidth]
      omega
    rw [hsgl, walkSgl_short e sgl hshort, ← hsgl,
      describes_single h hlen hsgl hoff]
    constructor
    · rintro ⟨-, -, hrun⟩
      refine ⟨Nat.le_of_lt hlt, hrun, ?_⟩
      rintro rfl
      exact absurd hlt (Nat.lt_irrefl _)
    · rintro ⟨-, hrun, -⟩
      exact ⟨by simp, hsize, hrun⟩
  · have hlong : BXROCE_HUGEPAGE_SIZE ≤ length := by
      simpa using hshort
    have hwhole : (BXROCE_HUGEPAGE_SIZE.setWidth 32).toNat = 0x200000 := by
      decide
    have hmem : e ∈ umem.sgl := hsgl ▸ List.mem_cons_self ..
    -- the rest of the walk, when the region is one huge page
    have hrest : length = BXROCE_HUGEPAGE_SIZE →
        (walkSgl true umem.sgl [] 0 length
            = [⟨e.dmaAddress, BXROCE_HUGEPAGE_SIZE.setWidth 32⟩]
          ↔ BXROCE_HUGEPAGE_SIZE.toNat ∉ starts 0 umem.sgl) := by
      rintro rfl
      have hstarts := h.starts_le rfl
      rw [hsgl] at hstarts ⊢
      have hiff := walkSgl_rest (h.nonempty e hmem)
        (s := ⟨e.dmaAddress, BXROCE_HUGEPAGE_SIZE.setWidth 32⟩)
        fun k hk => hstarts k (List.mem_cons_of_mem _ (by
          rwa [Nat.zero_add]))
      rw [BitVec.ofNat_toNat] at hiff
      rw [walkSgl_long e sgl (BitVec.le_refl _), starts, Nat.zero_add,
        List.mem_cons, not_or]
      exact hiff.trans ⟨fun hnot => ⟨by omega, hnot⟩, fun hnot => hnot.2⟩
    constructor
    · rintro ⟨hone, hdesc⟩
      have hgrows : [⟨e.dmaAddress, BXROCE_HUGEPAGE_SIZE.setWidth 32⟩]
          <+: walkSgl true umem.sgl [] 0 length := by
        rw [hsgl, walkSgl_long e sgl hlong]
        exact walkSgl_grows ..
      have hwalk := (hgrows.eq_of_length_le hone).symm
      rw [hwalk, describes_single h hlen hsgl hoff] at hdesc
      have hlength : length = BXROCE_HUGEPAGE_SIZE :=
        BitVec.eq_of_toNat_eq (by rw [← hdesc.1, hwhole, hpage])
      exact ⟨hlength ▸ BitVec.le_refl _, hdesc.2,
        fun heq => (hrest heq).1 hwalk⟩
    · rintro ⟨hle, hrun, hno⟩
      have hlength : length = BXROCE_HUGEPAGE_SIZE :=
        BitVec.le_antisymm hle hlong
      have hwalk := (hrest hlength).2 (hno hlength)
      rw [hwalk, describes_single h hlen hsgl hoff]
      exact ⟨by simp, by rw [hwhole, hlength, hpage], hrun⟩

/-- The walk finds one segment, and it describes the region, exactly when
the region takes one. -/
theorem Umem.Pins.single_iff (h : umem.Pins start length)
    (hlen : 0 < length) :
    (walkSgl umem.hugetlb umem.sgl [] 0 length).length ≤ 1
        ∧ umem.Describes length (walkSgl umem.hugetlb umem.sgl [] 0 length)
      ↔ umem.OneSegment length := by
  unfold Umem.OneSegment
  cases hhuge : umem.hugetlb with
  | false => exact h.single_normal hlen
  | true => exact h.single_huge hlen

end Pins

-- ================================================================= result

/-- Of registrations of pinned pages, exactly those that fail and those
of a region that takes one segment are answered right on both sides. -/
theorem regMr_right_iff {call : RegMrCall} (hlen : 0 < call.length)
    (hpins : ∀ umem : Umem, call.umem = some umem →
      umem.Pins call.start call.length) :
    call.Right ↔ ¬ call.Succeeds
      ∨ ∃ umem : Umem, call.umem = some umem
        ∧ umem.OneSegment call.length := by
  constructor
  · intro hright
    by_cases hsucc : call.Succeeds
    · right
      obtain ⟨umem, humem⟩ :=
        Option.isSome_iff_exists.1 (call.succeeds_iff.1 hsucc).1
      refine ⟨umem, humem, ((hpins umem humem).single_iff hlen).1 ?_⟩
      rw [← hsucc.sg_eq hlen humem]
      exact ⟨(regMr_inside_iff _).1 (hright.inside hsucc),
        hright.described umem humem hsucc⟩
    · exact Or.inl hsucc
  · rintro (hfails | ⟨umem, humem, hone⟩)
    · exact ⟨fun _ _ h => absurd h hfails, fun _ _ _ => hfails,
        fun h => absurd h hfails, fun h => absurd h hfails⟩
    · have hsingle := ((hpins umem humem).single_iff hlen).2 hone
      have hdesc : call.Succeeds →
          (memInitUser call).2.sg.length ≤ 1
            ∧ umem.Describes call.length (memInitUser call).2.sg := by
        intro hsucc
        rw [hsucc.sg_eq hlen humem]
        exact hsingle
      constructor
      · intro umem' humem' hsucc
        rw [humem] at humem'
        cases humem'
        exact (hdesc hsucc).2
      · intro umem' humem' hmany hsucc
        rw [humem] at humem'
        cases humem'
        have hlong := hmany _ (hdesc hsucc).2
        have hone := (hdesc hsucc).1
        unfold MAX_SG_NUM at hlong
        omega
      · intro hsucc
        exact (regMr_inside_iff _).2 (hdesc hsucc).1
      · intro hsucc
        exact regMr_copied (hdesc hsucc).1

/-- A normal registration of the pages at these addresses. -/
def pagesCall (start length : U64) (pages : List U64) : RegMrCall :=
  ⟨start, length, some ⟨start, 12, false, pages.map (⟨·, 0x1000⟩)⟩,
    true, true⟩

/-- A registration within one page is right. -/
theorem regMr_right_one_page :
    (pagesCall 0x7f0000000f00 0x80 [0x10000]).Right :=
  (regMr_right_iff (by decide) fun umem humem => by
    cases humem
    exact ⟨rfl, by decide, by simp, by simp, by decide,
      by decide⟩).2
    (Or.inr ⟨_, rfl, rfl⟩)

/-- Two pages: the second segment is stored sixteen elements into a table
of two. A region of 0x200 bytes across a page bound is answered with
segments of 0x200 and 0x1000 bytes. -/
theorem second_segment_outside :
    (∀ umem : Umem,
      (pagesCall 0x7f0000000000 0x2000 [0x10000, 0x30000]).umem
          = some umem →
      umem.Pins 0x7f0000000000 0x2000)
    ∧ (pagesCall 0x7f0000000000 0x2000 [0x10000, 0x30000]).Succeeds
    ∧ (User.regMr (memInitUser (pagesCall 0x7f0000000000 0x2000
        [0x10000, 0x30000])).2).stores = [0, 16]
    ∧ ¬ (pagesCall 0x7f0000000000 0x2000 [0x10000, 0x30000]).Right
    ∧ (memInitUser (pagesCall 0x7f0000000f00 0x200
        [0x10000, 0x30000])).2.sg
      = [⟨0x10000, 0x200⟩, ⟨0x30000, 0x1000⟩] := by
  refine ⟨?_, by decide, by decide, ?_, by decide⟩
  · intro umem humem
    cases humem
    exact ⟨rfl, by decide, by simp, by simp, by decide,
      by decide⟩
  · intro hright
    have hlast := hright.inside (by decide) 16 (by decide)
    exact absurd hlast (by decide)

/-- A region of more entries than the table has room for is answered with
a full table, and no error. -/
theorem truncated_silently {call : RegMrCall} {umem : Umem}
    (hlen : 0 < call.length) (humem : call.umem = some umem)
    (hnormal : umem.hugetlb = false)
    (hmany : MAX_SG_NUM < umem.sgl.length) (halloc : call.allocOk = true)
    (hcopy : call.copyOk = true) :
    call.Succeeds ∧ (memInitUser call).2.sgPhyNum = MAX_SG_NUM := by
  have hsucc : call.Succeeds :=
    call.succeeds_iff.2 ⟨by rw [humem]; rfl, halloc, hcopy⟩
  refine ⟨hsucc, ?_⟩
  rw [RegMrUresp.sgPhyNum, hsucc.sg_eq hlen humem, hnormal,
    length_walkSgl_normal _ _ _ _ (by simp)]
  simp only [List.length_nil, Nat.zero_add]
  omega

end BxRnic.Kernel
