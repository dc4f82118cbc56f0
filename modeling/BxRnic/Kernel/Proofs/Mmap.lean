/-
The list of mappable ranges against its purpose: a multiset of (address,
length) pairs that registrations add to and deletions take from, and
that decides what may be mapped.

The loops pass over an entry only when it differs in address and in
length, so an entry that shares one of the two counts as a match. A
deletion then drops another object's range, and a mapping goes through
for a pair nobody registered. `CallOk` says exactly when that does not
show: the first match of a deletion must be the pair itself, and a pair
that some entry matches must be registered when it is mapped.
-/
import BxRnic.Kernel.Mmap
import BxRnic.Lib.Run
import Mathlib.Algebra.Order.Group.Multiset

namespace BxRnic.Kernel

open Run

-- ========================================================= the property

/-- A call does to the list what it should do to the multiset of
registered pairs, and a mapping goes through exactly for those. -/
def MmapCall.Kept (mmHead : List MmKey) : MmapCall → Prop
  | .add phyAddr len allocOk =>
      let (status, mmHead') := addMmap mmHead phyAddr len allocOk
      (mmHead' : Multiset MmKey)
        = if status = 0 then ⟨phyAddr, len⟩ ::ₘ mmHead else mmHead
  | .del phyAddr len =>
      (delMmap mmHead phyAddr len : Multiset MmKey)
        = (mmHead : Multiset MmKey).erase ⟨phyAddr, len⟩
  | .mmap ioaddr vma =>
      (∃ remap, bxroceMmap mmHead ioaddr vma = .ok remap)
        ↔ ⟨vma.phyAddr, vma.len⟩ ∈ (mmHead : Multiset MmKey)

-- ======================================================== the condition

/-- The condition on a call and the list it meets. -/
def MmapCall.Ok (mmHead : List MmKey) : MmapCall → Prop
  | .add _ _ _ => True
  | .del phyAddr len =>
      ∀ mm, mmHead.find? (mmMatches phyAddr len) = some mm →
        mm = ⟨phyAddr, len⟩
  | .mmap _ vma =>
      (∃ mm ∈ mmHead, mm.len = vma.len ∨ mm.phyAddr = vma.phyAddr) →
        ⟨vma.phyAddr, vma.len⟩ ∈ mmHead

-- ============================================================= the match

/-- What the test of the loops amounts to. -/
theorem mmMatches_iff {phyAddr len : U64} {mm : MmKey} :
    mmMatches phyAddr len mm = true
      ↔ mm.len = len ∨ mm.phyAddr = phyAddr := by
  unfold mmMatches
  rw [Bool.not_eq_true', Bool.and_eq_false_iff, decide_eq_false_iff_not,
    decide_eq_false_iff_not, not_not, not_not, eq_comm,
    eq_comm (b := mm.phyAddr)]

/-- The pair itself always matches. -/
theorem mmMatches_self (phyAddr len : U64) :
    mmMatches phyAddr len ⟨phyAddr, len⟩ = true :=
  mmMatches_iff.2 (Or.inl rfl)

theorem findMmap_iff {mmHead : List MmKey} {phyAddr len : U64} :
    findMmap mmHead phyAddr len = true
      ↔ ∃ mm ∈ mmHead, mm.len = len ∨ mm.phyAddr = phyAddr := by
  simp only [findMmap, List.any_eq_true, mmMatches_iff]

/-- The handler maps exactly what the search finds. -/
theorem bxroceMmap_ok_iff {mmHead : List MmKey} {ioaddr : U64}
    {vma : VmArea} :
    (∃ remap, bxroceMmap mmHead ioaddr vma = .ok remap)
      ↔ findMmap mmHead vma.phyAddr vma.len = true := by
  unfold bxroceMmap
  simp only [vma.aligned, ne_eq, not_true_eq_false, if_false]
  cases hfind : findMmap mmHead vma.phyAddr vma.len with
  | false => simp
  | true =>
      simp only [Bool.true_eq_false, if_false, iff_true]
      split
      · exact ⟨_, rfl⟩
      · exact ⟨_, rfl⟩

-- ============================================================ one call

/-- Taking `b` out of a multiset with `a` on top leaves the rest iff `b`
is `a`: otherwise `a` is counted once too often. -/
private theorem eq_cons_erase_iff {a b : MmKey} {rest : Multiset MmKey} :
    rest = (a ::ₘ rest).erase b ↔ a = b := by
  constructor
  · intro h
    by_contra hne
    have hcount := congrArg (Multiset.count a) h
    rw [Multiset.count_erase_of_ne hne, Multiset.count_cons_self] at hcount
    omega
  · intro h
    rw [h, Multiset.erase_cons_head]

/-- A deletion takes the pair out, and nothing else, iff its first match
is the pair. -/
private theorem delMmap_exact (mmHead : List MmKey) (phyAddr len : U64) :
    (delMmap mmHead phyAddr len : Multiset MmKey)
        = (mmHead : Multiset MmKey).erase ⟨phyAddr, len⟩
      ↔ ∀ mm, mmHead.find? (mmMatches phyAddr len) = some mm →
          mm = ⟨phyAddr, len⟩ := by
  unfold delMmap
  cases hfind : mmHead.find? (mmMatches phyAddr len) with
  | none =>
      -- no match: the pair is not there, and nothing goes
      have hnone := List.find?_eq_none.1 hfind
      have hmem : (⟨phyAddr, len⟩ : MmKey) ∉ (mmHead : Multiset MmKey) :=
        fun h => hnone _ h (mmMatches_self phyAddr len)
      rw [List.eraseP_of_forall_not fun a ha => hnone a ha,
        Multiset.erase_of_notMem hmem]
      simp
  | some mm =>
      obtain ⟨hmatch, pre, suf, hsplit, hpre⟩ :=
        List.find?_eq_some_iff_append.1 hfind
      have herase : mmHead.eraseP (mmMatches phyAddr len) = pre ++ suf := by
        rw [hsplit, List.eraseP_append_right _ fun a ha => by
          simpa using hpre a ha, List.eraseP_cons_of_pos hmatch]
      -- the list is the first match on top of what is left
      have hcons : (mmHead : Multiset MmKey)
          = mm ::ₘ (mmHead.eraseP (mmMatches phyAddr len) : List MmKey) := by
        rw [herase, hsplit, Multiset.cons_coe, Multiset.coe_eq_coe]
        exact List.perm_middle
      rw [hcons, eq_cons_erase_iff]
      simp

/-- The step lemma: a call keeps to the registered pairs exactly when it
meets `MmapCall.Ok`. -/
theorem kept_iff_ok (mmHead : List MmKey) (c : MmapCall) :
    c.Kept mmHead ↔ c.Ok mmHead := by
  cases c with
  | add phyAddr len allocOk =>
      refine iff_of_true ?_ trivial
      unfold MmapCall.Kept addMmap
      cases allocOk with
      | false => simp [ENOMEM]
      | true =>
          simp only [if_true]
          rw [← Multiset.coe_add, Multiset.coe_singleton,
            ← Multiset.singleton_add, add_comm]
  | del phyAddr len => exact delMmap_exact mmHead phyAddr len
  | mmap ioaddr vma =>
      simp only [MmapCall.Kept, MmapCall.Ok]
      rw [bxroceMmap_ok_iff, findMmap_iff, Multiset.mem_coe]
      constructor
      · exact fun h => h.1
      · intro h
        exact ⟨h, fun hmem => ⟨_, hmem, Or.inl rfl⟩⟩

-- ================================================================= runs

/-- Over a run of registrations, deletions and mappings on a context,
the list holds the registered pairs and mappings go through exactly for
those iff every call meets `MmapCall.Ok` where it is made. -/
theorem mmap_kept_iff (mmHead : List MmKey) (calls : List MmapCall) :
    Each MmapCall.step (fun l c => c.Kept l) mmHead calls
      ↔ Each MmapCall.step (fun l c => c.Ok l) mmHead calls :=
  each_congr kept_iff_ok

/-- Two objects with pages of one length: deleting the second drops the
first, and then the deleted range can still be mapped. -/
theorem delete_drops_other_range :
    let vma : VmArea :=
      { vmStart := 0x7f0000000000, vmEnd := 0x7f0000001000,
        vmPgoff := 0x2000, aligned := by decide }
    let calls : List MmapCall :=
      [.add 0x1000000 0x1000 true, .add 0x2000000 0x1000 true,
        .del 0x2000000 0x1000, .mmap 0xf0000000 vma]
    exec MmapCall.step [] calls = [⟨0x2000000, 0x1000⟩]
      ∧ ¬ Each MmapCall.step (fun l c => c.Kept l) [] calls := by
  intro vma calls
  refine ⟨by decide +kernel, fun h => ?_⟩
  have hdel := h.2.2.1
  simp only [MmapCall.Kept] at hdel
  exact absurd hdel (by decide +kernel)

end BxRnic.Kernel
