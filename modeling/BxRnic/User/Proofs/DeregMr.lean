/-
What a deregistration does to the list of regions.

The element goes before the kernel is asked. So the list is right at the
end exactly if the kernel agrees; and the search has to find an element
at all (`dereg_right_iff`).
-/
import BxRnic.User.DeregMr

namespace BxRnic.User

variable {env : DeregEnv} {dev : MrStores} {vmr : Nat}

/-- An element of the list leads to the region. -/
def MrStores.Lists (dev : MrStores) (vmr : Nat) : Prop :=
  ∃ e ∈ dev.mrList, e.vmr = vmr

/-- Of the list and of what it holds, the region's element is gone and
nothing else. -/
def MrStores.Unlisted (dev dev' : MrStores) (vmr : Nat) : Prop :=
  ∃ xs e ys, dev.mrList = xs ++ e :: ys ∧ e.vmr = vmr
    ∧ (∀ e' ∈ xs, e'.vmr ≠ vmr) ∧ dev'.mrList = xs ++ ys
    ∧ dev'.freed = dev.freed ++ [.sginfo e.addr, .elem e.addr, .vmr vmr]

/-- How a deregistration should end. Where the kernel refuses, nothing
happens to the list and its tables; where all goes well, the region's
element is gone; and the call never goes on with a cursor that is no
element. -/
def Dereg.Right (env : DeregEnv) (dev : MrStores) (vmr : Nat) :
    Dereg → Prop
  | .returns ret dev' =>
      (env.kernelRet ≠ 0 → dev'.mrList = dev.mrList
        ∧ dev'.freed = dev.freed)
      ∧ (ret = 0 → dev.Unlisted dev' vmr)
  | .wild => False

/-- The element found is the first of the region's, and the one that
goes. -/
theorem split_of_find? {l : List MrElem} {e : MrElem}
    (h : l.find? (isMr vmr) = some e) :
    ∃ xs ys, l = xs ++ e :: ys ∧ e.vmr = vmr ∧ (∀ e' ∈ xs, e'.vmr ≠ vmr)
      ∧ l.eraseP (isMr vmr) = xs ++ ys := by
  obtain ⟨hpass, xs, ys, heq, hbefore⟩ := List.find?_eq_some_iff_append.1 h
  have hskip : ∀ e' ∈ xs, ¬ isMr vmr e' = true := fun e' he' => by
    have hnot := hbefore e' he'
    rw [Bool.not_eq_true'] at hnot
    rw [hnot]
    exact Bool.false_ne_true
  refine ⟨xs, ys, heq, of_decide_eq_true hpass, fun e' he' hvmr => ?_, ?_⟩
  · exact hskip e' he' (decide_eq_true hvmr)
  · rw [heq, List.eraseP_append_right _ hskip,
      List.eraseP_cons_of_pos hpass]

theorem find?_none_iff :
    dev.mrList.find? (isMr vmr) = none ↔ ¬ dev.Lists vmr := by
  rw [List.find?_eq_none]
  constructor
  · rintro hnone ⟨e, he, hvmr⟩
    exact hnone e he (decide_eq_true hvmr)
  · intro hnot e he hpass
    exact hnot ⟨e, he, of_decide_eq_true hpass⟩

/-- Exactly when a deregistration ends as it should. -/
theorem dereg_right_iff (env : DeregEnv) (dev : MrStores) (vmr : Nat) :
    (deregMr env dev vmr).Right env dev vmr
      ↔ dev.Lists vmr ∧ env.kernelRet = 0 := by
  unfold deregMr
  cases hfind : dev.mrList.find? (isMr vmr) with
  | none =>
    exact iff_of_false not_false fun hboth =>
      find?_none_iff.1 hfind hboth.1
  | some e =>
    obtain ⟨xs, ys, hlist, hvmr, hbefore, herase⟩ := split_of_find? hfind
    have hlists : dev.Lists vmr := by
      refine ⟨e, ?_, hvmr⟩
      rw [hlist]
      exact List.mem_append_right _ List.mem_cons_self
    dsimp only
    by_cases hkernel : env.kernelRet = 0
    · rw [if_neg (not_not_intro hkernel)]
      refine iff_of_true ?_ ⟨hlists, hkernel⟩
      by_cases hserver : deregMrinfo env.readRet = 0
      · rw [if_neg (not_not_intro hserver)]
        refine ⟨fun hrefused => absurd hkernel hrefused, fun _ => ?_⟩
        refine ⟨xs, e, ys, hlist, hvmr, hbefore, herase, ?_⟩
        exact List.append_assoc _ _ _
      · rw [if_pos hserver]
        exact ⟨fun hrefused => absurd hkernel hrefused,
          fun hzero => absurd hzero hserver⟩
    · rw [if_pos hkernel]
      refine iff_of_false ?_ fun hboth => hkernel hboth.2
      rintro ⟨hsame, -⟩
      -- the element is gone all the same
      have hlength := congrArg List.length (hsame hkernel).2
      rw [List.length_append] at hlength
      exact absurd hlength (Nat.ne_of_gt (Nat.lt_add_of_pos_right
        (Nat.succ_pos 1)))

/-- A region the registration has listed is found again; one of more than
256 segments is not, unless it was there before. -/
theorem dereg_listed_iff (env : DeregEnv) (dev : MrStores) (e : MrElem)
    (numSg : Nat) :
    (deregMr env (listMr e numSg dev) e.vmr).Right env
        (listMr e numSg dev) e.vmr
      ↔ (numSg ≤ 256 ∨ dev.Lists e.vmr) ∧ env.kernelRet = 0 := by
  rw [dereg_right_iff]
  refine and_congr_left fun _ => ?_
  unfold listMr
  by_cases hfits : numSg ≤ 256
  · rw [if_pos hfits]
    refine iff_of_true ⟨e, ?_, rfl⟩ (Or.inl hfits)
    exact List.mem_append_right _ List.mem_cons_self
  · rw [if_neg hfits]
    exact ⟨Or.inr, fun hor => hor.resolve_left hfits⟩

/-- One region, registered. -/
def oneMr : MrStores where
  mrList := [⟨0x10, 0x20, ⟨0x1000, 0x1000, 0, 0x7000⟩⟩]
  registered := [0x20]
  requests := []
  freed := []

/-- The kernel refuses: the region stays registered, but its addresses
are translated no more. Called again, the search finds nothing. -/
theorem refused_mr_unlisted :
    let env : DeregEnv := ⟨1, 16, 0⟩
    ∃ dev', deregMr env oneMr 0x20 = .returns 16 dev'
      ∧ ¬ (Dereg.returns 16 dev').Right env oneMr 0x20
      ∧ dev'.registered = [0x20]
      ∧ localDmaAddr (oneMr.mrList.map (·.info)) 0x1000 = some 0x7000
      ∧ localDmaAddr (dev'.mrList.map (·.info)) 0x1000 = none
      ∧ deregMr env dev' 0x20 = .wild := by
  refine ⟨⟨[], [0x20], [], [.sginfo 0x10, .elem 0x10]⟩, rfl, ?_, rfl,
    by decide, rfl, rfl⟩
  rintro ⟨hsame, -⟩
  cases (hsame (by decide)).2

end BxRnic.User
