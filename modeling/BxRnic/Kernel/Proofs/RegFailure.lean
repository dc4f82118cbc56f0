/-
What a registration of user memory that fails leaves behind.

Three parties free its resources. They agree at every failure but two:
a request that cannot be copied is answered without any of them, and when
there is no memory for `mr->map`, `bxroce_mem_init_user` unpins the pages
that `bxroce_mem_cleanup` unpins again.
-/
import BxRnic.Kernel.MrMap

namespace BxRnic.Kernel

-- ================================================================= loops

section Loops

variable {mapOk : Nat → Bool}

/-- The blocks from `i` on, `left` of them. -/
def blocks (i left : Nat) : List MrResource :=
  (List.range' i left).map .map

theorem freeBelow_eq (i : Nat) (l : Ledger MrResource) :
    ∃ freed : List MrResource, freed.Perm (blocks 0 i)
      ∧ freeBelow i l = { l with released := l.released ++ freed } := by
  induction i generalizing l with
  | zero =>
    refine ⟨[], List.Perm.refl _, ?_⟩
    rw [List.append_nil]
    rfl
  | succ i ih =>
    obtain ⟨freed, hperm, heq⟩ := ih (l.release (.map i))
    refine ⟨.map i :: freed, ?_, ?_⟩
    · have hsplit : blocks 0 (i + 1) = blocks 0 i ++ [.map i] := by
        rw [blocks, List.range'_concat, List.map_append, Nat.zero_add,
          Nat.one_mul]
        rfl
      rw [hsplit]
      exact (hperm.cons _).trans (List.perm_append_singleton _ _).symm
    · rw [freeBelow, heq, Ledger.released_release, List.append_assoc]
      rfl

theorem freeMaps_eq (left i : Nat) (l : Ledger MrResource) :
    freeMaps left i l
      = { l with released := l.released ++ blocks i left } := by
  induction left generalizing i l with
  | zero =>
    rw [blocks, List.range'_zero, List.map_nil, List.append_nil]
    rfl
  | succ left ih =>
    rw [freeMaps, ih, Ledger.released_release, List.append_assoc]
    rfl

/-- Every block is had. -/
theorem allocMaps_all (left i : Nat) (l : Ledger MrResource)
    (hok : ∀ k, i ≤ k → k < i + left → mapOk k = true) :
    allocMaps mapOk left i l
      = ({ l with acquired := l.acquired ++ blocks i left }, none) := by
  induction left generalizing i l with
  | zero =>
    rw [blocks, List.range'_zero, List.map_nil, List.append_nil]
    rfl
  | succ left ih =>
    rw [allocMaps, if_pos (hok i (Nat.le_refl i) (by omega)),
      ih _ _ fun k hlo hhi => hok k (by omega) (by omega),
      Ledger.acquired_acquire, List.append_assoc]
    rfl

/-- A block is refused; those before it are had. -/
theorem allocMaps_refused {left i : Nat} (l : Ledger MrResource)
    (hbad : ∃ k, i ≤ k ∧ k < i + left ∧ mapOk k = false) :
    ∃ n, i ≤ n ∧ allocMaps mapOk left i l
      = ({ l with acquired := l.acquired ++ blocks i (n - i) }, some n) := by
  induction left generalizing i l with
  | zero =>
    obtain ⟨k, hlo, hhi, -⟩ := hbad
    omega
  | succ left ih =>
    rw [allocMaps]
    cases hi : mapOk i with
    | false =>
      refine ⟨i, Nat.le_refl i, ?_⟩
      rw [if_neg Bool.false_ne_true, Nat.sub_self, blocks,
        List.range'_zero, List.map_nil, List.append_nil]
    | true =>
      obtain ⟨k, hlo, hhi, hk⟩ := hbad
      have hne : i ≠ k := by
        rintro rfl
        rw [hi] at hk
        cases hk
      obtain ⟨n, hn, heq⟩ := ih (i := i + 1) (l.acquire (.map i))
        ⟨k, by omega, by omega, hk⟩
      refine ⟨n, by omega, ?_⟩
      have hsucc : n - i = (n - (i + 1)) + 1 := by omega
      rw [if_pos rfl, heq, Ledger.acquired_acquire, List.append_assoc,
        hsucc]
      rfl

end Loops

-- ============================================================ a failure

section Failure

variable {env : RegEnv}

/-- There is memory for the list of so many buffers. -/
def RegEnv.MapsOk (env : RegEnv) (nmap : Nat) : Prop :=
  env.arrayOk = true ∧ ∀ i, i < numMap nmap → env.mapOk i = true

/-- `bxroce_mem_alloc` with memory for everything. -/
theorem memAlloc_ok {n : Nat} (hmaps : env.MapsOk n)
    (l : Ledger MrResource) (mr : MrHeld) :
    memAlloc env n l mr
      = (0, { l with acquired := l.acquired
          ++ .mapArray :: blocks 0 (numMap n) },
        { mr with map := true, numMap := numMap n }) := by
  have hloop := allocMaps_all (numMap n) 0 (l.acquire .mapArray)
    fun k _ hk => hmaps.2 k (by omega)
  rw [memAlloc, hmaps.1, if_neg Bool.true_eq_false.mp]
  dsimp only
  rw [hloop, Ledger.acquired_acquire, List.append_assoc]
  rfl

/-- `bxroce_mem_alloc` without: it frees what it has got, and leaves the
array in `mr` if it had one. -/
theorem memAlloc_refused {n : Nat} (hmaps : ¬ env.MapsOk n)
    (l : Ledger MrResource) (mr : MrHeld) :
    ∃ taken freed map,
      memAlloc env n l mr
        = (-ENOMEM, ⟨l.acquired ++ taken, l.released ++ freed⟩,
          { mr with map := map })
      ∧ freed.Perm taken ∧ .umem ∉ taken := by
  rw [memAlloc]
  cases harray : env.arrayOk with
  | false =>
    refine ⟨[], [], false, ?_, List.Perm.refl _, List.not_mem_nil⟩
    rw [if_pos rfl, List.append_nil, List.append_nil]
  | true =>
    have hbad : ∃ k, 0 ≤ k ∧ k < 0 + numMap n ∧ env.mapOk k = false := by
      by_contra hnone
      refine hmaps ⟨harray, fun i hi => Bool.of_not_eq_false fun hk => ?_⟩
      exact hnone ⟨i, Nat.zero_le i, by omega, hk⟩
    obtain ⟨k, -, hloop⟩ := allocMaps_refused (l.acquire .mapArray) hbad
    obtain ⟨freed, hperm, hfreed⟩ := freeBelow_eq k
      { l.acquire .mapArray with
        acquired := (l.acquire .mapArray).acquired ++ blocks 0 (k - 0) }
    refine ⟨.mapArray :: blocks 0 k, freed ++ [.mapArray], true, ?_, ?_,
      ?_⟩
    · rw [if_neg Bool.true_eq_false.mp]
      dsimp only
      rw [hloop]
      dsimp only
      rw [hfreed, Ledger.acquired_acquire, List.append_assoc]
      simp only [Ledger.release, Ledger.acquire, List.append_assoc]
      rfl
    · exact (List.perm_append_singleton _ _).trans (hperm.cons _)
    · intro hmem
      cases List.mem_cons.1 hmem with
      | inl heq => cases heq
      | inr hblock =>
        obtain ⟨i, -, hi⟩ := List.mem_map.1 hblock
        cases hi

/-- The ledger of a registration once it has its element, its index and
its reference. -/
def begun : Ledger MrResource := ⟨[.elem, .index, .pdRef], []⟩

/-- The outcome from there on. -/
theorem regUserMr_begun (helem : env.elemOk = true)
    (hrequest : env.udata = true → env.requestOk = true) :
    regUserMr env = match memInitUserHeld env begun .zero with
      | (status, l, mr) =>
          if status ≠ 0 then
            (status, (memCleanup ((l.release .pdRef).release .index)
              mr).release .elem)
          else (0, l) := by
  have hgo : ¬ (env.udata = true ∧ env.requestOk = false) := by
    rintro ⟨hudata, hbad⟩
    rw [hrequest hudata] at hbad
    cases hbad
  rw [regUserMr, helem, if_neg Bool.true_eq_false.mp, if_neg hgo]
  rfl

/-- Without memory for the list the pages are unpinned twice. -/
theorem regUserMr_noMaps (helem : env.elemOk = true)
    (hrequest : env.udata = true → env.requestOk = true) {n : Nat}
    (hpinned : env.nmap = some n) (hmaps : ¬ env.MapsOk n) :
    ¬ (regUserMr env).2.Closed := by
  obtain ⟨taken, freed, map, halloc, hperm, humem⟩ :=
    memAlloc_refused hmaps (begun.acquire .umem) { MrHeld.zero with
      umem := true }
  have hnone : freed.count .umem = 0 :=
    List.count_eq_zero.2 fun hmem => humem (hperm.mem_iff.1 hmem)
  have htaken : taken.count .umem = 0 := List.count_eq_zero.2 humem
  have hout : (regUserMr env).2
      = ⟨[.elem, .index, .pdRef, .umem] ++ taken,
        freed ++ [.umem, .pdRef, .index, .umem]
          ++ (if map then [.mapArray] else []) ++ [.elem]⟩ := by
    rw [regUserMr_begun helem hrequest, memInitUserHeld, hpinned]
    dsimp only
    rw [halloc]
    cases map <;> simp [begun, memCleanup, Ledger.release, Ledger.acquire,
      freeMaps, MrHeld.zero, ENOMEM]
  rw [hout]
  intro hclosed
  have hcount := hclosed.count .umem
  cases map <;> simp [hnone, htaken] at hcount

theorem memInitUserHeld_maps {n : Nat} (hpinned : env.nmap = some n)
    (hmaps : env.MapsOk n) (l : Ledger MrResource) :
    memInitUserHeld env l .zero
      = (if env.udata = true ∧ env.copyOk = false then -EINVAL else 0,
        { l with acquired := l.acquired
          ++ .umem :: .mapArray :: blocks 0 (numMap n) },
        ⟨true, true, numMap n⟩) := by
  rw [memInitUserHeld, hpinned]
  dsimp only
  rw [memAlloc_ok hmaps, Ledger.acquired_acquire, List.append_assoc]
  dsimp only
  rw [if_neg (not_not.2 rfl)]
  split
  · rfl
  · rfl

/-- With memory for the list only the answer can still fail, and all is
released. -/
theorem regUserMr_maps (helem : env.elemOk = true)
    (hrequest : env.udata = true → env.requestOk = true)
    (hmaps : ∀ n, env.nmap = some n → env.MapsOk n)
    (hfails : (regUserMr env).1 ≠ 0) : (regUserMr env).2.Closed := by
  rw [regUserMr_begun helem hrequest] at hfails ⊢
  cases hpinned : env.nmap with
  | none =>
    rw [memInitUserHeld, hpinned]
    exact List.reverse_perm [MrResource.elem, .index, .pdRef]
  | some n =>
    rw [memInitUserHeld_maps hpinned (hmaps n hpinned)] at hfails ⊢
    by_cases hcopy : env.udata = true ∧ env.copyOk = false
    · rw [if_pos hcopy]
      dsimp only
      rw [if_pos (by decide), memCleanup, if_pos rfl, if_pos rfl,
        freeMaps_eq]
      refine List.perm_iff_count.2 fun a => ?_
      simp only [begun, Ledger.release, List.count_append,
        List.count_cons, List.count_nil]
      omega
    · rw [if_neg hcopy] at hfails
      exact absurd rfl hfails

/-- Exactly which failures of a registration release everything once. -/
theorem regUserMr_closed_iff (hfails : (regUserMr env).1 ≠ 0) :
    (regUserMr env).2.Closed
      ↔ (env.elemOk = false
        ∨ ((env.udata = true → env.requestOk = true)
          ∧ ∀ n, env.nmap = some n → env.MapsOk n)) := by
  cases helem : env.elemOk with
  | false =>
    refine iff_of_true ?_ (Or.inl rfl)
    rw [regUserMr, helem, if_pos rfl]
    exact Ledger.closed_empty
  | true =>
    by_cases hrequest : env.udata = true → env.requestOk = true
    · by_cases hmaps : ∀ n, env.nmap = some n → env.MapsOk n
      · exact iff_of_true (regUserMr_maps helem hrequest hmaps hfails)
          (Or.inr ⟨hrequest, hmaps⟩)
      · refine iff_of_false ?_ ?_
        · obtain ⟨n, hn⟩ := not_forall.1 hmaps
          obtain ⟨hpinned, hbad⟩ := Classical.not_imp.1 hn
          exact regUserMr_noMaps helem hrequest hpinned hbad
        · rintro (hfalse | ⟨-, hall⟩)
          · cases hfalse
          · exact hmaps hall
    · obtain ⟨hudata, hbad⟩ := Classical.not_imp.1 hrequest
      refine iff_of_false ?_ ?_
      · rw [regUserMr, helem, if_neg Bool.true_eq_false.mp,
          if_pos ⟨hudata, Bool.of_not_eq_true hbad⟩]
        exact Ledger.not_closed_held List.mem_cons_self List.not_mem_nil
      · rintro (hfalse | ⟨hgo, -⟩)
        · cases hfalse
        · exact hrequest hgo

/-- Whatever the kernel answers to a registration of two pages, but one
thing. -/
def twoPages : RegEnv where
  elemOk := true
  udata := true
  requestOk := true
  nmap := some 2
  arrayOk := true
  mapOk _ := true
  copyOk := true

theorem regUserMr_closed_copy :
    (regUserMr { twoPages with copyOk := false }).2.Closed :=
  (regUserMr_closed_iff (by decide)).2
    (Or.inr ⟨fun _ => rfl, fun _ _ => ⟨rfl, fun _ _ => rfl⟩⟩)

/-- A request that cannot be copied leaves the element; no memory for the
array unpins the pages twice. -/
theorem failed_registration_unbalanced :
    (regUserMr { twoPages with requestOk := false }).1 = -EFAULT
      ∧ ¬ (regUserMr { twoPages with requestOk := false }).2.Closed
      ∧ (regUserMr { twoPages with arrayOk := false }).1 = -ENOMEM
      ∧ ¬ (regUserMr { twoPages with arrayOk := false }).2.Closed := by
  decide

end Failure

end BxRnic.Kernel
