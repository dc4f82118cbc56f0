/-
Pages that are cut into slices, and who unmaps a page.

# The pool

A `SlicePool` cuts slices off the front of pages. Each key keeps the
page it is cutting from, its leftover. A slice goes into a slot; when
the page has no room for another slice of the same length, the slot
that took the last one becomes the page's owner, and the key forgets
the page. Releasing a slot gives its slice back; releasing an owner
unmaps the page.

# What holds whatever is cut and released

`SlicePool.Kept` is what every operation keeps: the slices of a page
are apart, and each page is in one of three stages (`Stage`): it is a
leftover, or it has an owner, or it was unmapped once, with its last
slice. `Kept.count_unmapped` reads the last part off.

That a slice lies inside its page is another matter. It is so while
every leftover has room for one more slice (`Fits`), and cutting keeps
that for the length it cuts; a length that changes may not.

A slice that is held still has its page mapped when the slices of a
page are released in the order they were cut in (`Fifo`).
-/
import Mathlib.Logic.Function.Basic
import Mathlib.Data.List.Basic
import Mathlib.Data.List.Pairwise
import Mathlib.Data.List.Count

namespace BxRnic

/-- A slice: the page it is of, where it starts and how long it is. -/
structure Slice where
  page : Nat
  off : Nat
  len : Nat
deriving DecidableEq

/-- Two slices of one page do not overlap. -/
def Slice.Apart (c d : Slice) : Prop :=
  c.page = d.page → c.off + c.len ≤ d.off ∨ d.off + d.len ≤ c.off

instance Slice.Apart.symm : Std.Symm Slice.Apart where
  symm _ _ h heq := (h heq.symm).symm

/-- A slice starts where an earlier one of its page has ended. -/
def Slice.After (later c : Slice) : Prop :=
  later.page = c.page → c.off + c.len ≤ later.off

/-- A page that is being cut, and how much of it is used up. -/
structure Leftover where
  page : Nat
  size : Nat
  used : Nat
deriving DecidableEq

/-- The pages, the slices and the slots that hold them. The three logs
are kept latest first. -/
@[ext]
structure SlicePool (κ σ : Type*) where
  /-- The sizes of the pages there have been. -/
  sizes : List Nat
  left : κ → Option Leftover
  /-- The slice of a slot, and whether the slot owns the page. -/
  held : σ → Option (Slice × Bool)
  cuts : List Slice
  released : List Slice
  unmapped : List Nat

namespace SlicePool

variable {κ σ : Type*}

/-- Nothing has been cut from anything. -/
def empty : SlicePool κ σ :=
  ⟨[], fun _ => none, fun _ => none, [], [], []⟩

/-- The slice cut last from a page. -/
def lastCut (pool : SlicePool κ σ) (page : Nat) : Option Slice :=
  pool.cuts.find? fun c => c.page = page

/-- The page is the leftover of some key. -/
def Open (pool : SlicePool κ σ) (page : Nat) : Prop :=
  ∃ k a, pool.left k = some a ∧ a.page = page

/-- The page is owned by some slot. -/
def Owned (pool : SlicePool κ σ) (page : Nat) : Prop :=
  ∃ s c, pool.held s = some (c, true) ∧ c.page = page

section Operations

variable [DecidableEq κ] [DecidableEq σ]

/-- A new page for a key. -/
def addPage (pool : SlicePool κ σ) (k : κ) (size : Nat) :
    SlicePool κ σ :=
  { pool with
    sizes := pool.sizes ++ [size]
    left := Function.update pool.left k
      (some ⟨pool.sizes.length, size, 0⟩) }

/-- A slice for a slot, from the leftover of a key. -/
def cut (pool : SlicePool κ σ) (k : κ) (s : σ) (len : Nat) :
    SlicePool κ σ :=
  match pool.left k with
  | none => pool
  | some a =>
      let c : Slice := ⟨a.page, a.used, len⟩
      let last := decide (a.size < a.used + len + len)
      { pool with
        left := Function.update pool.left k
          (if last then none else some { a with used := a.used + len })
        held := Function.update pool.held s (some (c, last))
        cuts := c :: pool.cuts }

/-- The slice of a slot is given back, and with an owner's its page. -/
def release (pool : SlicePool κ σ) (s : σ) : SlicePool κ σ :=
  match pool.held s with
  | none => pool
  | some (c, owner) =>
      { pool with
        held := Function.update pool.held s none
        released := c :: pool.released
        unmapped :=
          if owner then c.page :: pool.unmapped else pool.unmapped }

end Operations

-- ========================================================= the invariant

/-- What can have become of a page: it is a leftover, it has one owner,
which holds its last slice, or it was unmapped once, and its last slice
is back. -/
inductive Stage (pool : SlicePool κ σ) (page : Nat) : Prop
  | left (hopen : pool.Open page) (hfree : ¬ pool.Owned page)
      (hmapped : pool.unmapped.count page = 0)
  | owned (s : σ) (c : Slice) (hheld : pool.held s = some (c, true))
      (hlast : pool.lastCut page = some c)
      (honly : ∀ s' c', pool.held s' = some (c', true) →
        c'.page = page → s' = s)
      (hclosed : ¬ pool.Open page)
      (hmapped : pool.unmapped.count page = 0)
  | gone (c : Slice) (hlast : pool.lastCut page = some c)
      (hback : c ∈ pool.released) (hclosed : ¬ pool.Open page)
      (hfree : ¬ pool.Owned page)
      (honce : pool.unmapped.count page = 1)

/-- What every operation keeps. -/
structure Kept (pool : SlicePool κ σ) : Prop where
  left_size : ∀ k a, pool.left k = some a →
    pool.sizes[a.page]? = some a.size
  left_inj : ∀ k k' a b, pool.left k = some a → pool.left k' = some b →
    a.page = b.page → k = k'
  left_used : ∀ k a, pool.left k = some a → ∀ c ∈ pool.cuts,
    c.page = a.page → c.off + c.len ≤ a.used
  cut_page : ∀ c ∈ pool.cuts, c.page < pool.sizes.length
  cut_len : ∀ c ∈ pool.cuts, 0 < c.len
  after : pool.cuts.Pairwise Slice.After
  held_cut : ∀ s c own, pool.held s = some (c, own) → c ∈ pool.cuts
  held_out : ∀ s c own, pool.held s = some (c, own) → c ∉ pool.released
  held_inj : ∀ s s' c own own', pool.held s = some (c, own) →
    pool.held s' = some (c, own') → s = s'
  released_cut : ∀ c ∈ pool.released, c ∈ pool.cuts
  unmapped_page : ∀ page ∈ pool.unmapped, page < pool.sizes.length
  stage : ∀ page, page < pool.sizes.length → pool.Stage page

theorem kept_empty : (empty : SlicePool κ σ).Kept where
  left_size _ _ h := nomatch h
  left_inj _ _ _ _ h := nomatch h
  left_used _ _ h := nomatch h
  cut_page _ h := nomatch h
  cut_len _ h := nomatch h
  after := List.Pairwise.nil
  held_cut _ _ _ h := nomatch h
  held_out _ _ _ h := nomatch h
  held_inj _ _ _ _ _ h := nomatch h
  released_cut _ h := nomatch h
  unmapped_page _ h := nomatch h
  stage _ h := nomatch h

-- ================================================= what is read off of it

section Read

variable {pool : SlicePool κ σ}

theorem Kept.left_page (h : pool.Kept) {k : κ} {a : Leftover}
    (ha : pool.left k = some a) : a.page < pool.sizes.length :=
  (List.getElem?_eq_some_iff.1 (h.left_size k a ha)).1

theorem lastCut_page {page : Nat} {c : Slice}
    (h : pool.lastCut page = some c) : c.page = page := by
  simpa using List.find?_some h

/-- No slice of a page starts behind the last one. -/
theorem Kept.le_lastCut (h : pool.Kept) {page : Nat} {last c : Slice}
    (hlast : pool.lastCut page = some last) (hc : c ∈ pool.cuts)
    (hpage : c.page = page) : c.off ≤ last.off := by
  obtain ⟨hlastpage, newer, older, hcuts, hnewer⟩ :=
    List.find?_eq_some_iff_append.1 hlast
  have hafter := h.after
  rw [hcuts] at hafter hc
  rcases List.mem_append.1 hc with hnew | hold
  · have hother := hnewer c hnew
    simp [hpage] at hother
  · rcases List.mem_cons.1 hold with rfl | hold
    · exact Nat.le_refl _
    · have hpair := (List.pairwise_append.1 hafter).2.1
      have hle := (List.pairwise_cons.1 hpair).1 c hold
        ((lastCut_page hlast).trans hpage.symm)
      omega

/-- A page is unmapped once when it is no leftover and its last slice
is back, and not at all before. -/
theorem Kept.count_unmapped (h : pool.Kept) {page : Nat}
    (hpage : page < pool.sizes.length) :
    pool.unmapped.count page ≤ 1
      ∧ (pool.unmapped.count page = 1
        ↔ ¬ pool.Open page
          ∧ ∃ c ∈ pool.released, pool.lastCut page = some c) := by
  cases h.stage page hpage with
  | left hopen hfree hmapped =>
      rw [hmapped]
      refine ⟨Nat.zero_le 1, fun h01 => absurd h01 (by decide), ?_⟩
      rintro ⟨hclosed, -⟩
      exact absurd hopen hclosed
  | owned s c hheld hlast honly hclosed hmapped =>
      rw [hmapped]
      refine ⟨Nat.zero_le 1, fun h01 => absurd h01 (by decide), ?_⟩
      rintro ⟨-, c', hback, hlast'⟩
      obtain rfl : c = c' := Option.some.inj (hlast.symm.trans hlast')
      exact absurd hback (h.held_out s c true hheld)
  | gone c hlast hback hclosed hfree honce =>
      rw [honce]
      exact ⟨Nat.le_refl 1, fun _ => ⟨hclosed, c, hback, hlast⟩,
        fun _ => rfl⟩

/-- A page that was never there has not been unmapped. -/
theorem Kept.count_fresh (h : pool.Kept) :
    pool.unmapped.count pool.sizes.length = 0 := by
  refine List.count_eq_zero.2 fun hmem => ?_
  exact Nat.lt_irrefl _ (h.unmapped_page _ hmem)

/-- A page that was never there has no owner. -/
theorem Kept.not_owned_fresh (h : pool.Kept) :
    ¬ pool.Owned pool.sizes.length := by
  rintro ⟨s, c, hs, hpage⟩
  have hlt := h.cut_page c (h.held_cut s c true hs)
  omega

/-- A leftover has no owner and is mapped. -/
theorem Kept.of_open (h : pool.Kept) {page : Nat}
    (hopen : pool.Open page) :
    ¬ pool.Owned page ∧ pool.unmapped.count page = 0 := by
  obtain ⟨k, a, ha, rfl⟩ := hopen
  cases h.stage a.page (h.left_page ha) with
  | left _ hfree hmapped => exact ⟨hfree, hmapped⟩
  | owned _ _ _ _ _ hclosed _ => exact absurd ⟨k, a, ha, rfl⟩ hclosed
  | gone _ _ _ hclosed _ _ => exact absurd ⟨k, a, ha, rfl⟩ hclosed

/-- Every slice is cut where no slice of the page was. -/
theorem Kept.not_cut (h : pool.Kept) {k : κ} {a : Leftover} {len : Nat}
    (hk : pool.left k = some a) (hlen : 0 < len) : ⟨a.page, a.used, len⟩ ∉ pool.cuts := by
  intro hmem
  have hle := h.left_used k a hk _ hmem rfl
  simp only at hle
  omega

end Read

-- ================================================== the operations keep it

section AddPage

variable [DecidableEq κ] {pool : SlicePool κ σ} {k : κ} {size : Nat}

theorem addPage_left (pool : SlicePool κ σ) (k : κ) (size : Nat) :
    (pool.addPage k size).left
      = Function.update pool.left k (some ⟨pool.sizes.length, size, 0⟩) :=
  rfl

theorem addPage_held (pool : SlicePool κ σ) (k : κ) (size : Nat) :
    (pool.addPage k size).held = pool.held := rfl

/-- The leftovers after a page is added: the new one, and the old ones
of the other keys. -/
theorem addPage_left_cases {k' : κ} {a : Leftover}
    (ha : (pool.addPage k size).left k' = some a) :
    (k' = k ∧ a = ⟨pool.sizes.length, size, 0⟩)
      ∨ (k' ≠ k ∧ pool.left k' = some a) := by
  by_cases hk : k' = k
  · subst hk
    refine Or.inl ⟨rfl, ?_⟩
    simpa [addPage] using ha.symm
  · refine Or.inr ⟨hk, ?_⟩
    simpa [addPage, Function.update_of_ne hk] using ha

theorem addPage_open (hk : pool.left k = none) {page : Nat}
    (hpage : page ≠ pool.sizes.length) :
    (pool.addPage k size).Open page ↔ pool.Open page := by
  constructor
  · rintro ⟨k', a, ha, heq⟩
    rcases addPage_left_cases ha with ⟨-, rfl⟩ | ⟨-, hold⟩
    · exact absurd heq.symm hpage
    · exact ⟨k', a, hold, heq⟩
  · rintro ⟨k', a, ha, heq⟩
    have hne : k' ≠ k := by
      rintro rfl
      rw [hk] at ha
      exact absurd ha (by simp)
    refine ⟨k', a, ?_, heq⟩
    simpa [addPage, Function.update_of_ne hne] using ha

/-- A page is added for a key that has none. -/
theorem Kept.addPage (h : pool.Kept) (hk : pool.left k = none) :
    (pool.addPage k size).Kept where
  left_size k' a ha := by
    rcases addPage_left_cases ha with ⟨-, rfl⟩ | ⟨-, hold⟩
    · simp [SlicePool.addPage]
    · have hlt := h.left_page hold
      have hsize := h.left_size k' a hold
      simpa [SlicePool.addPage, List.getElem?_append_left hlt] using hsize
  left_inj k₁ k₂ a b ha hb heq := by
    rcases addPage_left_cases ha with ⟨rfl, rfl⟩ | ⟨-, hold⟩ <;>
    rcases addPage_left_cases hb with ⟨rfl, rfl⟩ | ⟨-, hold'⟩
    · rfl
    · have hlt := h.left_page hold'
      exact absurd heq.symm (Nat.ne_of_lt hlt)
    · have hlt := h.left_page hold
      exact absurd heq (Nat.ne_of_lt hlt)
    · exact h.left_inj k₁ k₂ a b hold hold' heq
  left_used k' a ha c hc heq := by
    rcases addPage_left_cases ha with ⟨-, rfl⟩ | ⟨-, hold⟩
    · have hlt := h.cut_page c hc
      exact absurd heq (Nat.ne_of_lt hlt)
    · exact h.left_used k' a hold c hc heq
  cut_page c hc := by
    have hlt := h.cut_page c hc
    simp [SlicePool.addPage]
    omega
  cut_len := h.cut_len
  after := h.after
  held_cut := h.held_cut
  held_out := h.held_out
  held_inj := h.held_inj
  released_cut := h.released_cut
  unmapped_page page hmem := by
    have hlt := h.unmapped_page page hmem
    simp [SlicePool.addPage]
    omega
  stage page hpage := by
    by_cases heq : page = pool.sizes.length
    · subst heq
      refine Stage.left ⟨k, ⟨pool.sizes.length, size, 0⟩, ?_, rfl⟩
        h.not_owned_fresh h.count_fresh
      simp [SlicePool.addPage]
    · have hlt : page < pool.sizes.length := by
        simp [SlicePool.addPage] at hpage
        omega
      have hopen : (pool.addPage k size).Open page ↔ pool.Open page :=
        addPage_open hk heq
      cases h.stage page hlt with
      | left hopen' hfree hmapped =>
          exact Stage.left (hopen.2 hopen') hfree hmapped
      | owned s c hheld hlast honly hclosed hmapped =>
          exact Stage.owned s c hheld hlast honly
            (fun ho => hclosed (hopen.1 ho)) hmapped
      | gone c hlast hback hclosed hfree honce =>
          exact Stage.gone c hlast hback
            (fun ho => hclosed (hopen.1 ho)) hfree honce

end AddPage

section Cut

variable [DecidableEq κ] [DecidableEq σ] {pool : SlicePool κ σ}
  {k : κ} {s : σ} {a : Leftover} {len : Nat}

theorem cut_left (hk : pool.left k = some a) :
    (pool.cut k s len).left = Function.update pool.left k
      (if a.size < a.used + len + len then none
        else some { a with used := a.used + len }) := by
  simp only [cut, hk, decide_eq_true_eq]

theorem cut_held (hk : pool.left k = some a) :
    (pool.cut k s len).held = Function.update pool.held s
      (some (⟨a.page, a.used, len⟩,
        decide (a.size < a.used + len + len))) := by
  simp only [cut, hk]

/-- Cutting does not change the other logs. -/
theorem cut_logs (s : σ) (len : Nat) (hk : pool.left k = some a) :
    (pool.cut k s len).sizes = pool.sizes
      ∧ (pool.cut k s len).released = pool.released
      ∧ (pool.cut k s len).unmapped = pool.unmapped := by
  simp only [cut, hk, and_self]

theorem cut_held_cases (hk : pool.left k = some a) {s' : σ} {c : Slice}
    {own : Bool} (hs' : (pool.cut k s len).held s' = some (c, own)) :
    (s' = s ∧ c = ⟨a.page, a.used, len⟩
        ∧ own = decide (a.size < a.used + len + len))
      ∨ (s' ≠ s ∧ pool.held s' = some (c, own)) := by
  rw [cut_held hk] at hs'
  by_cases heq : s' = s
  · subst heq
    rw [Function.update_self, Option.some.injEq, Prod.mk.injEq] at hs'
    exact Or.inl ⟨rfl, hs'.1.symm, hs'.2.symm⟩
  · rw [Function.update_of_ne heq] at hs'
    exact Or.inr ⟨heq, hs'⟩

theorem cut_left_cases (hk : pool.left k = some a) {k' : κ}
    {b : Leftover} (hb : (pool.cut k s len).left k' = some b) :
    (k' = k ∧ a.used + len + len ≤ a.size
        ∧ b = { a with used := a.used + len })
      ∨ (k' ≠ k ∧ pool.left k' = some b) := by
  rw [cut_left hk] at hb
  by_cases heq : k' = k
  · subst heq
    rw [Function.update_self] at hb
    by_cases hlast : a.size < a.used + len + len
    · rw [if_pos hlast] at hb
      exact absurd hb (by simp)
    · rw [if_neg hlast] at hb
      exact Or.inl ⟨rfl, by omega, (Option.some.inj hb).symm⟩
  · rw [Function.update_of_ne heq] at hb
    exact Or.inr ⟨heq, hb⟩

theorem cut_cuts (hk : pool.left k = some a) :
    (pool.cut k s len).cuts = ⟨a.page, a.used, len⟩ :: pool.cuts := by
  simp only [cut, hk]

theorem cut_lastCut (hk : pool.left k = some a) (page : Nat) :
    (pool.cut k s len).lastCut page
      = if a.page = page then some ⟨a.page, a.used, len⟩
        else pool.lastCut page := by
  rw [lastCut, cut_cuts hk, List.find?_cons]
  by_cases heq : a.page = page
  · simp [heq]
  · simp [heq, lastCut]

/-- The cut page has an owner in the new slot, if in any. -/
theorem cut_owned (h : pool.Kept) (hk : pool.left k = some a)
    {s' : σ} {c : Slice}
    (hs' : (pool.cut k s len).held s' = some (c, true))
    (hpage : c.page = a.page) : s' = s := by
  rcases cut_held_cases hk hs' with ⟨rfl, -, -⟩ | ⟨-, hold⟩
  · rfl
  · have hfree := (h.of_open ⟨k, a, hk, rfl⟩).1
    exact absurd ⟨s', c, hold, hpage⟩ hfree

/-- The cut page is still a leftover when it has room for more. -/
theorem cut_open (h : pool.Kept) (hk : pool.left k = some a) :
    (pool.cut k s len).Open a.page ↔ a.used + len + len ≤ a.size := by
  constructor
  · rintro ⟨k', b, hb, hpage⟩
    rcases cut_left_cases hk hb with ⟨-, hroom, -⟩ | ⟨hne, hold⟩
    · exact hroom
    · exact absurd (h.left_inj k' k b a hold hk hpage) hne
  · intro hroom
    refine ⟨k, { a with used := a.used + len }, ?_, rfl⟩
    rw [cut_left hk, Function.update_self, if_neg (by omega)]

/-- The other pages are leftovers as they were. -/
theorem cut_open_of_ne (hk : pool.left k = some a) {page : Nat}
    (hne : page ≠ a.page) :
    (pool.cut k s len).Open page ↔ pool.Open page := by
  constructor
  · rintro ⟨k', b, hb, rfl⟩
    rcases cut_left_cases hk hb with ⟨-, -, rfl⟩ | ⟨-, hold⟩
    · exact absurd rfl hne
    · exact ⟨k', b, hold, rfl⟩
  · rintro ⟨k', b, hb, rfl⟩
    have hne' : k' ≠ k := by
      rintro rfl
      rw [hk, Option.some.injEq] at hb
      exact hne (by rw [hb])
    refine ⟨k', b, ?_, rfl⟩
    rw [cut_left hk, Function.update_of_ne hne', hb]

/-- The stage of the page that is cut. -/
theorem cut_stage (h : pool.Kept) (hk : pool.left k = some a) :
    (pool.cut k s len).Stage a.page := by
  have hunmapped : (pool.cut k s len).unmapped = pool.unmapped :=
    (cut_logs s len hk).2.2
  have hcount := (h.of_open ⟨k, a, hk, rfl⟩).2
  by_cases hroom : a.used + len + len ≤ a.size
  · refine Stage.left ((cut_open h hk).2 hroom) ?_ (by rw [hunmapped, hcount])
    rintro ⟨s', c, hs', hpage⟩
    obtain rfl := cut_owned h hk hs' hpage
    rcases cut_held_cases hk hs' with ⟨-, -, hown⟩ | ⟨hne, -⟩
    · have hlast : a.size < a.used + len + len :=
        of_decide_eq_true hown.symm
      omega
    · exact hne rfl
  · refine Stage.owned s ⟨a.page, a.used, len⟩ ?_ ?_ ?_
      (fun hopen => hroom ((cut_open h hk).1 hopen))
      (by rw [hunmapped, hcount])
    · rw [cut_held hk, Function.update_self, decide_eq_true (by omega)]
    · rw [cut_lastCut hk, if_pos rfl]
    · intro s' c' hs' hpage
      exact cut_owned h hk hs' hpage

/-- The stage of a page that is not cut. -/
theorem cut_stage_of_ne (hk : pool.left k = some a)
    (hs : pool.held s = none) {page : Nat} (hne : page ≠ a.page)
    (h : pool.Stage page) : (pool.cut k s len).Stage page := by
  have hunmapped : (pool.cut k s len).unmapped = pool.unmapped :=
    (cut_logs s len hk).2.2
  have hreleased : (pool.cut k s len).released = pool.released :=
    (cut_logs s len hk).2.1
  have hopen : (pool.cut k s len).Open page ↔ pool.Open page :=
    cut_open_of_ne hk hne
  have hlastCut : (pool.cut k s len).lastCut page = pool.lastCut page := by
    rw [cut_lastCut hk, if_neg (Ne.symm hne)]
  have hheld : ∀ s' c, c.page = page →
      (pool.cut k s len).held s' = some (c, true) →
      pool.held s' = some (c, true) := by
    intro s' c hpage hs'
    rcases cut_held_cases hk hs' with ⟨-, rfl, -⟩ | ⟨-, hold⟩
    · exact absurd hpage.symm hne
    · exact hold
  cases h with
  | left hopen' hfree hmapped =>
      refine Stage.left (hopen.2 hopen') ?_ (by rw [hunmapped, hmapped])
      rintro ⟨s', c, hs', hpage⟩
      exact hfree ⟨s', c, hheld s' c hpage hs', hpage⟩
  | owned s₀ c hs₀ hlast honly hclosed hmapped =>
      refine Stage.owned s₀ c ?_ (by rw [hlastCut, hlast]) ?_
        (fun ho => hclosed (hopen.1 ho)) (by rw [hunmapped, hmapped])
      · have hne₀ : s₀ ≠ s := by
          rintro rfl
          rw [hs] at hs₀
          exact absurd hs₀ (by simp)
        rw [cut_held hk, Function.update_of_ne hne₀, hs₀]
      · intro s' c' hs' hpage
        exact honly s' c' (hheld s' c' hpage hs') hpage
  | gone c hlast hback hclosed hfree honce =>
      refine Stage.gone c (by rw [hlastCut, hlast])
        (by rw [hreleased]; exact hback)
        (fun ho => hclosed (hopen.1 ho)) ?_ (by rw [hunmapped, honce])
      rintro ⟨s', c', hs', hpage⟩
      exact hfree ⟨s', c', hheld s' c' hpage hs', hpage⟩

/-- A slice is cut for a slot that has none. -/
theorem Kept.cut (h : pool.Kept) (hk : pool.left k = some a)
    (hs : pool.held s = none) (hlen : 0 < len) :
    (pool.cut k s len).Kept := by
  have hsizes : (pool.cut k s len).sizes = pool.sizes := (cut_logs s len hk).1
  have hreleased : (pool.cut k s len).released = pool.released :=
    (cut_logs s len hk).2.1
  have hunmapped : (pool.cut k s len).unmapped = pool.unmapped :=
    (cut_logs s len hk).2.2
  have hcuts : (pool.cut k s len).cuts
      = ⟨a.page, a.used, len⟩ :: pool.cuts := cut_cuts hk
  have hfresh := h.not_cut hk hlen
  refine ⟨?_, ?_, ?_, ?_, ?_, ?_, ?_, ?_, ?_, ?_, ?_, ?_⟩
  · intro k' b hb
    rw [hsizes]
    rcases cut_left_cases hk hb with ⟨-, -, rfl⟩ | ⟨-, hold⟩
    · exact h.left_size k a hk
    · exact h.left_size k' b hold
  · intro k₁ k₂ b₁ b₂ hb₁ hb₂ heq
    rcases cut_left_cases hk hb₁ with ⟨rfl, -, rfl⟩ | ⟨-, hold₁⟩ <;>
    rcases cut_left_cases hk hb₂ with ⟨rfl, -, rfl⟩ | ⟨-, hold₂⟩
    · rfl
    · exact h.left_inj _ k₂ a b₂ hk hold₂ heq
    · exact h.left_inj k₁ _ b₁ a hold₁ hk heq
    · exact h.left_inj k₁ k₂ b₁ b₂ hold₁ hold₂ heq
  · intro k' b hb c hc hpage
    rw [hcuts, List.mem_cons] at hc
    rcases cut_left_cases hk hb with ⟨-, -, rfl⟩ | ⟨hne, hold⟩
    · rcases hc with rfl | hc
      · exact Nat.le_refl _
      · have hle := h.left_used k a hk c hc hpage
        show c.off + c.len ≤ a.used + len
        omega
    · rcases hc with rfl | hc
      · exact absurd (h.left_inj k k' a b hk hold hpage).symm hne
      · exact h.left_used k' b hold c hc hpage
  · intro c hc
    rw [hcuts, List.mem_cons] at hc
    rw [hsizes]
    rcases hc with rfl | hc
    · exact h.left_page hk
    · exact h.cut_page c hc
  · intro c hc
    rw [hcuts, List.mem_cons] at hc
    rcases hc with rfl | hc
    · exact hlen
    · exact h.cut_len c hc
  · rw [hcuts, List.pairwise_cons]
    refine ⟨fun c hc heq => ?_, h.after⟩
    exact h.left_used k a hk c hc heq.symm
  · intro s' c own hs'
    rw [hcuts]
    rcases cut_held_cases hk hs' with ⟨-, rfl, -⟩ | ⟨-, hold⟩
    · exact List.mem_cons_self
    · exact List.mem_cons_of_mem _ (h.held_cut s' c own hold)
  · intro s' c own hs'
    rw [hreleased]
    rcases cut_held_cases hk hs' with ⟨-, rfl, -⟩ | ⟨-, hold⟩
    · exact fun hmem => hfresh (h.released_cut _ hmem)
    · exact h.held_out s' c own hold
  · intro s₁ s₂ c own₁ own₂ hs₁ hs₂
    rcases cut_held_cases hk hs₁ with ⟨rfl, rfl, -⟩ | ⟨-, hold₁⟩ <;>
    rcases cut_held_cases hk hs₂ with ⟨rfl, heq, -⟩ | ⟨-, hold₂⟩
    · rfl
    · exact absurd (h.held_cut s₂ _ own₂ hold₂) hfresh
    · rw [heq] at hold₁
      exact absurd (h.held_cut s₁ _ own₁ hold₁) hfresh
    · exact h.held_inj s₁ s₂ c own₁ own₂ hold₁ hold₂
  · intro c hc
    rw [hreleased] at hc
    rw [hcuts]
    exact List.mem_cons_of_mem _ (h.released_cut c hc)
  · intro page hpage
    rw [hunmapped] at hpage
    rw [hsizes]
    exact h.unmapped_page page hpage
  · intro page hpage
    rw [hsizes] at hpage
    by_cases heq : page = a.page
    · rw [heq]
      exact cut_stage h hk
    · exact cut_stage_of_ne hk hs heq (h.stage page hpage)

end Cut

section Release

variable [DecidableEq σ] {pool : SlicePool κ σ} {s : σ} {c : Slice}
  {own : Bool}

theorem release_of_none (hs : pool.held s = none) :
    pool.release s = pool := by
  simp only [release, hs]

theorem release_held (hs : pool.held s = some (c, own)) :
    (pool.release s).held = Function.update pool.held s none := by
  simp only [release, hs]

theorem release_held_cases (hs : pool.held s = some (c, own)) {s' : σ}
    {c' : Slice} {own' : Bool}
    (hs' : (pool.release s).held s' = some (c', own')) :
    s' ≠ s ∧ pool.held s' = some (c', own') := by
  rw [release_held hs] at hs'
  by_cases heq : s' = s
  · subst heq
    rw [Function.update_self] at hs'
    exact absurd hs' (by simp)
  · rw [Function.update_of_ne heq] at hs'
    exact ⟨heq, hs'⟩

theorem release_held_of_ne (hs : pool.held s = some (c, own)) {s' : σ}
    (hne : s' ≠ s) : (pool.release s).held s' = pool.held s' := by
  rw [release_held hs, Function.update_of_ne hne]

theorem release_released (hs : pool.held s = some (c, own)) :
    (pool.release s).released = c :: pool.released := by
  simp only [release, hs]

theorem release_left : (pool.release s).left = pool.left := by
  cases hs : pool.held s <;> simp only [release, hs]

theorem release_cuts : (pool.release s).cuts = pool.cuts := by
  cases hs : pool.held s <;> simp only [release, hs]

theorem release_sizes : (pool.release s).sizes = pool.sizes := by
  cases hs : pool.held s <;> simp only [release, hs]

theorem release_unmapped (hs : pool.held s = some (c, own)) :
    (pool.release s).unmapped
      = if own then c.page :: pool.unmapped else pool.unmapped := by
  simp only [release, hs]

/-- The page goes with its owner. -/
theorem release_stage (h : pool.Kept)
    (hs : pool.held s = some (c, true)) :
    (pool.release s).Stage c.page := by
  have hpage := h.cut_page c (h.held_cut s c true hs)
  cases h.stage c.page hpage with
  | left _ hfree _ => exact absurd ⟨s, c, hs, rfl⟩ hfree
  | gone _ _ _ _ hfree _ => exact absurd ⟨s, c, hs, rfl⟩ hfree
  | owned s₀ c₀ hs₀ hlast honly hclosed hmapped =>
      obtain rfl := honly s c hs rfl
      obtain rfl : c = c₀ := by
        rw [hs] at hs₀
        simpa using hs₀
      refine Stage.gone c ?_ ?_ ?_ ?_ ?_
      · rw [lastCut, release_cuts]
        exact hlast
      · rw [release_released hs]
        exact List.mem_cons_self
      · rintro ⟨k, a, ha, heq⟩
        rw [release_left] at ha
        exact hclosed ⟨k, a, ha, heq⟩
      · rintro ⟨s', c', hs', heq⟩
        obtain ⟨hne, hold⟩ := release_held_cases hs hs'
        exact hne (honly s' c' hold heq)
      · rw [release_unmapped hs, if_pos rfl, List.count_cons_self, hmapped]

/-- The other pages stay. -/
theorem release_stage_of_ne (hs : pool.held s = some (c, own))
    {page : Nat} (hne : own = true → page ≠ c.page)
    (h : pool.Stage page) : (pool.release s).Stage page := by
  have hcount : (pool.release s).unmapped.count page
      = pool.unmapped.count page := by
    rw [release_unmapped hs]
    by_cases hown : own = true
    · rw [if_pos hown, List.count_cons_of_ne (Ne.symm (hne hown))]
    · rw [if_neg hown]
  have hopen : (pool.release s).Open page ↔ pool.Open page := by
    rw [Open, release_left, Open]
  have hlastCut : (pool.release s).lastCut page = pool.lastCut page := by
    rw [lastCut, release_cuts, lastCut]
  have howned : (pool.release s).Owned page → pool.Owned page := by
    rintro ⟨s', c', hs', heq⟩
    exact ⟨s', c', (release_held_cases hs hs').2, heq⟩
  cases h with
  | left hopen' hfree hmapped =>
      exact Stage.left (hopen.2 hopen') (fun ho => hfree (howned ho))
        (by rw [hcount, hmapped])
  | owned s₀ c₀ hs₀ hlast honly hclosed hmapped =>
      have hne₀ : s₀ ≠ s := by
        rintro rfl
        rw [hs, Option.some.injEq, Prod.mk.injEq] at hs₀
        refine hne hs₀.2 ?_
        rw [hs₀.1, lastCut_page hlast]
      refine Stage.owned s₀ c₀ (by rw [release_held_of_ne hs hne₀, hs₀])
        (by rw [hlastCut, hlast]) ?_ (fun ho => hclosed (hopen.1 ho))
        (by rw [hcount, hmapped])
      intro s' c' hs' heq
      exact honly s' c' (release_held_cases hs hs').2 heq
  | gone c₀ hlast hback hclosed hfree honce =>
      refine Stage.gone c₀ (by rw [hlastCut, hlast]) ?_
        (fun ho => hclosed (hopen.1 ho)) (fun ho => hfree (howned ho))
        (by rw [hcount, honce])
      rw [release_released hs]
      exact List.mem_cons_of_mem _ hback

/-- A slot is released, whatever it holds. -/
theorem Kept.release (h : pool.Kept) : (pool.release s).Kept := by
  cases hs : pool.held s with
  | none =>
      rw [release_of_none hs]
      exact h
  | some held =>
      obtain ⟨c, own⟩ := held
      refine ⟨?_, ?_, ?_, ?_, ?_, ?_, ?_, ?_, ?_, ?_, ?_, ?_⟩
      · rw [release_left, release_sizes]
        exact h.left_size
      · rw [release_left]
        exact h.left_inj
      · rw [release_left, release_cuts]
        exact h.left_used
      · rw [release_cuts, release_sizes]
        exact h.cut_page
      · rw [release_cuts]
        exact h.cut_len
      · rw [release_cuts]
        exact h.after
      · intro s' c' own' hs'
        rw [release_cuts]
        exact h.held_cut s' c' own' (release_held_cases hs hs').2
      · intro s' c' own' hs'
        obtain ⟨hne, hold⟩ := release_held_cases hs hs'
        rw [release_released hs, List.mem_cons]
        rintro (rfl | hmem)
        · exact hne (h.held_inj s' s c' own' own hold hs)
        · exact h.held_out s' c' own' hold hmem
      · intro s₁ s₂ c' own₁ own₂ hs₁ hs₂
        exact h.held_inj s₁ s₂ c' own₁ own₂ (release_held_cases hs hs₁).2
          (release_held_cases hs hs₂).2
      · intro c' hc'
        rw [release_released hs, List.mem_cons] at hc'
        rw [release_cuts]
        rcases hc' with rfl | hc'
        · exact h.held_cut s c' own hs
        · exact h.released_cut c' hc'
      · intro page hpage
        rw [release_unmapped hs] at hpage
        rw [release_sizes]
        by_cases hown : own = true
        · rw [if_pos hown, List.mem_cons] at hpage
          rcases hpage with rfl | hpage
          · exact h.cut_page c (h.held_cut s c own hs)
          · exact h.unmapped_page page hpage
        · rw [if_neg hown] at hpage
          exact h.unmapped_page page hpage
      · intro page hpage
        rw [release_sizes] at hpage
        have hstage := h.stage page hpage
        by_cases hown : own = true ∧ page = c.page
        · obtain ⟨rfl, rfl⟩ := hown
          exact release_stage h hs
        · exact release_stage_of_ne hs (fun ho heq => hown ⟨ho, heq⟩) hstage

end Release

-- ====================================================== inside the page

section Inside

/-- Every leftover has room for one more slice of its key's length. -/
def Fits (pool : SlicePool κ σ) (len : κ → Nat) : Prop :=
  ∀ k a, pool.left k = some a → a.used + len k ≤ a.size

/-- Every slice that was cut lies inside its page. -/
def Inside (pool : SlicePool κ σ) : Prop :=
  ∀ c ∈ pool.cuts, ∃ size, pool.sizes[c.page]? = some size
    ∧ c.off + c.len ≤ size

variable {pool : SlicePool κ σ} {len : κ → Nat} {k : κ}

theorem Fits.addPage [DecidableEq κ] (h : pool.Fits len) {size : Nat}
    (hsize : len k ≤ size) : (pool.addPage k size).Fits len := by
  intro k' a ha
  rcases addPage_left_cases ha with ⟨rfl, rfl⟩ | ⟨-, hold⟩
  · show 0 + len k' ≤ size
    omega
  · exact h k' a hold

theorem Inside.addPage [DecidableEq κ] (h : pool.Inside) {size : Nat} :
    (pool.addPage k size).Inside := by
  intro c hc
  obtain ⟨size', hsize', hle⟩ := h c hc
  have hlt := (List.getElem?_eq_some_iff.1 hsize').1
  refine ⟨size', ?_, hle⟩
  rw [SlicePool.addPage, List.getElem?_append_left hlt, hsize']

variable [DecidableEq κ] [DecidableEq σ] {s : σ} {a : Leftover}

/-- A page is dropped in time: what is left has room again. -/
theorem Fits.cut (h : pool.Fits len) (hk : pool.left k = some a) :
    (pool.cut k s (len k)).Fits len := by
  intro k' b hb
  rcases cut_left_cases hk hb with ⟨rfl, hroom, rfl⟩ | ⟨-, hold⟩
  · exact hroom
  · exact h k' b hold

/-- A slice is inside when the leftover had room for it. -/
theorem Inside.cut (h : pool.Inside) (hkept : pool.Kept)
    (hfits : pool.Fits len) (hk : pool.left k = some a) :
    (pool.cut k s (len k)).Inside := by
  intro c hc
  have hsizes : (pool.cut k s (len k)).sizes = pool.sizes :=
    (cut_logs s (len k) hk).1
  rw [cut_cuts hk, List.mem_cons] at hc
  rw [hsizes]
  rcases hc with rfl | hc
  · exact ⟨a.size, hkept.left_size k a hk, hfits k a hk⟩
  · exact h c hc

omit [DecidableEq κ] in
theorem Inside.release (h : pool.Inside) : (pool.release s).Inside := by
  intro c hc
  rw [release_cuts] at hc
  rw [release_sizes]
  exact h c hc

omit [DecidableEq κ] in
theorem Fits.release (h : pool.Fits len) : (pool.release s).Fits len := by
  intro k' b hb
  rw [release_left] at hb
  exact h k' b hb

end Inside

-- ========================================================== in order

section Fifo

/-- A slice that is held starts behind every slice of its page that was
released. -/
def Fifo (pool : SlicePool κ σ) : Prop :=
  ∀ s c own, pool.held s = some (c, own) →
    ∀ c' ∈ pool.released, c'.page = c.page → c'.off < c.off

variable {pool : SlicePool κ σ}

/-- While slices are released in order, the page of a held one is
mapped. -/
theorem Fifo.mapped (h : pool.Fifo) (hkept : pool.Kept) {s : σ}
    {c : Slice} {own : Bool} (hs : pool.held s = some (c, own)) :
    c.page ∉ pool.unmapped := by
  have hcut := hkept.held_cut s c own hs
  cases hkept.stage c.page (hkept.cut_page c hcut) with
  | left _ _ hmapped => exact List.count_eq_zero.1 hmapped
  | owned _ _ _ _ _ _ hmapped => exact List.count_eq_zero.1 hmapped
  | gone last hlast hback _ _ _ =>
      have hle := hkept.le_lastCut hlast hcut rfl
      have hlt := h s c own hs last hback (lastCut_page hlast)
      omega

theorem Fifo.addPage [DecidableEq κ] (h : pool.Fifo) {k : κ}
    {size : Nat} : (pool.addPage k size).Fifo := h

variable [DecidableEq σ]

/-- A slice that is cut is the last of its page. -/
theorem Fifo.cut [DecidableEq κ] (h : pool.Fifo) (hkept : pool.Kept)
    {k : κ} {a : Leftover} {s : σ} {len : Nat}
    (hk : pool.left k = some a) : (pool.cut k s len).Fifo := by
  have hreleased : (pool.cut k s len).released = pool.released :=
    (cut_logs s len hk).2.1
  intro s' c own hs' c' hc' hpage
  rw [hreleased] at hc'
  rcases cut_held_cases hk hs' with ⟨-, rfl, -⟩ | ⟨-, hold⟩
  · have hcut := hkept.released_cut c' hc'
    have hused := hkept.left_used k a hk c' hcut hpage
    have hlen := hkept.cut_len c' hcut
    show c'.off < a.used
    omega
  · exact h s' c own hold c' hc' hpage

/-- The first slice of its page can be released. -/
theorem Fifo.release (h : pool.Fifo) {s : σ}
    (hfirst : ∀ c own, pool.held s = some (c, own) →
      ∀ s' c' own', s' ≠ s → pool.held s' = some (c', own') →
        c.page = c'.page → c.off < c'.off) :
    (pool.release s).Fifo := by
  cases hs : pool.held s with
  | none =>
      rw [release_of_none hs]
      exact h
  | some held =>
      obtain ⟨c, own⟩ := held
      intro s' c' own' hs' c₀ hc₀ hpage
      obtain ⟨hne, hold⟩ := release_held_cases hs hs'
      rw [release_released hs, List.mem_cons] at hc₀
      rcases hc₀ with rfl | hc₀
      · exact hfirst c₀ own hs s' c' own' hne hold hpage
      · exact h s' c' own' hold c₀ hc₀ hpage

end Fifo

-- =========================================================== growing

section Grows

variable [DecidableEq κ] [DecidableEq σ]

/-- What stays true of a pool while pages are added, and slices of the
keys' lengths are cut for slots of the keys. -/
structure Grows (key : σ → κ) (len : κ → Nat)
    (Q : SlicePool κ σ → Prop) : Prop where
  addPage : ∀ pool k size, pool.Kept → Q pool → pool.left k = none →
    len k ≤ size → Q (pool.addPage k size)
  cut : ∀ pool a s, pool.Kept → Q pool → pool.left (key s) = some a →
    Q (pool.cut (key s) s (len (key s)))

/-- What stays true of a pool whatever is released, too. -/
structure Steady (key : σ → κ) (len : κ → Nat)
    (Q : SlicePool κ σ → Prop) : Prop extends Grows key len Q where
  release : ∀ pool s, Q pool → Q (pool.release s)

variable (key : σ → κ) (len : κ → Nat)

theorem steady_true :
    Steady key len fun _ : SlicePool κ σ => True where
  addPage _ _ _ _ _ _ _ := trivial
  cut _ _ _ _ _ _ := trivial
  release _ _ _ := trivial

/-- Slices stay inside their pages while the lengths stay. -/
theorem steady_inside :
    Steady key len fun pool => pool.Fits len ∧ pool.Inside where
  addPage _ _ _ _ h _ hsize := ⟨h.1.addPage hsize, h.2.addPage⟩
  cut _ _ _ hkept h hk := ⟨h.1.cut hk, h.2.cut hkept h.1 hk⟩
  release _ _ h := ⟨h.1.release, h.2.release⟩

/-- Slices that are cut come last. -/
theorem grows_fifo : Grows key len fun pool => pool.Fifo where
  addPage _ _ _ _ h _ _ := h.addPage
  cut _ _ _ hkept h hk := h.cut hkept hk

end Grows

-- ============================================================== at home

section Homed

/-- The slices of a page are held by slots of one key, that of the page
if it is a leftover. -/
structure Homed (key : σ → κ) (pool : SlicePool κ σ) : Prop where
  held : ∀ s s' c c' own own', pool.held s = some (c, own) →
    pool.held s' = some (c', own') → c.page = c'.page → key s = key s'
  left : ∀ k a s c own, pool.left k = some a →
    pool.held s = some (c, own) → c.page = a.page → key s = k

variable [DecidableEq κ] [DecidableEq σ]

theorem steady_homed (key : σ → κ) (len : κ → Nat) :
    Steady key len (Homed key) where
  addPage pool k size hkept h hk _ := by
    refine ⟨h.held, fun k' a s c own ha hs hpage => ?_⟩
    rcases addPage_left_cases ha with ⟨-, rfl⟩ | ⟨-, hold⟩
    · have hlt := hkept.cut_page c (hkept.held_cut s c own hs)
      exact absurd hpage (Nat.ne_of_lt hlt)
    · exact h.left k' a s c own hold hs hpage
  cut pool a s hkept h hk := by
    refine ⟨fun s₁ s₂ c₁ c₂ own₁ own₂ hs₁ hs₂ hpage => ?_,
      fun k b s' c own hb hs' hpage => ?_⟩
    · rcases cut_held_cases hk hs₁ with ⟨rfl, rfl, -⟩ | ⟨-, hold₁⟩ <;>
      rcases cut_held_cases hk hs₂ with ⟨rfl, rfl, -⟩ | ⟨-, hold₂⟩
      · rfl
      · exact (h.left _ a s₂ c₂ own₂ hk hold₂ hpage.symm).symm
      · exact h.left _ a s₁ c₁ own₁ hk hold₁ hpage
      · exact h.held s₁ s₂ c₁ c₂ own₁ own₂ hold₁ hold₂ hpage
    · rcases cut_left_cases hk hb with ⟨rfl, -, rfl⟩ | ⟨hne, hold⟩ <;>
      rcases cut_held_cases hk hs' with ⟨rfl, rfl, -⟩ | ⟨-, hold'⟩
      · rfl
      · exact h.left _ a s' c own hk hold' hpage
      · exact absurd (hkept.left_inj _ k a b hk hold hpage).symm hne
      · exact h.left k b s' c own hold hold' hpage
  release pool s h := by
    cases hs : pool.held s with
    | none =>
        rw [release_of_none hs]
        exact h
    | some held =>
        refine ⟨fun s₁ s₂ c₁ c₂ own₁ own₂ hs₁ hs₂ hpage => ?_,
          fun k a s' c own ha hs' hpage => ?_⟩
        · exact h.held s₁ s₂ c₁ c₂ own₁ own₂ (release_held_cases hs hs₁).2
            (release_held_cases hs hs₂).2 hpage
        · rw [release_left] at ha
          exact h.left k a s' c own ha (release_held_cases hs hs').2 hpage

end Homed

end SlicePool

end BxRnic
