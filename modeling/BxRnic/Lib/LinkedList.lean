/-
Circular lists with links both ways, through a head that is no element.

A list lies in memory when the links of its neighbours point at each
other all the way round (`Circular`). What adding an element at the end
and taking one out do to the links is said once, for any two link maps
that differ as they should (`Circular.addTail`, `Circular.unlink`); the
order in which a program makes the stores does not matter to it.
-/
import Mathlib.Data.List.Nodup
import Mathlib.Logic.Function.Basic

namespace BxRnic.LinkedList

variable {A : Type*} {next prev next' prev' : A → A}

-- ================================================================= links

/-- The neighbours of the sequence point at each other. -/
def Links (next prev : A → A) : List A → Prop
  | x :: y :: rest => next x = y ∧ prev y = x ∧ Links next prev (y :: rest)
  | _ => True

/-- A sequence is linked if it is up to an element and from it on. -/
theorem links_append {x : A} {r : List A} :
    ∀ {l : List A}, Links next prev (l ++ x :: r)
      ↔ Links next prev (l ++ [x]) ∧ Links next prev (x :: r)
  | [] => by
      constructor
      · intro h
        exact ⟨trivial, h⟩
      · intro h
        exact h.2
  | [a] => by
      constructor
      · intro h
        exact ⟨⟨h.1, h.2.1, trivial⟩, h.2.2⟩
      · intro h
        exact ⟨h.1.1, h.1.2.1, h.2⟩
  | a :: b :: l => by
      have ih := links_append (x := x) (r := r) (l := b :: l)
      constructor
      · intro h
        have hrest := ih.1 h.2.2
        exact ⟨⟨h.1, h.2.1, hrest.1⟩, hrest.2⟩
      · intro h
        exact ⟨h.1.1, h.1.2.1, ih.2 ⟨h.1.2.2, h.2⟩⟩

/-- The forward link of the last element is not looked at, nor the
backward link of the first. -/
theorem Links.congr :
    ∀ {l : List A}, Links next prev l →
      (∀ x ∈ l.dropLast, next' x = next x) →
      (∀ y ∈ l.tail, prev' y = prev y) → Links next' prev' l
  | [], _, _, _ => trivial
  | [_], _, _, _ => trivial
  | x :: y :: rest, h, hnext, hprev => by
      refine ⟨?_, ?_, h.2.2.congr ?_ ?_⟩
      · rw [hnext x List.mem_cons_self]
        exact h.1
      · rw [hprev y List.mem_cons_self]
        exact h.2.1
      · intro z hz
        exact hnext z (List.mem_cons_of_mem x hz)
      · intro z hz
        exact hprev z (List.mem_cons_of_mem y hz)

-- =============================================================== circles

/-- The elements are linked in a circle through the head, and none comes
twice. -/
structure Circular (next prev : A → A) (head : A) (xs : List A) : Prop where
  links : Links next prev (head :: xs ++ [head])
  nodup : (head :: xs).Nodup

/-- An empty list points at itself. -/
theorem Circular.empty {head : A} (hnext : next head = head)
    (hprev : prev head = head) : Circular next prev head [] where
  links := ⟨hnext, hprev, trivial⟩
  nodup := List.nodup_singleton head

/-- The last element, or the head of an empty list. -/
theorem exists_last (head : A) (xs : List A) :
    ∃ ini, head :: xs = ini ++ [xs.getLastD head] := by
  refine ⟨(head :: xs).dropLast, ?_⟩
  have hlast : xs.getLastD head = (head :: xs).getLast (by simp) := by
    cases xs with
    | nil => rfl
    | cons x xs =>
      rw [List.getLast_cons (List.cons_ne_nil x xs), List.getLastD_cons]
      exact (List.getLast_eq_getLastD (List.cons_ne_nil x xs)).symm
  rw [hlast]
  exact (List.dropLast_append_getLast (by simp)).symm

/-- The first element, or the head. -/
theorem exists_first (head : A) (xs : List A) :
    ∃ fin, xs ++ [head] = xs.headD head :: fin := by
  cases xs with
  | nil => exact ⟨[], rfl⟩
  | cons x xs => exact ⟨xs ++ [head], rfl⟩

/-- The links of an element are its neighbours. -/
theorem Circular.at {head e : A} {pre post : List A}
    (h : Circular next prev head (pre ++ e :: post)) :
    prev e = pre.getLastD head ∧ next e = post.headD head := by
  obtain ⟨ini, hini⟩ := exists_last head pre
  obtain ⟨fin, hfin⟩ := exists_first head post
  have heq : head :: (pre ++ e :: post) ++ [head]
      = ini ++ pre.getLastD head :: e :: post.headD head :: fin := by
    rw [← hfin, List.cons_append, List.append_assoc, List.cons_append,
      ← List.cons_append, hini, List.append_assoc, List.singleton_append]
  have hlinks := h.links
  rw [heq] at hlinks
  obtain ⟨-, -, hprev, hnext, -, -⟩ := links_append.1 hlinks
  exact ⟨hprev, hnext⟩

/-- The head's links are the ends. -/
theorem Circular.ends {head : A} {xs : List A}
    (h : Circular next prev head xs) :
    prev head = xs.getLastD head ∧ next head = xs.headD head := by
  obtain ⟨ini, hini⟩ := exists_last head xs
  obtain ⟨fin, hfin⟩ := exists_first head xs
  have hlast := h.links
  rw [hini, List.append_assoc, List.singleton_append] at hlast
  have hfirst := h.links
  rw [List.cons_append, hfin] at hfirst
  exact ⟨(links_append.1 hlast).2.2.1, hfirst.1⟩

/-- An element is added at the end. -/
theorem Circular.addTail {head new : A} {xs : List A}
    (h : Circular next prev head xs) (hnew : new ∉ head :: xs)
    (hlast : next' (xs.getLastD head) = new) (hnext : next' new = head)
    (hprev : prev' new = xs.getLastD head) (hhead : prev' head = new)
    (hnexts : ∀ x, x ≠ xs.getLastD head → x ≠ new → next' x = next x)
    (hprevs : ∀ y, y ≠ head → y ≠ new → prev' y = prev y) :
    Circular next' prev' head (xs ++ [new]) := by
  obtain ⟨ini, hini⟩ := exists_last head xs
  have hnodup := h.nodup
  constructor
  · have hlinks := h.links
    rw [hini, List.append_assoc, List.singleton_append] at hlinks
    have hold := (links_append.1 hlinks).1
    rw [← List.cons_append, hini, List.append_assoc, List.append_assoc]
    refine links_append.2 ⟨hold.congr ?_ ?_, hlast, hprev, hnext, hhead,
      trivial⟩
    · intro x hx
      rw [List.dropLast_concat] at hx
      rw [hini] at hnodup
      apply hnexts
      · intro heq
        have := (List.nodup_append.1 hnodup).2.2 x hx _
          List.mem_cons_self
        exact this heq
      · intro heq
        apply hnew
        rw [hini, ← heq]
        exact List.mem_append_left _ hx
    · intro y hy
      rw [← hini] at hy
      apply hprevs
      · intro heq
        rw [heq] at hy
        exact (List.nodup_cons.1 hnodup).1 hy
      · intro heq
        rw [heq] at hy
        exact hnew (List.mem_cons_of_mem head hy)
  · rw [← List.cons_append]
    apply hnodup.append (List.nodup_singleton new)
    intro x hx hx'
    rw [List.mem_singleton.1 hx'] at hx
    exact hnew hx

/-- An element is taken out. -/
theorem Circular.unlink {head e : A} {pre post : List A}
    (h : Circular next prev head (pre ++ e :: post))
    (hnext : next' (pre.getLastD head) = post.headD head)
    (hprev : prev' (post.headD head) = pre.getLastD head)
    (hnexts : ∀ x, x ≠ pre.getLastD head → x ≠ e → next' x = next x)
    (hprevs : ∀ y, y ≠ post.headD head → y ≠ e → prev' y = prev y) :
    Circular next' prev' head (pre ++ post) := by
  obtain ⟨ini, hini⟩ := exists_last head pre
  obtain ⟨fin, hfin⟩ := exists_first head post
  have hnodup := h.nodup
  rw [← List.cons_append] at hnodup
  obtain ⟨hpre, hpost, hapart⟩ := List.nodup_append.1 hnodup
  have he : ∀ x ∈ head :: pre, x ≠ e :=
    fun x hx => hapart x hx e List.mem_cons_self
  have hsplit : head :: (pre ++ e :: post) ++ [head]
      = ini ++ pre.getLastD head :: e :: post.headD head :: fin := by
    rw [← hfin, List.cons_append, List.append_assoc, List.cons_append,
      ← List.cons_append, hini, List.append_assoc, List.singleton_append]
  have hlinks := h.links
  rw [hsplit] at hlinks
  obtain ⟨hbefore, -, -, -, -, hafter⟩ := links_append.1 hlinks
  constructor
  · rw [List.cons_append, List.append_assoc, hfin, ← List.cons_append,
      hini, List.append_assoc, List.singleton_append]
    refine links_append.2 ⟨hbefore.congr ?_ ?_, hnext, hprev,
      hafter.congr ?_ ?_⟩
    · intro x hx
      rw [List.dropLast_concat] at hx
      have hx' : x ∈ head :: pre := by
        rw [hini]
        exact List.mem_append_left _ hx
      rw [hini] at hpre
      apply hnexts x _ (he x hx')
      exact (List.nodup_append.1 hpre).2.2 x hx _ List.mem_cons_self
    · intro y hy
      rw [← hini] at hy
      have hy' : y ∈ head :: pre := List.mem_cons_of_mem head hy
      apply hprevs y _ (he y hy')
      cases post with
      | nil =>
        intro heq
        rw [heq] at hy
        exact (List.nodup_cons.1 hpre).1 hy
      | cons n post =>
        exact hapart y hy' n (List.mem_cons_of_mem e List.mem_cons_self)
    · intro x hx
      rw [← hfin, List.dropLast_concat] at hx
      apply hnexts
      · intro heq
        have hp : pre.getLastD head ∈ head :: pre := by
          rw [hini]
          exact List.mem_append_right _ List.mem_cons_self
        exact hapart _ hp x (List.mem_cons_of_mem e hx) heq.symm
      · intro heq
        rw [heq] at hx
        exact (List.nodup_cons.1 hpost).1 hx
    · intro y hy
      rw [← hfin] at hy
      cases post with
      | nil => cases hy
      | cons n post =>
        have hnpost := (List.nodup_cons.1 hpost).2
        rw [List.cons_append, List.tail_cons, List.mem_append] at hy
        rcases hy with hy | hy
        · apply hprevs
          · intro heq
            rw [heq] at hy
            exact (List.nodup_cons.1 hnpost).1 hy
          · intro heq
            rw [heq] at hy
            exact (List.nodup_cons.1 hpost).1 (List.mem_cons_of_mem n hy)
        · rw [List.mem_singleton.1 hy]
          apply hprevs
          · exact hapart head List.mem_cons_self n
              (List.mem_cons_of_mem e List.mem_cons_self)
          · exact he head List.mem_cons_self
  · rw [← List.cons_append]
    exact hnodup.sublist (List.Sublist.append_left
      (List.sublist_cons_self e post) _)

-- ================================================================= walks

/-- The elements from `pos` on, up to one that is looked for or to the
head; `fuel` bounds the steps. -/
def find (next : A → A) [DecidableEq A] (head : A) (found : A → Bool) :
    (fuel : Nat) → (pos : A) → Option (Option A)
  | 0, _ => none
  | fuel + 1, pos =>
      if pos = head then some none
      else if found pos then some (some pos)
      else find next head found fuel (next pos)

/-- A walk finds what a search of the list finds, and comes to its end. -/
theorem Circular.find_eq [DecidableEq A] {head : A} {xs : List A}
    (h : Circular next prev head xs) (found : A → Bool) {fuel : Nat}
    (hfuel : xs.length < fuel) :
    find next head found fuel (next head) = some (xs.find? found) := by
  -- from each element on, the rest of the list is walked
  have hwalk : ∀ {ys : List A} {fuel : Nat} {pos : A},
      Links next prev (pos :: ys ++ [head]) → head ∉ ys →
      ys.length < fuel →
      find next head found fuel (next pos) = some (ys.find? found) := by
    intro ys
    induction ys with
    | nil =>
      intro fuel pos hlinks _ hfuel
      cases fuel with
      | zero => cases hfuel
      | succ fuel =>
        rw [find, hlinks.1, if_pos rfl]
        rfl
    | cons y ys ih =>
      intro fuel pos hlinks hhead hfuel
      cases fuel with
      | zero => cases hfuel
      | succ fuel =>
        have hne : y ≠ head := by
          intro heq
          apply hhead
          rw [heq]
          exact List.mem_cons_self
        have hrest := ih hlinks.2.2
          (fun hmem => hhead (List.mem_cons_of_mem y hmem))
          (Nat.lt_of_succ_lt_succ hfuel)
        rw [find, hlinks.1, if_neg hne, List.find?_cons]
        cases found y with
        | true => rfl
        | false =>
          rw [if_neg Bool.false_ne_true]
          exact hrest
  exact hwalk h.links (List.nodup_cons.1 h.nodup).1 hfuel

end BxRnic.LinkedList
