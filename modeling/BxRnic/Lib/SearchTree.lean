/-
Binary search trees, as a walk from the root reads and extends them.

A tree is its elements in order (`inorder`); it is `Ordered` when their
keys go up. The walk that compares keys finds exactly the elements of an
ordered tree (`find?_eq_some_iff`), and a new element hung where the walk
for it ends keeps the tree ordered (`link_ordered`). What a balanced tree
does to its shape afterwards leaves the elements in order where they are,
and is no matter of this file.
-/
import Mathlib.Data.Tree.Basic
import Mathlib.Order.Lattice
import Mathlib.Data.List.Basic

namespace BxRnic.SearchTree

variable {α κ : Type*}

/-- The elements from left to right. -/
def inorder : BinaryTree α → List α
  | .nil => []
  | .node a l r => inorder l ++ a :: inorder r

variable [LinearOrder κ] (key : α → κ)

/-- The keys go up from left to right. -/
def Ordered (t : BinaryTree α) : Prop :=
  (inorder t).Pairwise fun a b => key a < key b

/-- The element of a key. -/
def find? (k : κ) : BinaryTree α → Option α
  | .nil => none
  | .node a l r =>
      if k < key a then find? k l
      else if key a < k then find? k r
      else some a

/-- A new leaf; none if its key is there. -/
def link (new : α) : BinaryTree α → Option (BinaryTree α)
  | .nil => some (.node new .nil .nil)
  | .node a l r =>
      if key a = key new then none
      else if key new < key a then
        (link new l).map fun l => .node a l r
      else (link new r).map fun r => .node a l r

variable {key}

@[simp] theorem inorder_nil : inorder (.nil : BinaryTree α) = [] := rfl

@[simp] theorem inorder_node (a : α) (l r : BinaryTree α) :
    inorder (.node a l r) = inorder l ++ a :: inorder r := rfl

theorem ordered_node_iff {a : α} {l r : BinaryTree α} :
    Ordered key (.node a l r)
      ↔ Ordered key l ∧ Ordered key r
        ∧ (∀ b ∈ inorder l, key b < key a)
        ∧ ∀ b ∈ inorder r, key a < key b := by
  unfold Ordered
  rw [inorder_node, List.pairwise_append, List.pairwise_cons]
  constructor
  · rintro ⟨hl, ⟨har, hr⟩, hcross⟩
    exact ⟨hl, hr, fun b hb => hcross b hb a List.mem_cons_self, har⟩
  · rintro ⟨hl, hr, hla, har⟩
    refine ⟨hl, ⟨har, hr⟩, fun b hb c hc => ?_⟩
    cases List.mem_cons.1 hc with
    | inl heq => exact heq ▸ hla b hb
    | inr hmem => exact (hla b hb).trans (har c hmem)

/-- Elements of one key are one. -/
theorem Ordered.eq_of_key {t : BinaryTree α} (h : Ordered key t)
    {a b : α} (ha : a ∈ inorder t) (hb : b ∈ inorder t)
    (heq : key a = key b) : a = b := by
  by_contra hne
  have hlt := List.pairwise_iff_getElem.1 h
  obtain ⟨i, hi, rfl⟩ := List.mem_iff_getElem.1 ha
  obtain ⟨j, hj, rfl⟩ := List.mem_iff_getElem.1 hb
  rcases Nat.lt_trichotomy i j with hij | rfl | hij
  · exact absurd heq (ne_of_lt (hlt i j hi hj hij))
  · exact hne rfl
  · exact absurd heq.symm (ne_of_lt (hlt j i hj hi hij))

-- =============================================================== lookups

/-- The walk for a key finds the element that has it. -/
theorem find?_eq_some_iff {t : BinaryTree α} (h : Ordered key t) {k : κ}
    {a : α} : find? key k t = some a ↔ a ∈ inorder t ∧ key a = k := by
  induction t with
  | nil => simp [find?]
  | node b l r ihl ihr =>
    obtain ⟨hl, hr, hlb, hbr⟩ := ordered_node_iff.1 h
    rw [find?, inorder_node, List.mem_append, List.mem_cons]
    rcases lt_trichotomy k (key b) with hlt | heq | hgt
    · rw [if_pos hlt, ihl hl]
      constructor
      · rintro ⟨hmem, hkey⟩
        exact ⟨Or.inl hmem, hkey⟩
      · rintro ⟨hmem | rfl | hmem, hkey⟩
        · exact ⟨hmem, hkey⟩
        · exact absurd hkey (ne_of_gt hlt)
        · have hab := hbr a hmem
          rw [hkey] at hab
          exact absurd hab (lt_asymm hlt)
    · rw [if_neg (by rw [heq]; exact lt_irrefl _),
        if_neg (by rw [heq]; exact lt_irrefl _), Option.some.injEq]
      constructor
      · rintro rfl
        exact ⟨Or.inr (Or.inl rfl), heq.symm⟩
      · rintro ⟨hmem | rfl | hmem, hkey⟩
        · exact absurd (hkey.trans heq) (ne_of_lt (hlb a hmem))
        · rfl
        · exact absurd (hkey.trans heq) (ne_of_gt (hbr a hmem))
    · rw [if_neg (lt_asymm hgt), if_pos hgt, ihr hr]
      constructor
      · rintro ⟨hmem, hkey⟩
        exact ⟨Or.inr (Or.inr hmem), hkey⟩
      · rintro ⟨hmem | rfl | hmem, hkey⟩
        · have hab := hlb a hmem
          rw [hkey] at hab
          exact absurd hab (lt_asymm hgt)
        · exact absurd hkey (ne_of_lt hgt)
        · exact ⟨hmem, hkey⟩

-- ============================================================= insertion

/-- A new key has its place between two parts of the elements. -/
theorem link_inorder {t : BinaryTree α} {new : α} (h : Ordered key t)
    (hnew : ∀ b ∈ inorder t, key b ≠ key new) :
    ∃ t' xs ys, link key new t = some t' ∧ inorder t = xs ++ ys
      ∧ inorder t' = xs ++ new :: ys
      ∧ (∀ b ∈ xs, key b < key new) ∧ ∀ b ∈ ys, key new < key b := by
  induction t with
  | nil => exact ⟨_, [], [], rfl, rfl, rfl, by simp, by simp⟩
  | node a l r ihl ihr =>
    obtain ⟨hl, hr, hla, har⟩ := ordered_node_iff.1 h
    have hane : key a ≠ key new := hnew a (by simp)
    rw [link, if_neg hane]
    by_cases hlt : key new < key a
    · obtain ⟨l', xs, ys, hlink, hsplit, hsplit', hxs, hys⟩ :=
        ihl hl fun b hb => hnew b (by simp [hb])
      rw [if_pos hlt, hlink]
      refine ⟨_, xs, ys ++ a :: inorder r, rfl, ?_, ?_, hxs, ?_⟩
      · rw [inorder_node, hsplit, List.append_assoc]
      · rw [inorder_node, hsplit', List.append_assoc, List.cons_append]
      · intro b hb
        rcases List.mem_append.1 hb with hb | hb
        · exact hys b hb
        · cases List.mem_cons.1 hb with
          | inl heq => exact heq ▸ hlt
          | inr hmem => exact hlt.trans (har b hmem)
    · have hgt : key a < key new :=
        lt_of_le_of_ne (not_lt.1 hlt) hane
      obtain ⟨r', xs, ys, hlink, hsplit, hsplit', hxs, hys⟩ :=
        ihr hr fun b hb => hnew b (by simp [hb])
      rw [if_neg hlt, hlink]
      refine ⟨_, inorder l ++ a :: xs, ys, rfl, ?_, ?_, ?_, hys⟩
      · rw [inorder_node, hsplit, List.append_assoc, List.cons_append]
      · show inorder l ++ a :: inorder r' = _
        rw [hsplit', List.append_assoc, List.cons_append]
      · intro b hb
        rcases List.mem_append.1 hb with hb | hb
        · exact (hla b hb).trans hgt
        · cases List.mem_cons.1 hb with
          | inl heq => exact heq ▸ hgt
          | inr hmem => exact hxs b hmem

/-- A new element joins the tree, which stays ordered. -/
theorem link_ordered {t : BinaryTree α} {new : α} (h : Ordered key t)
    (hnew : ∀ b ∈ inorder t, key b ≠ key new) :
    ∃ t', link key new t = some t' ∧ Ordered key t'
      ∧ ∀ b, b ∈ inorder t' ↔ b = new ∨ b ∈ inorder t := by
  obtain ⟨t', xs, ys, hlink, hsplit, hsplit', hxs, hys⟩ :=
    link_inorder h hnew
  refine ⟨t', hlink, ?_, fun b => ?_⟩
  · unfold Ordered at h ⊢
    rw [hsplit, List.pairwise_append] at h
    rw [hsplit', List.pairwise_append, List.pairwise_cons]
    refine ⟨h.1, ⟨hys, h.2.1⟩, fun b hb c hc => ?_⟩
    cases List.mem_cons.1 hc with
    | inl heq => exact heq ▸ hxs b hb
    | inr hmem => exact h.2.2 b hb c hmem
  · rw [hsplit, hsplit', List.mem_append, List.mem_cons, List.mem_append]
    tauto

end BxRnic.SearchTree
