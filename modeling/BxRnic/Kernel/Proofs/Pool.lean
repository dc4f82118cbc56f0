/-
The bookkeeping of the pool of memory regions over whole runs.

The count, the bits, the tree and the elements are four views of one set,
and the functions of the pool touch them at different times. Two
relations hold them together: `Numbers`, between the pool and how many
elements there are, and `Indexed`, between the pool's table and tree and
the elements that are registered. Every function of the pool has one
lemma for each relation it touches, and every step keeps both
(`poolInv_step`), harmless or not.

What a step can break is that an element stays behind that no call will
free: a registration that returns early leaves one without an index, and
a deregistration leaves one whose index is gone while a lookup holds on
to it. Apart from these the bookkeeping is right (`consistent_iff`).
-/
import Mathlib.Data.List.Nodup
import Mathlib.Data.List.Perm.Subperm
import BxRnic.Kernel.Pool
import BxRnic.Lib.Run

namespace BxRnic.Kernel

-- =============================================================== numbers

section Numbers

variable {pool pool' : Pool} {n : Nat}

/-- The pool counts `n` elements. -/
structure Numbers (pool : Pool) (n : Nat) : Prop where
  valid : pool.valid = true
  refCnt : pool.refCnt = n + 1
  numElem : pool.numElem = n
  limit : n ≤ pool.maxElem
  room : pool.maxElem ≤ pool.maxIndex - pool.minIndex + 1

/-- The parts of the pool that know the indices are the same. -/
def SameIndices (pool pool' : Pool) : Prop :=
  pool'.tree = pool.tree ∧ pool'.table = pool.table
    ∧ pool'.minIndex = pool.minIndex ∧ pool'.maxIndex = pool.maxIndex

theorem put_refCnt {k : Nat} (h : pool.refCnt = k + 2) :
    pool.put = { pool with refCnt := k + 1 } := by
  unfold Pool.put
  rw [h, if_neg (by omega)]
  rfl

theorem alloc_numbers (zalloc : Bool) (h : Numbers pool n) :
    SameIndices pool (pool.alloc zalloc).1
      ∧ Numbers (pool.alloc zalloc).1
        (if (pool.alloc zalloc).2 then n + 1 else n) := by
  unfold Pool.alloc
  rw [h.valid]
  simp only [Bool.not_true, Bool.false_eq_true, if_false]
  split
  · rw [put_refCnt (k := n) (by rw [h.refCnt])]
    refine ⟨⟨rfl, rfl, rfl, rfl⟩, rfl, rfl, ?_, h.limit, h.room⟩
    exact h.numElem
  · rename_i hfits
    refine ⟨⟨rfl, rfl, rfl, rfl⟩, rfl, ?_, ?_, ?_, h.room⟩
    · exact congrArg (· + 1) h.refCnt
    · exact congrArg (· + 1) h.numElem
    · rw [h.numElem] at hfits
      simp only [if_true]
      omega

theorem elemRelease_numbers (h : Numbers pool (n + 1)) :
    SameIndices pool pool.elemRelease ∧ Numbers pool.elemRelease n := by
  have hcount : ({ pool with numElem := pool.numElem - 1 } : Pool).refCnt
      = n + 2 := h.refCnt
  unfold Pool.elemRelease
  rw [put_refCnt hcount]
  refine ⟨⟨rfl, rfl, rfl, rfl⟩, h.valid, rfl, ?_, ?_, h.room⟩
  · show pool.numElem - 1 = n
    rw [h.numElem, Nat.add_sub_cancel]
  · exact Nat.le_of_succ_le h.limit

theorem addIndex_numbers {rb : RbOps} (h : Numbers pool n) (addr : Nat) :
    Numbers (pool.addIndex rb addr).2 n := by
  unfold Pool.addIndex Pool.insertIndex Pool.allocIndex
  dsimp only
  split
  · exact ⟨h.valid, h.refCnt, h.numElem, h.limit, h.room⟩
  · exact ⟨h.valid, h.refCnt, h.numElem, h.limit, h.room⟩

end Numbers

-- =============================================================== indices

section Indices

variable {rb : RbOps} {pool : Pool} {R : Nat → Nat → Prop}

/-- The table and the tree know the elements `R` says, each by its
address and its index. -/
structure Indexed (pool : Pool) (R : Nat → Nat → Prop) : Prop where
  minmax : pool.minIndex ≤ pool.maxIndex
  ordered : SearchTree.Ordered RbNode.index pool.tree
  hung : ∀ addr index, (addr, index) ∈ treeElems pool.tree ↔ R addr index
  bits : ∀ i, pool.table i = true ↔ ∃ addr, R addr (i + pool.minIndex)
  range : ∀ addr index, R addr index →
    pool.minIndex ≤ index ∧ index ≤ pool.maxIndex

theorem Indexed.congr {pool' : Pool} {R' : Nat → Nat → Prop}
    (h : Indexed pool R) (hsame : SameIndices pool pool')
    (hR : ∀ addr index, R' addr index ↔ R addr index) :
    Indexed pool' R' := by
  obtain ⟨htree, htable, hmin, hmax⟩ := hsame
  refine ⟨?_, ?_, fun addr index => ?_, fun i => ?_,
    fun addr index hmem => ?_⟩
  · rw [hmin, hmax]
    exact h.minmax
  · rw [htree]
    exact h.ordered
  · rw [htree, hR]
    exact h.hung addr index
  · rw [htable, hmin, h.bits i]
    exact exists_congr fun addr => (hR addr _).symm
  · rw [hmin, hmax]
    exact h.range addr index ((hR addr index).1 hmem)

theorem mem_treeElems {tree : BinaryTree RbNode} {addr index : Nat} :
    (addr, index) ∈ treeElems tree
      ↔ ∃ node ∈ SearchTree.inorder tree,
        node.addr = addr ∧ node.index = index := by
  rw [treeElems, List.mem_map]
  refine exists_congr fun node => and_congr_right fun _ => ?_
  rw [Prod.mk.injEq]

/-- Two elements of one index are one. -/
theorem Indexed.addr_eq (h : Indexed pool R) {addr addr' index : Nat}
    (hmem : R addr index) (hmem' : R addr' index) : addr = addr' := by
  obtain ⟨node, hnode, rfl, hindex⟩ :=
    mem_treeElems.1 ((h.hung addr index).2 hmem)
  obtain ⟨node', hnode', rfl, hindex'⟩ :=
    mem_treeElems.1 ((h.hung addr' index).2 hmem')
  rw [h.ordered.eq_of_key hnode hnode' (hindex.trans hindex'.symm)]

/-- A tree with the same elements in order is ordered as well. -/
theorem ordered_iff_treeElems {tree : BinaryTree RbNode} :
    SearchTree.Ordered RbNode.index tree
      ↔ (treeElems tree).Pairwise fun a b => a.2 < b.2 := by
  rw [treeElems, List.pairwise_map]
  rfl

/-- The lookup finds exactly the elements. -/
theorem Indexed.getIndex (h : Indexed pool R) (hvalid : pool.valid = true)
    (addr index : Nat) :
    pool.getIndex index = some addr ↔ R addr index := by
  rw [Pool.getIndex, hvalid, Bool.not_true, if_neg Bool.false_ne_true,
    Option.map_eq_some_iff, ← h.hung, mem_treeElems]
  constructor
  · rintro ⟨node, hfind, haddr⟩
    obtain ⟨hmem, hindex⟩ := (SearchTree.find?_eq_some_iff h.ordered).1 hfind
    exact ⟨node, hmem, haddr, hindex⟩
  · rintro ⟨node, hmem, haddr, hindex⟩
    exact ⟨node, (SearchTree.find?_eq_some_iff h.ordered).2 ⟨hmem, hindex⟩,
      haddr⟩

/-- `alloc_index` finds a free index if there is one, whatever its
hint. -/
theorem allocIndex_free
    (hfree : ∃ i, i < pool.maxIndex - pool.minIndex + 1
      ∧ pool.table i = false) :
    ∃ i, i < pool.maxIndex - pool.minIndex + 1 ∧ pool.table i = false
      ∧ pool.allocIndex
        = (i + pool.minIndex,
          { pool with table := Bitmap.setBit pool.table i, last := i }) := by
  unfold Pool.allocIndex
  dsimp only
  split
  · have hlt : Bitmap.findFirstZeroBit pool.table
        (pool.maxIndex - pool.minIndex + 1)
        < pool.maxIndex - pool.minIndex + 1 := by
      by_contra hfull
      obtain ⟨i, hi, hclear⟩ := hfree
      have hset := Bitmap.findNextZeroBit_full (Nat.not_lt.1 hfull)
        (Nat.zero_le i) hi
      rw [hclear] at hset
      cases hset
    exact ⟨_, hlt, Bitmap.findNextZeroBit_clear hlt, rfl⟩
  · rename_i hlt
    exact ⟨_, Nat.not_le.1 hlt,
      Bitmap.findNextZeroBit_clear (Nat.not_le.1 hlt), rfl⟩

/-- `bxroce_add_index`, with an index to be had. -/
theorem Indexed.addIndex (h : Indexed pool R) (hrb : rb.Lawful)
    (hfree : ∃ i, i < pool.maxIndex - pool.minIndex + 1
      ∧ pool.table i = false) (addr : Nat) :
    Indexed (pool.addIndex rb addr).2 fun addr' index =>
      (addr' = addr ∧ index = (pool.addIndex rb addr).1)
        ∨ R addr' index := by
  obtain ⟨i, hi, hclear, hindex⟩ := allocIndex_free hfree
  let new : RbNode := ⟨addr, i + pool.minIndex, true⟩
  have hnew : ∀ node ∈ SearchTree.inorder pool.tree,
      node.index ≠ new.index := by
    intro node hnode heq
    have hR := (h.hung node.addr (i + pool.minIndex)).1
      (mem_treeElems.2 ⟨node, hnode, rfl, heq⟩)
    have hset := (h.bits i).2 ⟨node.addr, hR⟩
    rw [hclear] at hset
    cases hset
  obtain ⟨tree, hlink, hordered, hmem⟩ :=
    SearchTree.link_ordered h.ordered hnew
  have helems : ∀ addr' index, (addr', index) ∈ treeElems tree
      ↔ (addr' = addr ∧ index = i + pool.minIndex) ∨ R addr' index := by
    intro addr' index
    rw [mem_treeElems, ← h.hung, mem_treeElems]
    constructor
    · rintro ⟨node, hnode, haddr, hidx⟩
      cases (hmem node).1 hnode with
      | inl heq =>
        subst heq
        exact Or.inl ⟨haddr.symm, hidx.symm⟩
      | inr hold => exact Or.inr ⟨node, hold, haddr, hidx⟩
    · rintro (⟨rfl, rfl⟩ | ⟨node, hold, haddr, hidx⟩)
      · exact ⟨_, (hmem _).2 (Or.inl rfl), rfl, rfl⟩
      · exact ⟨node, (hmem node).2 (Or.inr hold), haddr, hidx⟩
  unfold Pool.addIndex Pool.insertIndex
  rw [hindex]
  dsimp only
  rw [hlink]
  refine ⟨h.minmax, ?_, fun addr' index => ?_, fun k => ?_,
    fun addr' index => ?_⟩
  · rw [ordered_iff_treeElems] at hordered ⊢
    rw [hrb.insertColor]
    exact hordered
  · rw [hrb.insertColor]
    exact helems addr' index
  · rw [Bitmap.setBit_iff, h.bits k]
    constructor
    · rintro (rfl | ⟨addr', hR⟩)
      · exact ⟨addr, Or.inl ⟨rfl, rfl⟩⟩
      · exact ⟨addr', Or.inr hR⟩
    · rintro ⟨addr', ⟨-, heq⟩ | hR⟩
      · exact Or.inl (Nat.add_right_cancel heq)
      · exact Or.inr ⟨addr', hR⟩
  · rintro (⟨-, rfl⟩ | hR)
    · have hminmax := h.minmax
      dsimp only
      omega
    · exact h.range addr' index hR

/-- `bxroce_drop_index` of an element. -/
theorem Indexed.dropIndex (h : Indexed pool R) (hrb : rb.Lawful)
    {addr index : Nat} (hmem : R addr index)
    (hone : ∀ index', R addr index' → index' = index) :
    Indexed (pool.dropIndex rb addr index) fun addr' index' =>
      R addr' index' ∧ addr' ≠ addr := by
  unfold Pool.dropIndex
  refine ⟨h.minmax, ?_, fun addr' index' => ?_, fun i => ?_,
    fun addr' index' hR => h.range addr' index' hR.1⟩
  · have hordered := ordered_iff_treeElems.1 h.ordered
    rw [ordered_iff_treeElems, hrb.erase]
    exact hordered.filter _
  · rw [hrb.erase, List.mem_filter, h.hung, decide_eq_true_iff]
  · obtain ⟨hmin, -⟩ := h.range addr index hmem
    rw [Bitmap.clearBit_iff, h.bits i]
    constructor
    · rintro ⟨hne, addr', hR⟩
      refine ⟨addr', hR, fun heq => hne ?_⟩
      have hindex := hone (i + pool.minIndex) (heq ▸ hR)
      omega
    · rintro ⟨addr', hR, hne⟩
      refine ⟨fun heq => ?_, addr', hR⟩
      dsimp only at hR
      rw [heq, Nat.sub_add_cancel hmin] at hR
      exact hne (h.addr_eq hR hmem)

end Indices

-- ============================================================== elements

section Elements

variable {mp : MrPool} {addr : Nat} {elem : Elem} {f : Elem → Elem}

/-- An element with this address and this index is registered. -/
def MrPool.Registered (mp : MrPool) (addr index : Nat) : Prop :=
  ∃ elem ∈ mp.elems,
    elem.stage = .registered ∧ elem.addr = addr ∧ elem.index = index

/-- What every step keeps. -/
structure PoolInv (mp : MrPool) : Prop where
  numbers : Numbers mp.pool mp.elems.length
  placed : (mp.elems.map (·.addr)).Nodup
  indexed : Indexed mp.pool mp.Registered
  refs : ∀ elem ∈ mp.elems, elem.stage ≠ .left →
    elem.refCnt = elem.lookups + 1

theorem at?_spec (hat : mp.at? addr = some elem) :
    elem ∈ mp.elems ∧ elem.addr = addr := by
  have haddr := List.find?_some hat
  exact ⟨List.mem_of_find?_eq_some hat, of_decide_eq_true haddr⟩

theorem at?_none (hat : mp.at? addr = none) :
    ∀ elem ∈ mp.elems, elem.addr ≠ addr := by
  intro elem hmem
  simpa using List.find?_eq_none.1 hat elem hmem

/-- Who is at an address, is the element there. -/
theorem eq_of_at? (hplaced : (mp.elems.map (·.addr)).Nodup)
    (hat : mp.at? addr = some elem) {elem' : Elem}
    (hmem : elem' ∈ mp.elems) (haddr : elem'.addr = addr) :
    elem' = elem := by
  obtain ⟨hin, heq⟩ := at?_spec hat
  exact List.inj_on_of_nodup_map hplaced hmem hin (haddr.trans heq.symm)

theorem mem_write (hplaced : (mp.elems.map (·.addr)).Nodup)
    (hat : mp.at? addr = some elem) {elem' : Elem} :
    elem' ∈ (mp.write addr f).elems
      ↔ elem' = f elem ∨ (elem' ∈ mp.elems ∧ elem'.addr ≠ addr) := by
  obtain ⟨hin, heq⟩ := at?_spec hat
  rw [MrPool.write, List.mem_map]
  constructor
  · rintro ⟨old, hold, rfl⟩
    by_cases haddr : old.addr = addr
    · rw [if_pos haddr, eq_of_at? hplaced hat hold haddr]
      exact Or.inl rfl
    · rw [if_neg haddr]
      exact Or.inr ⟨hold, haddr⟩
  · rintro (rfl | ⟨hold, haddr⟩)
    · exact ⟨elem, hin, if_pos heq⟩
    · exact ⟨elem', hold, if_neg haddr⟩

theorem placed_write (hplaced : (mp.elems.map (·.addr)).Nodup)
    (hat : mp.at? addr = some elem) (haddr : (f elem).addr = addr) :
    ((mp.write addr f).elems.map (·.addr)).Nodup := by
  have hsame : (mp.write addr f).elems.map (·.addr)
      = mp.elems.map (·.addr) := by
    rw [MrPool.write, List.map_map]
    refine List.map_congr_left fun old hold => ?_
    rw [Function.comp_apply]
    by_cases hold' : old.addr = addr
    · rw [if_pos hold', eq_of_at? hplaced hat hold hold', haddr]
      exact (at?_spec hat).2.symm
    · rw [if_neg hold']
  rw [hsame]
  exact hplaced

theorem length_write : (mp.write addr f).elems.length = mp.elems.length :=
  List.length_map _

/-- Whether the element at an address is registered. -/
theorem registered_at_iff (hplaced : (mp.elems.map (·.addr)).Nodup)
    (hat : mp.at? addr = some elem) (index : Nat) :
    mp.Registered addr index
      ↔ elem.stage = .registered ∧ elem.index = index := by
  obtain ⟨hin, heq⟩ := at?_spec hat
  constructor
  · rintro ⟨elem', hmem, hstage, haddr, hindex⟩
    obtain rfl := eq_of_at? hplaced hat hmem haddr
    exact ⟨hstage, hindex⟩
  · rintro ⟨hstage, hindex⟩
    exact ⟨elem, hin, hstage, heq, hindex⟩

theorem registered_write_iff (hplaced : (mp.elems.map (·.addr)).Nodup)
    (hat : mp.at? addr = some elem) (haddr : (f elem).addr = addr)
    {addr' index : Nat} :
    (mp.write addr f).Registered addr' index
      ↔ (addr' = addr ∧ (f elem).stage = .registered
          ∧ (f elem).index = index)
        ∨ (mp.Registered addr' index ∧ addr' ≠ addr) := by
  constructor
  · rintro ⟨elem', hmem, hstage, rfl, hindex⟩
    rcases (mem_write hplaced hat).1 hmem with rfl | ⟨hold, hne⟩
    · exact Or.inl ⟨haddr, hstage, hindex⟩
    · exact Or.inr ⟨⟨elem', hold, hstage, rfl, hindex⟩, hne⟩
  · rintro (⟨rfl, hstage, hindex⟩ | ⟨⟨elem', hold, hstage, rfl, hindex⟩, hne⟩)
    · exact ⟨f elem, (mem_write hplaced hat).2 (Or.inl rfl), hstage,
        haddr, hindex⟩
    · exact ⟨elem', (mem_write hplaced hat).2 (Or.inr ⟨hold, hne⟩), hstage,
        rfl, hindex⟩

/-- A write that leaves it at that, whether the element is registered. -/
theorem PoolInv.write (hinv : PoolInv mp) (hat : mp.at? addr = some elem)
    (haddr : (f elem).addr = addr)
    (hsame : ∀ index, ((f elem).stage = .registered
        ∧ (f elem).index = index)
      ↔ (elem.stage = .registered ∧ elem.index = index))
    (hrefs : (f elem).stage ≠ .left →
      (f elem).refCnt = (f elem).lookups + 1) :
    PoolInv (mp.write addr f) := by
  refine ⟨?_, placed_write hinv.placed hat haddr,
    hinv.indexed.congr ⟨rfl, rfl, rfl, rfl⟩ fun addr' index => ?_, ?_⟩
  · rw [length_write]
    exact hinv.numbers
  · rw [registered_write_iff hinv.placed hat haddr, hsame]
    by_cases heq : addr' = addr
    · rw [heq, registered_at_iff hinv.placed hat index]
      simp
    · simp [heq]
  · intro elem' hmem hstage
    rcases (mem_write hinv.placed hat).1 hmem with rfl | ⟨hold, -⟩
    · exact hrefs hstage
    · exact hinv.refs elem' hold hstage

/-- The pool has an index left as long as an element is without. -/
theorem index_free (hinv : PoolInv mp) (hmem : elem ∈ mp.elems)
    (hstage : elem.stage ≠ .registered) :
    ∃ i, i < mp.pool.maxIndex - mp.pool.minIndex + 1
      ∧ mp.pool.table i = false := by
  by_contra hnone
  have hset : ∀ i, i < mp.pool.maxIndex - mp.pool.minIndex + 1 →
      mp.pool.table i = true := fun i hi =>
    Bool.of_not_eq_false fun hclear => hnone ⟨i, hi, hclear⟩
  have hsub : List.range' mp.pool.minIndex
        (mp.pool.maxIndex - mp.pool.minIndex + 1)
      ⊆ (mp.elems.filter (·.stage = .registered)).map (·.index) := by
    intro index hindex
    obtain ⟨hlo, hhi⟩ := List.mem_range'_1.1 hindex
    obtain ⟨addr, old, hold, hreg, -, hidx⟩ :=
      (hinv.indexed.bits (index - mp.pool.minIndex)).1
        (hset _ (by omega))
    rw [Nat.sub_add_cancel hlo] at hidx
    exact List.mem_map.2
      ⟨old, List.mem_filter.2 ⟨hold, decide_eq_true hreg⟩, hidx⟩
  have hle := (List.subperm_of_subset List.nodup_range' hsub).length_le
  rw [List.length_range', List.length_map] at hle
  have hlt : (mp.elems.filter (·.stage = .registered)).length
      < mp.elems.length :=
    List.length_filter_lt_length_iff_exists.2
      ⟨elem, hmem, by simpa using hstage⟩
  have hlimit := hinv.numbers.limit
  have hroom := hinv.numbers.room
  omega

/-- An element is given an index. -/
theorem PoolInv.addIndex {rb : RbOps} (hinv : PoolInv mp)
    (hrb : rb.Lawful) (hat : mp.at? addr = some elem)
    (hstage : elem.stage = .registering) :
    PoolInv (MrPool.write { mp with pool := (mp.pool.addIndex rb addr).2 }
      addr fun elem =>
        { elem with
          index := (mp.pool.addIndex rb addr).1, stage := .registered }) := by
  have hne : elem.stage ≠ .registered := by
    rw [hstage]
    decide
  obtain ⟨hmem, haddr⟩ := at?_spec hat
  have hidx := hinv.indexed.addIndex hrb (index_free hinv hmem hne) addr
  have hat' : MrPool.at? { mp with pool := (mp.pool.addIndex rb addr).2 }
      addr = some elem := hat
  refine ⟨?_, placed_write hinv.placed hat' haddr,
    hidx.congr ⟨rfl, rfl, rfl, rfl⟩ fun addr' index => ?_, ?_⟩
  · rw [length_write]
    exact addIndex_numbers hinv.numbers addr
  · refine Iff.trans (registered_write_iff hinv.placed hat' haddr) ?_
    constructor
    · rintro (⟨heq, -, hindex⟩ | ⟨hold, -⟩)
      · exact Or.inl ⟨heq, hindex.symm⟩
      · exact Or.inr hold
    · rintro (⟨heq, hindex⟩ | hold)
      · exact Or.inl ⟨heq, rfl, hindex.symm⟩
      · refine Or.inr ⟨hold, ?_⟩
        rintro rfl
        exact hne ((registered_at_iff hinv.placed hat _).1 hold).1
  · intro elem' hmem' hstage'
    rcases (mem_write hinv.placed hat').1 hmem' with rfl | ⟨hold, -⟩
    · refine hinv.refs elem hmem ?_
      rw [hstage]
      decide
    · exact hinv.refs elem' hold hstage'

/-- An element loses its index. -/
theorem PoolInv.dropIndex {rb : RbOps} (hinv : PoolInv mp)
    (hrb : rb.Lawful) (hat : mp.at? addr = some elem)
    (hstage : elem.stage = .registered) :
    PoolInv (MrPool.write
      { mp with pool := mp.pool.dropIndex rb addr elem.index } addr
      fun elem => { elem with stage := .deregistering }) := by
  obtain ⟨hmem, haddr⟩ := at?_spec hat
  have hreg := fun index =>
    registered_at_iff hinv.placed hat index
  have hidx := hinv.indexed.dropIndex hrb ((hreg _).2 ⟨hstage, rfl⟩)
    fun index hindex => ((hreg index).1 hindex).2.symm
  have hat' : MrPool.at?
      { mp with pool := mp.pool.dropIndex rb addr elem.index } addr
        = some elem := hat
  refine ⟨?_, placed_write hinv.placed hat' haddr,
    hidx.congr ⟨rfl, rfl, rfl, rfl⟩ fun addr' index => ?_, ?_⟩
  · rw [length_write]
    have hnum := hinv.numbers
    exact ⟨hnum.valid, hnum.refCnt, hnum.numElem, hnum.limit, hnum.room⟩
  · refine Iff.trans (registered_write_iff hinv.placed hat' haddr) ?_
    constructor
    · rintro (⟨-, hnever, -⟩ | hold)
      · cases hnever
      · exact hold
    · exact Or.inr
  · intro elem' hmem' hstage'
    rcases (mem_write hinv.placed hat').1 hmem' with rfl | ⟨hold, -⟩
    · refine hinv.refs elem hmem ?_
      rw [hstage]
      decide
    · exact hinv.refs elem' hold hstage'

/-- How many elements are left without the one at an address. -/
theorem length_erase (hplaced : (mp.elems.map (·.addr)).Nodup)
    (hat : mp.at? addr = some elem) :
    (mp.elems.filter (·.addr ≠ addr)).length + 1 = mp.elems.length := by
  obtain ⟨hmem, haddr⟩ := at?_spec hat
  have hcount : (mp.elems.map (·.addr)).count addr = 1 :=
    List.count_eq_one_of_mem hplaced (List.mem_map.2 ⟨elem, hmem, haddr⟩)
  rw [List.count, List.countP_map] at hcount
  have hlength := List.length_eq_countP_add_countP
    (fun elem : Elem => elem.addr == addr) (l := mp.elems)
  have hrest : (mp.elems.filter (·.addr ≠ addr)).length
      = mp.elems.countP fun elem => ¬ (elem.addr == addr) = true := by
    rw [List.countP_eq_length_filter]
    simp
  have hone : mp.elems.countP (fun elem => elem.addr == addr) = 1 := hcount
  omega

/-- A reference is dropped, and the element freed with the last one. -/
theorem PoolInv.dropRef (hinv : PoolInv mp) (hat : mp.at? addr = some elem)
    {new : Elem} (haddr : new.addr = addr)
    (hlast : new.refCnt - 1 = 0 → elem.stage ≠ .registered)
    (hsame : ∀ index, (new.stage = .registered ∧ new.index = index)
      ↔ (elem.stage = .registered ∧ elem.index = index))
    (hrefs : new.stage ≠ .left → new.refCnt - 1 = new.lookups + 1) :
    PoolInv (mp.dropRef new) := by
  unfold MrPool.dropRef
  rw [haddr]
  split
  · rename_i hzero
    have hlength := length_erase hinv.placed hat
    have hnumbers := hinv.numbers
    rw [← hlength] at hnumbers
    obtain ⟨hsameIdx, hnum⟩ := elemRelease_numbers hnumbers
    refine ⟨hnum, hinv.placed.sublist (List.filter_sublist.map _),
      hinv.indexed.congr hsameIdx fun addr' index => ?_, ?_⟩
    · constructor
      · rintro ⟨old, hmem, hreg⟩
        exact ⟨old, (List.mem_filter.1 hmem).1, hreg⟩
      · rintro ⟨old, hmem, hstage, rfl, hindex⟩
        refine ⟨old, List.mem_filter.2 ⟨hmem, decide_eq_true ?_⟩, hstage,
          rfl, hindex⟩
        intro heq
        rw [eq_of_at? hinv.placed hat hmem heq] at hstage
        exact hlast hzero hstage
    · intro old hmem hstage
      exact hinv.refs old (List.mem_filter.1 hmem).1 hstage
  · exact hinv.write hat rfl hsame hrefs

end Elements

-- ================================================================= steps

section Steps

variable {rb : RbOps} {mp : MrPool}

theorem PoolInv.alloc (hinv : PoolInv mp) (addr : Nat) (zalloc : Bool) :
    PoolInv (mp.step rb (.alloc addr zalloc)) := by
  rw [MrPool.step]
  split
  · exact hinv
  · rename_i hfresh
    have hnone : ∀ elem ∈ mp.elems, elem.addr ≠ addr :=
      at?_none (Option.not_isSome_iff_eq_none.1 hfresh)
    obtain ⟨hsame, hnum⟩ := alloc_numbers zalloc hinv.numbers
    cases halloc : mp.pool.alloc zalloc with
    | mk pool got =>
      rw [halloc] at hsame hnum
      cases got with
      | false =>
        exact ⟨hnum, hinv.placed,
          hinv.indexed.congr hsame fun _ _ => Iff.rfl, hinv.refs⟩
      | true =>
        refine ⟨hnum, ?_, hinv.indexed.congr hsame fun addr' index => ?_,
          ?_⟩
        · refine List.nodup_cons.2 ⟨fun hmem => ?_, hinv.placed⟩
          obtain ⟨elem, helem, haddr⟩ := List.mem_map.1 hmem
          exact hnone elem helem haddr
        · constructor
          · rintro ⟨elem, hmem, hstage, hrest⟩
            cases List.mem_cons.1 hmem with
            | inl heq =>
              rw [heq] at hstage
              cases hstage
            | inr hold => exact ⟨elem, hold, hstage, hrest⟩
          · rintro ⟨elem, hold, hrest⟩
            exact ⟨elem, List.mem_cons_of_mem _ hold, hrest⟩
        · intro elem hmem hstage
          cases List.mem_cons.1 hmem with
          | inl heq => rw [heq]
          | inr hold => exact hinv.refs elem hold hstage

theorem PoolInv.putLookup (hinv : PoolInv mp) (addr : Nat) :
    PoolInv (mp.step rb (.putLookup addr)) := by
  rw [MrPool.step]
  cases hat : mp.at? addr with
  | none => exact hinv
  | some elem =>
    obtain ⟨hmem, haddr⟩ := at?_spec hat
    dsimp only
    split
    · exact hinv
    · rename_i hlookups
      have hrefs := hinv.refs elem hmem
      refine hinv.dropRef hat haddr ?_ (fun index => Iff.rfl) ?_
      · intro hzero hstage
        have href := hrefs (by rw [hstage]; decide)
        dsimp only at hzero
        omega
      · intro hstage
        have href := hrefs hstage
        dsimp only
        omega

theorem PoolInv.getIndex (hinv : PoolInv mp) (index : Nat) :
    PoolInv (mp.step rb (.getIndex index)) := by
  rw [MrPool.step]
  cases hget : mp.pool.getIndex index with
  | none => exact hinv
  | some addr =>
    obtain ⟨elem, hmem, -, haddr, -⟩ :=
      (hinv.indexed.getIndex hinv.numbers.valid addr index).1 hget
    have hat : mp.at? addr = some elem := by
      cases hat : mp.at? addr with
      | none => exact absurd haddr (at?_none hat elem hmem)
      | some elem' => rw [eq_of_at? hinv.placed hat hmem haddr]
    refine hinv.write hat haddr (fun index => Iff.rfl) fun hstage => ?_
    exact congrArg (· + 1) (hinv.refs elem hmem hstage)

/-- Every step keeps the relations, harmless or not. -/
theorem poolInv_step (hrb : rb.Lawful) (hinv : PoolInv mp)
    (call : PoolCall) : PoolInv (mp.step rb call) := by
  cases call with
  | alloc addr zalloc => exact hinv.alloc addr zalloc
  | getIndex index => exact hinv.getIndex index
  | putLookup addr => exact hinv.putLookup addr
  | giveUp addr =>
    rw [MrPool.step]
    split
    · rename_i hat
      refine hinv.write hat (at?_spec hat).2 (fun index => ?_) ?_
      · simp
      · exact fun hleft => absurd rfl hleft
    · exact hinv
  | addIndex addr =>
    rw [MrPool.step]
    split
    · rename_i hat
      exact hinv.addIndex hrb hat rfl
    · exact hinv
  | dropIndex addr =>
    rw [MrPool.step]
    split
    · rename_i hat
      exact hinv.dropIndex hrb hat rfl
    · exact hinv
  | dropRef addr =>
    rw [MrPool.step]
    split
    · rename_i hat
      refine hinv.dropRef hat (at?_spec hat).2 (fun _ => ?_)
        (fun index => ?_) ?_
      · intro hreg
        cases hreg
      · simp
      · exact fun hleft => absurd rfl hleft
    · exact hinv

end Steps

-- =========================================================== whole runs

section Runs

variable {rb : RbOps} {mp : MrPool}

/-- No registration or deregistration of the element is under way. -/
def Elem.Settled (elem : Elem) : Prop :=
  elem.stage = .registered ∨ elem.stage = .left

/-- The bookkeeping is right: the count, the indices, the table, the tree
and the lookups all tell of the same elements. -/
structure MrPool.Consistent (mp : MrPool) : Prop where
  counted : mp.pool.numElem = mp.elems.length
  limit : mp.pool.numElem ≤ mp.pool.maxElem
  range : ∀ elem ∈ mp.elems, elem.Settled →
    mp.pool.minIndex ≤ elem.index ∧ elem.index ≤ mp.pool.maxIndex
  distinct : ∀ elem ∈ mp.elems, ∀ elem' ∈ mp.elems,
    elem.Settled → elem'.Settled → elem.index = elem'.index → elem = elem'
  bits : ∀ i, mp.pool.table i = true
    ↔ ∃ addr, (addr, i + mp.pool.minIndex) ∈ treeElems mp.pool.tree
  ordered : (treeElems mp.pool.tree).Pairwise fun a b => a.2 < b.2
  lookup : ∀ index addr, mp.pool.getIndex index = some addr
    ↔ ∃ elem ∈ mp.elems,
      elem.Settled ∧ elem.addr = addr ∧ elem.index = index

/-- No element was left behind. -/
def MrPool.Kept (mp : MrPool) : Prop :=
  ∀ elem ∈ mp.elems, elem.stage ≠ .left

/-- The bookkeeping is right as long as no element stays behind. -/
theorem consistent_iff (hinv : PoolInv mp) :
    mp.Consistent ↔ mp.Kept := by
  have hget := fun index addr =>
    hinv.indexed.getIndex hinv.numbers.valid addr index
  constructor
  · intro hcons elem hmem hleft
    have hfound := (hcons.lookup elem.index elem.addr).2
      ⟨elem, hmem, Or.inr hleft, rfl, rfl⟩
    obtain ⟨elem', hmem', hstage, haddr, -⟩ :=
      (hget elem.index elem.addr).1 hfound
    rw [List.inj_on_of_nodup_map hinv.placed hmem' hmem haddr, hleft]
      at hstage
    cases hstage
  · intro hnone
    have hreg : ∀ elem ∈ mp.elems, elem.Settled →
        mp.Registered elem.addr elem.index := by
      rintro elem hmem (hstage | hleft)
      · exact ⟨elem, hmem, hstage, rfl, rfl⟩
      · exact absurd hleft (hnone elem hmem)
    refine ⟨hinv.numbers.numElem, ?_, fun elem hmem hsettled => ?_,
      fun elem hmem elem' hmem' hsettled hsettled' heq => ?_, fun i => ?_,
      ordered_iff_treeElems.1 hinv.indexed.ordered, fun index addr => ?_⟩
    · rw [hinv.numbers.numElem]
      exact hinv.numbers.limit
    · exact hinv.indexed.range _ _ (hreg elem hmem hsettled)
    · have hR := hreg elem hmem hsettled
      rw [heq] at hR
      exact List.inj_on_of_nodup_map hinv.placed hmem hmem'
        (hinv.indexed.addr_eq hR (hreg elem' hmem' hsettled'))
    · rw [hinv.indexed.bits i]
      exact exists_congr fun addr => (hinv.indexed.hung addr _).symm
    · rw [hget]
      constructor
      · rintro ⟨elem, hmem, hstage, haddr, hindex⟩
        exact ⟨elem, hmem, Or.inl hstage, haddr, hindex⟩
      · rintro ⟨elem, hmem, hsettled, rfl, rfl⟩
        exact hreg elem hmem hsettled

/-- A step that leaves no element behind: no registration returns after
`bxroce_alloc`, and no region is deregistered while a lookup holds on to
it. -/
def MrPool.Harmless (mp : MrPool) : PoolCall → Prop
  | .giveUp addr =>
      ∀ elem, mp.at? addr = some elem → elem.stage ≠ .registering
  | .dropRef addr =>
      ∀ elem, mp.at? addr = some elem → elem.stage = .deregistering →
        elem.lookups = 0
  | _ => True

theorem kept_write (hkept : mp.Kept) {addr : Nat} {f : Elem → Elem}
    (hf : ∀ elem, elem.stage ≠ .left → (f elem).stage ≠ .left) :
    (mp.write addr f).Kept := by
  intro elem' hmem
  obtain ⟨elem, hold, rfl⟩ := List.mem_map.1 hmem
  split
  · exact hf elem (hkept elem hold)
  · exact hkept elem hold

theorem kept_write_iff (hplaced : (mp.elems.map (·.addr)).Nodup)
    (hkept : mp.Kept) {addr : Nat} {elem : Elem} {f : Elem → Elem}
    (hat : mp.at? addr = some elem) :
    (mp.write addr f).Kept ↔ (f elem).stage ≠ .left := by
  constructor
  · intro hall
    exact hall _ ((mem_write hplaced hat).2 (Or.inl rfl))
  · intro hstage elem' hmem
    rcases (mem_write hplaced hat).1 hmem with rfl | ⟨hold, -⟩
    · exact hstage
    · exact hkept elem' hold

theorem kept_dropRef_iff (hplaced : (mp.elems.map (·.addr)).Nodup)
    (hkept : mp.Kept) {elem new : Elem}
    (hat : mp.at? new.addr = some elem) :
    (mp.dropRef new).Kept ↔ (new.stage ≠ .left ∨ new.refCnt - 1 = 0) := by
  unfold MrPool.dropRef
  split
  · rename_i hzero
    exact ⟨fun _ => Or.inr hzero,
      fun _ elem' hmem => hkept elem' (List.mem_filter.1 hmem).1⟩
  · rename_i hpos
    rw [kept_write_iff hplaced hkept hat]
    exact ⟨Or.inl, fun h => h.resolve_right hpos⟩

/-- From a pool where nothing was left behind, a step leaves nothing
behind exactly when it is harmless. -/
theorem kept_step_iff (hinv : PoolInv mp) (hkept : mp.Kept)
    (call : PoolCall) :
    (mp.step rb call).Kept ↔ mp.Harmless call := by
  have hplaced := hinv.placed
  cases call with
  | alloc addr zalloc =>
    refine iff_of_true ?_ trivial
    rw [MrPool.step]
    split
    · exact hkept
    · split
      · exact hkept
      · intro elem hmem
        cases List.mem_cons.1 hmem with
        | inl heq =>
          rw [heq]
          exact Stage.noConfusion
        | inr hold => exact hkept elem hold
  | giveUp addr =>
    rw [MrPool.step]
    split
    · rename_i hat
      rw [kept_write_iff hplaced hkept hat]
      exact iff_of_false (fun hne => hne rfl) fun hnever =>
        hnever _ hat rfl
    · rename_i hnot
      refine iff_of_true hkept fun elem hat hstage => ?_
      cases elem
      dsimp only at hstage
      subst hstage
      exact hnot _ _ _ _ hat
  | addIndex addr =>
    refine iff_of_true ?_ trivial
    rw [MrPool.step]
    split
    · exact kept_write hkept fun _ _ => Stage.noConfusion
    · exact hkept
  | getIndex index =>
    refine iff_of_true ?_ trivial
    rw [MrPool.step]
    split
    · exact kept_write hkept fun _ hstage => hstage
    · exact hkept
  | putLookup addr =>
    refine iff_of_true ?_ trivial
    rw [MrPool.step]
    split
    · rename_i elem hat
      split
      · exact hkept
      · obtain ⟨hmem, haddr⟩ := at?_spec hat
        let new : Elem := { elem with lookups := elem.lookups - 1 }
        have hold : mp.at? new.addr = some elem := haddr.symm ▸ hat
        exact (kept_dropRef_iff hplaced hkept hold).2
          (Or.inl (hkept elem hmem))
    · exact hkept
  | dropIndex addr =>
    refine iff_of_true ?_ trivial
    rw [MrPool.step]
    split
    · exact kept_write hkept fun _ _ => Stage.noConfusion
    · exact hkept
  | dropRef addr =>
    rw [MrPool.step]
    split
    · rename_i addr' index refCnt lookups hat
      obtain ⟨hmem, rfl⟩ := at?_spec hat
      have href := hinv.refs _ hmem Stage.noConfusion
      dsimp only at hat href
      rw [kept_dropRef_iff hplaced hkept hat, href, Nat.add_sub_cancel]
      constructor
      · intro hgone elem hat' _
        rw [hat] at hat'
        cases hat'
        exact hgone.resolve_left fun hne => hne rfl
      · intro hlookups
        exact Or.inr (hlookups _ hat rfl)
    · rename_i hnot
      refine iff_of_true hkept fun elem hat hstage => ?_
      cases elem
      dsimp only at hstage
      subst hstage
      exact absurd hat (hnot _ _ _ _)

/-- The pool of memory regions as `bxroce_init_pools` leaves it. -/
def MrPool.Fresh (mp : MrPool) : Prop :=
  ∃ maxElem, Pool.initMr maxElem = some mp.pool ∧ mp.elems = []

theorem poolInv_fresh (hfresh : mp.Fresh) : PoolInv mp := by
  obtain ⟨maxElem, hinit, hnil⟩ := hfresh
  cases mp with
  | mk pool elems =>
    dsimp only at hinit hnil
    subst hnil
    rw [Pool.initMr, Pool.initIndex] at hinit
    split at hinit
    · cases hinit
    · rename_i hroom
      cases hinit
      refine ⟨⟨rfl, rfl, rfl, Nat.zero_le _, Nat.not_lt.1 hroom⟩,
        List.nodup_nil, ?_, fun elem hmem => absurd hmem List.not_mem_nil⟩
      have hminmax : 1 ≤ 0x40000 := by decide
      refine ⟨hminmax, List.Pairwise.nil, fun addr index => ?_,
        fun i => ?_, ?_⟩
      · refine iff_of_false List.not_mem_nil ?_
        rintro ⟨elem, hmem, -⟩
        exact List.not_mem_nil hmem
      · refine iff_of_false Bool.false_ne_true ?_
        rintro ⟨addr, elem, hmem, -⟩
        exact List.not_mem_nil hmem
      · rintro addr index ⟨elem, hmem, -⟩
        exact absurd hmem List.not_mem_nil

/-- Exactly which runs keep the books of the pool. -/
theorem pool_consistent_iff (hrb : rb.Lawful) (hfresh : mp.Fresh)
    {calls : List PoolCall} :
    Run.Always (MrPool.step rb) MrPool.Consistent mp calls
      ↔ Run.Each (MrPool.step rb) MrPool.Harmless mp calls := by
  refine Run.always_iff_each_of_inv (I := PoolInv)
    (fun mp call hinv => poolInv_step hrb hinv call)
    (fun mp call hinv hcons => ?_) (poolInv_fresh hfresh) ?_
  · rw [consistent_iff (poolInv_step hrb hinv call)]
    exact kept_step_iff hinv ((consistent_iff hinv).1 hcons) call
  · rw [consistent_iff (poolInv_fresh hfresh)]
    obtain ⟨maxElem, -, hnil⟩ := hfresh
    intro elem hmem
    rw [hnil] at hmem
    exact absurd hmem List.not_mem_nil

/-- Nodes in a row, each the right child of the one before. -/
def rowOf : List RbNode → BinaryTree RbNode
  | [] => .nil
  | node :: rest => .node node .nil (rowOf rest)

theorem inorder_rowOf (nodes : List RbNode) :
    SearchTree.inorder (rowOf nodes) = nodes := by
  induction nodes with
  | nil => rfl
  | cons node rest ih => exact congrArg (node :: ·) ih

/-- A tree that is not balanced: its root is black, and a node is erased
by putting the others in a row. -/
def rowOps : RbOps where
  insertColor _ tree := match tree with
    | .nil => .nil
    | .node node l r => .node { node with red := false } l r
  erase addr tree :=
    rowOf ((SearchTree.inorder tree).filter (·.addr ≠ addr))

theorem rowOps_lawful : rowOps.Lawful where
  insertColor addr tree := by
    cases tree with
    | nil => rfl
    | node node l r =>
      simp only [rowOps, treeElems, SearchTree.inorder_node,
        List.map_append, List.map_cons]
  erase addr tree := by
    simp only [rowOps, treeElems, inorder_rowOf, List.filter_map]
    rfl

/-- The pool of a device that has been probed. -/
def probedMrPool : MrPool :=
  ⟨(Pool.initMr 0x40000).getD (Pool.init 0), []⟩

theorem probedMrPool_fresh : probedMrPool.Fresh := ⟨0x40000, rfl, rfl⟩

/-- A region is registered, looked up and deregistered. -/
theorem pool_consistent_once :
    Run.Always (MrPool.step rowOps) MrPool.Consistent probedMrPool
      [.alloc 0 true, .addIndex 0, .getIndex 1, .putLookup 0,
        .dropIndex 0, .dropRef 0] := by
  refine (pool_consistent_iff rowOps_lawful probedMrPool_fresh).2
    ⟨trivial, trivial, trivial, trivial, trivial, ?_, trivial⟩
  intro elem hat _
  cases hat
  rfl

/-- A registration whose request cannot be copied leaves an element
without an index. -/
theorem index_outside_after_give_up :
    ¬ Run.Always (MrPool.step rowOps) MrPool.Consistent probedMrPool
      [.alloc 0 true, .giveUp 0] := by
  intro halways
  obtain ⟨hmin, -⟩ := halways.last.range ⟨0, 0, 1, .left, 0⟩
    List.mem_cons_self (Or.inr rfl)
  exact absurd hmin (by decide)

end Runs

end BxRnic.Kernel
