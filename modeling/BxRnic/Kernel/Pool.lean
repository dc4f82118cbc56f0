/-
The pools of objects (bx_roce_driver/bxroce_pool.c): the count of the
elements and its limit, the indices, the tree they are looked up in, and
the references on an element. The pool of memory regions is the one with
indices.

# The tree

It is the kernel's red-black tree. The pool walks it itself, to hang a
node and to look one up; `rb_insert_color` and `rb_erase`, which recolour
and rotate, are a parameter (`RbOps`). All the pool relies on is that
they leave the nodes in order: `RbOps.Lawful`.

A node is part of its element. `elem->index` is written once, before the
node is hung, and is kept with the node here.

# Who uses the pool

`MrPool` is the pool with the elements there are, and a step is one call
of the pool by the code of the memory regions (bxroce_verbs.c). A
registration allocates an element, may leave with an error when it cannot
copy its request, and gives the element an index; its error path and the
deregistration drop the index and then the reference. A lookup by index
takes a reference, which is dropped in its turn.

The stage of an element tells where its calls are. It is read by no
function of the pool; it says which calls can come next.
-/
import Mathlib.Data.Nat.Basic
import BxRnic.Lib.Bitmap
import BxRnic.Lib.SearchTree

namespace BxRnic.Kernel

-- ============================================================== the pool

/-- `struct bxroce_pool_entry` in the tree: the element's address and its
index, and the colour of the node. -/
structure RbNode where
  addr : Nat
  index : Nat
  red : Bool
deriving DecidableEq

/-- `struct bxroce_pool` -/
structure Pool where
  /-- `state == BXROCE_POOL_STATE_VALID` -/
  valid : Bool
  refCnt : Nat
  maxElem : Nat
  numElem : Nat
  tree : BinaryTree RbNode
  table : Bitmap
  minIndex : Nat
  maxIndex : Nat
  last : Nat

/-- The kernel's part of the tree. -/
structure RbOps where
  /-- `rb_insert_color`, of the node of an element. -/
  insertColor : Nat → BinaryTree RbNode → BinaryTree RbNode
  /-- `rb_erase` -/
  erase : Nat → BinaryTree RbNode → BinaryTree RbNode

/-- The elements of a tree in order, with their indices. -/
def treeElems (tree : BinaryTree RbNode) : List (Nat × Nat) :=
  (SearchTree.inorder tree).map fun node => (node.addr, node.index)

/-- Colours and shape are all that changes, and the node erased is gone. -/
structure RbOps.Lawful (rb : RbOps) : Prop where
  insertColor : ∀ addr tree,
    treeElems (rb.insertColor addr tree) = treeElems tree
  erase : ∀ addr tree,
    treeElems (rb.erase addr tree)
      = (treeElems tree).filter fun elem => elem.1 ≠ addr

/-- `bxroce_pool_init_index`, up to the table; none is `-EINVAL`. -/
def Pool.initIndex (pool : Pool) (max min : Nat) : Option Pool :=
  if max - min + 1 < pool.maxElem then none
  else
    some { pool with
      maxIndex := max
      minIndex := min
      table := fun _ => false }

/-- `bxroce_pool_init`, of a pool without indices. -/
def Pool.init (maxElem : Nat) : Pool where
  valid := true
  refCnt := 1
  maxElem := maxElem
  numElem := 0
  tree := .nil
  table _ := false
  minIndex := 0
  maxIndex := 0
  last := 0

/-- `bxroce_pool_init` of `BXROCE_TYPE_MR`. -/
def Pool.initMr (maxElem : Nat) : Option Pool :=
  -- BXROCE_MAX_MR_INDEX and BXROCE_MIN_MR_INDEX
  (Pool.init maxElem).initIndex 0x40000 1

/-- `bxroce_pool_put`, with `bxroce_pool_release` -/
def Pool.put (pool : Pool) : Pool :=
  { pool with
    refCnt := pool.refCnt - 1
    valid := if pool.refCnt - 1 = 0 then false else pool.valid }

/-- `bxroce_alloc`: whether it returns an element. -/
def Pool.alloc (zalloc : Bool) (pool : Pool) : Pool × Bool :=
  if !pool.valid then (pool, false)
  else
    let pool := { pool with refCnt := pool.refCnt + 1 }
    let pool := { pool with numElem := pool.numElem + 1 }
    if pool.numElem > pool.maxElem ∨ zalloc = false then
      (Pool.put { pool with numElem := pool.numElem - 1 }, false)
    else (pool, true)

/-- `bxroce_elem_release`, without the element's own cleanup. -/
def Pool.elemRelease (pool : Pool) : Pool :=
  Pool.put { pool with numElem := pool.numElem - 1 }

/-- `alloc_index` -/
def Pool.allocIndex (pool : Pool) : Nat × Pool :=
  let range := pool.maxIndex - pool.minIndex + 1
  let index := Bitmap.findNextZeroBit pool.table range pool.last
  let index :=
    if index ≥ range then Bitmap.findFirstZeroBit pool.table range
    else index
  (index + pool.minIndex,
    { pool with
      table := Bitmap.setBit pool.table index
      last := index })

/-- `insert_index` -/
def Pool.insertIndex (rb : RbOps) (pool : Pool) (addr index : Nat) : Pool :=
  match SearchTree.link RbNode.index ⟨addr, index, true⟩ pool.tree with
  | none => pool
  | some tree => { pool with tree := rb.insertColor addr tree }

/-- `bxroce_add_index`: the index, and the pool. -/
def Pool.addIndex (rb : RbOps) (pool : Pool) (addr : Nat) : Nat × Pool :=
  let (index, pool) := pool.allocIndex
  (index, pool.insertIndex rb addr index)

/-- `bxroce_drop_index` -/
def Pool.dropIndex (rb : RbOps) (pool : Pool) (addr index : Nat) : Pool :=
  { pool with
    table := Bitmap.clearBit pool.table (index - pool.minIndex)
    tree := rb.erase addr pool.tree }

/-- `bxroce_pool_get_index`, without the reference it takes. -/
def Pool.getIndex (pool : Pool) (index : Nat) : Option Nat :=
  if !pool.valid then none
  else (SearchTree.find? RbNode.index index pool.tree).map (·.addr)

-- ========================================================== the elements

/-- Where the calls on an element are. -/
inductive Stage
  /-- Allocated, without an index yet. -/
  | registering
  /-- It has its index. -/
  | registered
  /-- Its index was dropped, the reference comes next. -/
  | deregistering
  /-- No call is to come, and the element is still there. -/
  | left
deriving DecidableEq

/-- An element of the pool, less its payload. -/
structure Elem where
  addr : Nat
  index : Nat
  refCnt : Nat
  stage : Stage
  /-- The references of lookups that were not dropped yet. -/
  lookups : Nat
deriving DecidableEq

/-- The pool of memory regions and the elements there are. -/
structure MrPool where
  pool : Pool
  elems : List Elem

/-- The element at an address. -/
def MrPool.at? (mp : MrPool) (addr : Nat) : Option Elem :=
  mp.elems.find? (·.addr = addr)

/-- An element is written. -/
def MrPool.write (mp : MrPool) (addr : Nat) (f : Elem → Elem) : MrPool :=
  { mp with
    elems := mp.elems.map fun elem => if elem.addr = addr then f elem
      else elem }

/-- `kref_put` with `bxroce_elem_release`, of an element whose calls are
then at `stage`. -/
def MrPool.dropRef (mp : MrPool) (elem : Elem) : MrPool :=
  if elem.refCnt - 1 = 0 then
    ⟨mp.pool.elemRelease, mp.elems.filter (·.addr ≠ elem.addr)⟩
  else
    mp.write elem.addr fun _ => { elem with refCnt := elem.refCnt - 1 }

/-- A call of the pool. -/
inductive PoolCall
  /-- `bxroce_alloc`, with an element at `addr` if it gets one. -/
  | alloc (addr : Nat) (zalloc : Bool)
  /-- `bxroce_reg_user_mr` returns after `bxroce_alloc`: it could not copy
  its request. -/
  | giveUp (addr : Nat)
  /-- `bxroce_add_index` -/
  | addIndex (addr : Nat)
  /-- `bxroce_pool_get_index` -/
  | getIndex (index : Nat)
  /-- A reference of a lookup is dropped. -/
  | putLookup (addr : Nat)
  /-- `bxroce_drop_index` -/
  | dropIndex (addr : Nat)
  /-- `bxroce_drop_ref`, which a registration or a deregistration ends
  with. -/
  | dropRef (addr : Nat)

/-- One call. A call that cannot come now does nothing. -/
def MrPool.step (rb : RbOps) (mp : MrPool) : PoolCall → MrPool
  | .alloc addr zalloc =>
      -- an element is not where another one is
      if (mp.at? addr).isSome then mp
      else
        match mp.pool.alloc zalloc with
        | (pool, false) => { mp with pool := pool }
        | (pool, true) =>
            -- `kmem_cache_zalloc` and `kref_init`
            ⟨pool, ⟨addr, 0, 1, .registering, 0⟩ :: mp.elems⟩
  | .giveUp addr =>
      match mp.at? addr with
      | some ⟨_, _, _, .registering, _⟩ =>
          mp.write addr fun elem => { elem with stage := .left }
      | _ => mp
  | .addIndex addr =>
      match mp.at? addr with
      | some ⟨_, _, _, .registering, _⟩ =>
          let (index, pool) := mp.pool.addIndex rb addr
          MrPool.write { mp with pool := pool } addr fun elem =>
            { elem with index := index, stage := .registered }
      | _ => mp
  | .getIndex index =>
      match mp.pool.getIndex index with
      | some addr =>
          -- `kref_get`
          mp.write addr fun elem =>
            { elem with
              refCnt := elem.refCnt + 1, lookups := elem.lookups + 1 }
      | none => mp
  | .putLookup addr =>
      match mp.at? addr with
      | some elem =>
          if elem.lookups = 0 then mp
          else mp.dropRef { elem with lookups := elem.lookups - 1 }
      | none => mp
  | .dropIndex addr =>
      match mp.at? addr with
      | some ⟨_, index, _, .registered, _⟩ =>
          MrPool.write { mp with pool := mp.pool.dropIndex rb addr index }
            addr fun elem => { elem with stage := .deregistering }
      | _ => mp
  | .dropRef addr =>
      match mp.at? addr with
      | some ⟨addr, index, refCnt, .deregistering, lookups⟩ =>
          mp.dropRef ⟨addr, index, refCnt, .left, lookups⟩
      | _ => mp

end BxRnic.Kernel
