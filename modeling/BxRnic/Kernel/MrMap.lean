/-
The driver's own list of a region's pages, and who frees what of a
registration (bx_roce_driver/bxroce_pool.c, bxroce_verbs.c).

# The list

`mr->map` is an array of pointers to blocks of 256 buffers, with one
block for each 256 entries of the scatter list, or part of them. The loop
of `bxroce_mem_init_user` that answers the library (Kernel/RegMr) also
walks through these blocks, one buffer an entry. Where it is, it knows
three times: the element of the array (`map`), the buffer (`buf`), and
how many buffers of the block were written (`num_buf`).

# The resources

A registration takes a pool element, an index, a reference on the PD, the
pinned pages, the array and the blocks. `bxroce_mem_alloc` frees the array
and the blocks when one of them is refused, `bxroce_mem_init_user` unpins
the pages then, and the error path of `bxroce_reg_user_mr` drops the
references; with the element's last one, `bxroce_mem_cleanup` frees what
the element holds. What the calls of the kernel answer is an argument.
-/
import BxRnic.Kernel.RegMr
import BxRnic.Kernel.Resources
import BxRnic.Lib.Ledger

namespace BxRnic.Kernel

-- ============================================================== the list

/-- `struct bxroce_phys_buf` -/
structure PhysBuf where
  addr : U64
  size : U64
deriving DecidableEq

/-- `BXROCE_BUF_PER_MAP`, of pages of 4096 bytes. -/
def BXROCE_BUF_PER_MAP : Nat := 256

/-- `num_map`, for so many buffers. -/
def numMap (numBuf : Nat) : Nat :=
  (numBuf + BXROCE_BUF_PER_MAP - 1) / BXROCE_BUF_PER_MAP

/-- A buffer of the list: `map[map]->buf[buf]`. -/
structure MapSlot where
  map : Nat
  buf : Nat
deriving DecidableEq

/-- The loop of `bxroce_mem_init_user` on its way, with what it has
touched. -/
structure MapLoop where
  /-- `map - mr->map` -/
  map : Nat
  buf : MapSlot
  numBuf : Nat
  /-- The segments in `uresp`, `i` of them. -/
  sg : List SgPhy
  memsize : U64
  leftsize : U64
  /-- The elements of `mr->map` that were read. -/
  reads : List Nat
  /-- The buffers that were written. -/
  writes : List (MapSlot × PhysBuf)

/-- `buf->addr` and `buf->size` -/
def MapLoop.write (st : MapLoop) (buf : PhysBuf) : MapLoop :=
  { st with writes := st.writes ++ [(st.buf, buf)] }

/-- A segment joins `uresp`. -/
def MapLoop.push (st : MapLoop) (addr size : U64) : MapLoop :=
  { st with sg := st.sg ++ [⟨addr, size.setWidth 32⟩] }

/-- What is done for `uresp` at an entry, and whether the loop breaks off
there. -/
def MapLoop.answer (hugetlb : Bool) (e : Sg) (st : MapLoop) :
    MapLoop × Bool :=
  let len := e.dmaLen.setWidth 64
  if hugetlb then
    let whole := st.memsize % BXROCE_HUGEPAGE_SIZE = 0
      ∧ st.leftsize ≥ BXROCE_HUGEPAGE_SIZE
    if whole ∧ st.sg.length ≥ MAX_SG_NUM then (st, true)
    else
      let st :=
        if whole then
          st.push e.dmaAddress
            (if st.leftsize > BXROCE_HUGEPAGE_SIZE then
              BXROCE_HUGEPAGE_SIZE else st.leftsize)
        else st
      if (st.memsize % BXROCE_HUGEPAGE_SIZE + st.leftsize)
          / BXROCE_HUGEPAGE_SIZE = 0 then
        if st.sg.length ≥ MAX_SG_NUM then (st, true)
        else (st.push e.dmaAddress st.leftsize, true)
      else (st, false)
  else if st.sg.length ≥ MAX_SG_NUM then (st, true)
  else
    (st.push e.dmaAddress (if st.leftsize > len then len else st.leftsize),
      false)

/-- The end of an iteration: on to the next buffer, of the next block if
this one is full. -/
def MapLoop.next (e : Sg) (st : MapLoop) : MapLoop :=
  let len := e.dmaLen.setWidth 64
  let st :=
    { st with
      memsize := st.memsize + len
      leftsize := st.leftsize - len
      numBuf := st.numBuf + 1
      buf := { st.buf with buf := st.buf.buf + 1 } }
  if st.numBuf ≥ BXROCE_BUF_PER_MAP then
    { st with
      map := st.map + 1
      reads := st.reads ++ [st.map + 1]
      buf := ⟨st.map + 1, 0⟩
      numBuf := 0 }
  else st

/-- `for_each_sg` -/
def MapLoop.record (hugetlb : Bool) (pageShift : Nat) :
    List Sg → MapLoop → MapLoop
  | [], st => st
  | e :: sgl, st =>
      match (st.write ⟨e.dmaAddress, 1 <<< pageShift⟩).answer hugetlb e with
      | (st, true) => st
      | (st, false) => record hugetlb pageShift sgl (st.next e)

/-- The part of `bxroce_mem_init_user` that fills in `mr->map`. -/
def recordMap (umem : Umem) (length : U64) : MapLoop :=
  if length > 0 then
    MapLoop.record umem.hugetlb umem.pageShift umem.sgl
      ⟨0, ⟨0, 0⟩, 0, [], 0, length, [0], []⟩
  else ⟨0, ⟨0, 0⟩, 0, [], 0, length, [], []⟩

-- ======================================================== the resources

/-- What a registration takes. -/
inductive MrResource
  | elem
  | index
  | pdRef
  | umem
  | mapArray
  | map (i : Nat)
deriving DecidableEq

/-- What a registration runs into. -/
structure RegEnv where
  /-- `bxroce_alloc` returns an element. -/
  elemOk : Bool
  /-- A request comes with the call. -/
  udata : Bool
  /-- `ib_copy_from_udata` succeeds. -/
  requestOk : Bool
  /-- `ib_umem_get`: the number of entries it has mapped. -/
  nmap : Option Nat
  /-- `kmalloc_array` finds memory. -/
  arrayOk : Bool
  /-- `kmalloc` finds memory for this block. -/
  mapOk : Nat → Bool
  /-- The answer can be copied to user space. -/
  copyOk : Bool

/-- The parts of `struct bxroce_mr` that `bxroce_mem_cleanup` looks at. -/
structure MrHeld where
  umem : Bool
  map : Bool
  numMap : Nat
deriving DecidableEq

/-- The zeroed structure. -/
def MrHeld.zero : MrHeld := ⟨false, false, 0⟩

/-- `for (i--; i >= 0; i--)`: the blocks below `i`. -/
def freeBelow : (i : Nat) → Ledger MrResource → Ledger MrResource
  | 0, l => l
  | i + 1, l => freeBelow i (l.release (.map i))

/-- The blocks from `i` on, `left` of them: none is refused, or number
`n` is. -/
def allocMaps (mapOk : Nat → Bool) :
    (left i : Nat) → Ledger MrResource → Ledger MrResource × Option Nat
  | 0, _, l => (l, none)
  | left + 1, i, l =>
      if mapOk i then allocMaps mapOk left (i + 1) (l.acquire (.map i))
      else (l, some i)

/-- `bxroce_mem_alloc` -/
def memAlloc (env : RegEnv) (numBuf : Nat) (l : Ledger MrResource)
    (mr : MrHeld) : Int × Ledger MrResource × MrHeld :=
  if env.arrayOk = false then (-ENOMEM, l, { mr with map := false })
  else
    let l := l.acquire .mapArray
    let mr := { mr with map := true }
    match allocMaps env.mapOk (numMap numBuf) 0 l with
    | (l, some i) => (-ENOMEM, (freeBelow i l).release .mapArray, mr)
    | (l, none) => (0, l, { mr with numMap := numMap numBuf })

/-- `bxroce_mem_init_user`, as far as it takes and frees. -/
def memInitUserHeld (env : RegEnv) (l : Ledger MrResource) (mr : MrHeld) :
    Int × Ledger MrResource × MrHeld :=
  match env.nmap with
  | none => (-EINVAL, l, mr)
  | some nmap =>
      let l := l.acquire .umem
      let mr := { mr with umem := true }
      match memAlloc env nmap l mr with
      | (err, l, mr) =>
          if err ≠ 0 then (err, l.release .umem, mr)
          else if env.udata ∧ env.copyOk = false then (-EINVAL, l, mr)
          else (0, l, mr)

/-- The loop of `bxroce_mem_cleanup`: the blocks from `i` on, `left` of
them. -/
def freeMaps : (left i : Nat) → Ledger MrResource → Ledger MrResource
  | 0, _, l => l
  | left + 1, i, l => freeMaps left (i + 1) (l.release (.map i))

/-- `bxroce_mem_cleanup` -/
def memCleanup (l : Ledger MrResource) (mr : MrHeld) :
    Ledger MrResource :=
  let l := if mr.umem then l.release .umem else l
  if mr.map then (freeMaps mr.numMap 0 l).release .mapArray else l

/-- `bxroce_reg_user_mr`: the status and what was taken and freed. -/
def regUserMr (env : RegEnv) : Int × Ledger MrResource :=
  if env.elemOk = false then (-ENOMEM, .empty)
  else
    -- `kmem_cache_zalloc`
    let l := Ledger.empty.acquire .elem
    if env.udata ∧ env.requestOk = false then (-EFAULT, l)
    else
      let l := (l.acquire .index).acquire .pdRef
      match memInitUserHeld env l .zero with
      | (status, l, mr) =>
          if status ≠ 0 then
            let l := (l.release .pdRef).release .index
            -- the last reference: `bxroce_elem_release`
            (status, (memCleanup l mr).release .elem)
          else (0, l)

end BxRnic.Kernel
