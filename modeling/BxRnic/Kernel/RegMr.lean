/-
Registering user memory (bx_roce_driver/bxroce_pool.c): the walk over
the DMA addresses of the pinned pages that fills in the table the
library is answered with.

The pages are pinned and mapped by the kernel's `ib_umem_get`; what it
returns, and whether the allocations and the copy to user space succeed,
are arguments. The driver's own list of the pages, which the same loop
fills in, is in Kernel/MrMap.
-/
import BxRnic.Hw

namespace BxRnic.Kernel

-- ============================================================ the argument

/-- An entry of the scatter list: `sg_dma_address` and `sg_dma_len`. -/
structure Sg where
  dmaAddress : U64
  dmaLen : U32
deriving DecidableEq

/-- `struct ib_umem`, as far as registration reads it; `sgl` are the
`nmap` mapped entries. -/
structure Umem where
  address : U64
  pageShift : Nat
  hugetlb : Bool
  sgl : List Sg

/-- `ib_umem_offset` -/
def Umem.offset (umem : Umem) : Nat :=
  umem.address.toNat % 2 ^ umem.pageShift

/-- What a registration is asked for and runs into. -/
structure RegMrCall where
  start : U64
  length : U64
  /-- What `ib_umem_get` returns. -/
  umem : Option Umem
  /-- `bxroce_mem_alloc` finds memory. -/
  allocOk : Bool
  /-- The answer can be copied to user space. -/
  copyOk : Bool

-- ============================================================== the answer

/-- `MAX_SG_NUM` -/
def MAX_SG_NUM : Nat := 128

/-- `BXROCE_HUGEPAGE_SIZE` -/
def BXROCE_HUGEPAGE_SIZE : U64 := 0x200000

/-- One element of `sg_phy_addr` and of `sg_phy_size`. -/
structure SgPhy where
  addr : U64
  size : U32
deriving DecidableEq

/-- `struct bxroce_reg_mr_uresp`: `sg` are the elements of the two
arrays that were filled in, the first `sg_phy_num`. -/
structure RegMrUresp where
  sg : List SgPhy
  offset : U32

/-- `sg_phy_num` -/
def RegMrUresp.sgPhyNum (uresp : RegMrUresp) : Nat := uresp.sg.length

-- ================================================================ the walk

/-- The loop of `bxroce_mem_init_user` over the scatter list. `sg` has
been filled in so far; a `break` ends the walk. -/
def walkSgl (hugetlb : Bool) :
    List Sg → List SgPhy → (memsize leftsize : U64) → List SgPhy
  | [], sg, _, _ => sg
  | e :: sgl, sg, memsize, leftsize =>
      let buf := e.dmaAddress
      let len := e.dmaLen.setWidth 64
      let next := fun sg : List SgPhy =>
        walkSgl hugetlb sgl sg (memsize + len) (leftsize - len)
      if hugetlb then
        -- a huge page's worth, taken at its first entry
        let whole := memsize % BXROCE_HUGEPAGE_SIZE = 0
          ∧ leftsize ≥ BXROCE_HUGEPAGE_SIZE
        if whole ∧ sg.length ≥ MAX_SG_NUM then sg
        else
          let sg :=
            if whole then
              sg ++ [⟨buf, (if leftsize > BXROCE_HUGEPAGE_SIZE then
                BXROCE_HUGEPAGE_SIZE else leftsize).setWidth 32⟩]
            else sg
          if (memsize % BXROCE_HUGEPAGE_SIZE + leftsize)
              / BXROCE_HUGEPAGE_SIZE = 0 then
            if sg.length ≥ MAX_SG_NUM then sg
            else sg ++ [⟨buf, leftsize.setWidth 32⟩]
          else next sg
      else if sg.length ≥ MAX_SG_NUM then sg
      else
        next (sg ++ [⟨buf, (if leftsize > len then len
          else leftsize).setWidth 32⟩])

/-- `bxroce_mem_init_user`. A walk that breaks off because the table is
full goes on like any other. -/
def memInitUser (call : RegMrCall) : Int × RegMrUresp :=
  match call.umem with
  | none => (-EINVAL, ⟨[], 0⟩)
  | some umem =>
      if call.allocOk = false then (-ENOMEM, ⟨[], 0⟩)
      else
        let sg :=
          if call.length > 0 then
            walkSgl umem.hugetlb umem.sgl [] 0 call.length
          else []
        let uresp := ⟨sg, BitVec.ofNat 32 umem.offset⟩
        if call.copyOk then (0, uresp) else (-EINVAL, uresp)

end BxRnic.Kernel
