/-
Opening a user context and allocating protection domains
(bx_roce_driver/bxroce_verbs.c).

A context is opened with a PD of its own, which the first
`bxroce_alloc_pd` of the context is given; the others come from the pool
(Kernel/Pool). The pool answers with NULL when it has no element.
`bxroce_alloc_ucontext_pd` asks `IS_ERR` of the answer, which is false of
NULL, and writes the PD's fields; `bxroce_alloc_pd` writes a field of what
it got before it looks. A write through NULL is an oops, and ends the
call.

What the kernel's allocations return, and whether the answer can be
copied to user space, are arguments.
-/
import BxRnic.Kernel.Mmap
import BxRnic.Kernel.Pool
import BxRnic.Kernel.Resources

namespace BxRnic.Kernel

-- =============================================================== contexts

/-- `ah_tbl` of a context, less its memory. -/
structure AhTbl where
  pa : U64
  len : U32
deriving DecidableEq

/-- `struct bxroce_ucontext`; a PD is its address. -/
structure Ucontext where
  mmHead : List MmKey
  ctxPd : Option Nat
  pdInUse : Bool
  ahTbl : AhTbl
deriving DecidableEq

/-- The structure from `kzalloc`, with its list initialised. -/
def Ucontext.zero : Ucontext := ⟨[], none, false, ⟨0, 0⟩⟩

/-- `struct bxroce_alloc_ucontext_resp` -/
structure AllocUcontextResp where
  devId : U32
  wqeSize : U32
  maxInlineData : U32
  rqeSize : U32
  fwVer : List (BitVec 8)
  ahTblPage : U64
  ahTblLen : U32
deriving DecidableEq

/-- How a verb ends. -/
inductive Verb (α : Type) where
  | ok (a : α)
  | err (status : Int)
  /-- It wrote through NULL. -/
  | oops
deriving DecidableEq

/-- What opening a context runs into. -/
structure UcontextEnv where
  udata : Bool
  /-- `kzalloc` finds memory for the context. -/
  ctxOk : Bool
  /-- `dma_alloc_coherent`: the physical and the DMA address. -/
  ahTbl : Option (U64 × U64)
  /-- `bxroce_add_mmap` finds memory. -/
  mmOk : Bool
  /-- Where `kmem_cache_zalloc` finds memory for a PD. -/
  pd : Option Nat
  /-- The bytes at `dev->attr.fw_ver`. -/
  fwVer : List (BitVec 8)
  /-- The answer can be copied to user space. -/
  copyOk : Bool

/-- `map_len` -/
def ahTblLen : U32 := 0x2000

/-- `_bxroce_alloc_pd`, with memory for a PD at `mem`. -/
def Pool.allocPd (pool : Pool) (mem : Option Nat) : Pool × Option Nat :=
  match pool.alloc mem.isSome with
  | (pool, true) => (pool, mem)
  | (pool, false) => (pool, none)

/-- `bxroce_alloc_ucontext_pd`: 0, or an oops. -/
def allocUcontextPd (pool : Pool) (mem : Option Nat) (uctx : Ucontext) :
    Verb Unit × Pool × Ucontext :=
  match pool.allocPd mem with
  | (pool, none) => (.oops, pool, { uctx with ctxPd := none })
  | (pool, some pd) => (.ok (), pool, { uctx with ctxPd := some pd })

/-- `bxroce_alloc_ucontext`. On an error the context is what it was when
it was freed. -/
def allocUcontext (env : UcontextEnv) (pool : Pool) :
    Verb AllocUcontextResp × Pool × Ucontext :=
  if env.udata = false then (.err (-EFAULT), pool, .zero)
  else if env.ctxOk = false then (.err (-ENOMEM), pool, .zero)
  else
    match env.ahTbl with
    | none => (.err (-ENOMEM), pool, .zero)
    | some (page, pa) =>
        let ctx := { Ucontext.zero with ahTbl := ⟨pa, ahTblLen⟩ }
        match addMmap ctx.mmHead page (ahTblLen.setWidth 64) env.mmOk with
        | (status, mmHead) =>
            let ctx := { ctx with mmHead := mmHead }
            if status ≠ 0 then (.err status, pool, ctx)
            else
              match allocUcontextPd pool env.pd ctx with
              | (.oops, pool, ctx) => (.oops, pool, ctx)
              | (.err status, pool, ctx) =>
                  (.err status, pool,
                    { ctx with
                      mmHead := delMmap ctx.mmHead ctx.ahTbl.pa
                        (ctx.ahTbl.len.setWidth 64) })
              | (.ok (), pool, ctx) =>
                  if env.copyOk = false then
                    -- as far as `pd_err` goes, and no further
                    (.err (-EFAULT), pool,
                      { ctx with
                        mmHead := delMmap ctx.mmHead ctx.ahTbl.pa
                          (ctx.ahTbl.len.setWidth 64) })
                  else
                    (.ok ⟨0, 64, 0, 16, env.fwVer, page, ahTblLen⟩, pool,
                      ctx)

/-- `bxroce_drop_ref` of a PD with so many references. -/
def Pool.dropPd (pool : Pool) (refCnt : Nat) : Pool :=
  if refCnt - 1 = 0 then pool.elemRelease else pool

/-- `bxroce_dealloc_ucontext`, whose PD has so many references; it always
has one. -/
def deallocUcontext (refCnt : Nat) (pool : Pool) (uctx : Ucontext) :
    Pool × Ucontext :=
  -- `bxroce_dealloc_ucontext_pd`
  let pool := pool.dropPd refCnt
  let uctx := { uctx with ctxPd := none }
  let uctx :=
    { uctx with
      mmHead := delMmap uctx.mmHead uctx.ahTbl.pa
        (uctx.ahTbl.len.setWidth 64) }
  -- the loop over what is left
  (pool, { uctx with mmHead := [] })

-- ================================================================ domains

/-- `bxroce_get_ucontext_pd` -/
def getUcontextPd (uctx : Ucontext) : Option Nat × Ucontext :=
  if !uctx.pdInUse then (uctx.ctxPd, { uctx with pdInUse := true })
  else (none, uctx)

/-- `bxroce_alloc_pd`, for a context if there is one. -/
def allocPd (ibctx : Option Ucontext) (mem : Option Nat) (pool : Pool) :
    Verb Nat × Pool × Option Ucontext :=
  match ibctx with
  | none =>
      match pool.allocPd mem with
      | (pool, some pd) => (.ok pd, pool, none)
      | (pool, none) => (.err (-ENOMEM), pool, none)
  | some uctx =>
      match getUcontextPd uctx with
      | (some pd, uctx) => (.ok pd, pool, some uctx)
      | (none, uctx) =>
          match pool.allocPd mem with
          | (pool, some pd) => (.ok pd, pool, some uctx)
          -- `pd->uctx`
          | (pool, none) => (.oops, pool, some uctx)

end BxRnic.Kernel
