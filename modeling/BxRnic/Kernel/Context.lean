/-
A user context and the objects created in it (bx_roce_driver/
bxroce_verbs.c): which ranges of its list `bxroce_copy_cq_uresp`,
`bxroce_copy_qp_uresp` and the two destroy functions add and delete.

A creation counts from the point where it answers the user; what fails
before that leaves the list alone, and nothing fails after it. Where the
allocations and copies of the answer end is part of the request.
-/
import BxRnic.Kernel.Mmap

namespace BxRnic.Kernel

-- =============================================================== objects

/-- A coherent DMA buffer. Its DMA address is the physical address of
its kernel address. -/
structure Coherent where
  pa : U64
  virtToPhys : U64
  same : virtToPhys = pa
deriving DecidableEq

/-- `PAGE_ALIGN` of a 32-bit length. -/
def pageAlign (len : U32) : U32 := (len + 0xfff) &&& ~~~0xfff

/-- The memory of a `struct bxroce_cq`: three queues of `len` bytes. -/
structure CqMem where
  tx : Coherent
  len : U32
deriving DecidableEq

/-- The memory of a `struct bxroce_qp`: the two queues and the page of
`qp_change_info`. -/
structure QpMem where
  sq : Coherent
  sqLen : U32
  rq : Coherent
  rqLen : U32
  qpInfo : U64
deriving DecidableEq

/-- `PAGE_ALIGN(sizeof(struct qp_change_info))` -/
def qpInfoLen : U64 := 0x1000

-- ============================================================ the answers

/-- How the copy and the registration of a completion queue's answer
end. -/
structure CqAnswer where
  copyOk : Bool
  addOk : Bool
deriving DecidableEq

/-- `bxroce_copy_cq_uresp`: the status and the list. -/
def copyCqUresp (mmHead : List MmKey) (cq : CqMem) (answer : CqAnswer) :
    Int × List MmKey :=
  let pageSize := pageAlign cq.len
  if answer.copyOk = false then (-EINVAL, mmHead)
  else
    addMmap mmHead cq.tx.virtToPhys ((3 * pageSize).setWidth 64)
      answer.addOk

/-- How the copy and the four registrations of a queue pair's answer
end. -/
structure QpAnswer where
  copyOk : Bool
  addSqOk : Bool
  addRqOk : Bool
  addRegOk : Bool
  addInfoOk : Bool
deriving DecidableEq

/-- `bxroce_copy_qp_uresp`: the status and the list; `ioaddr` is the
address of the device's queue registers. -/
def copyQpUresp (mmHead : List MmKey) (ioaddr : U64) (qp : QpMem)
    (answer : QpAnswer) : Int × List MmKey :=
  let sqPageSize := (pageAlign qp.sqLen).setWidth 64
  let rqPageSize := (pageAlign qp.rqLen).setWidth 64
  -- the labels, in the order the code falls through them
  let err1 := fun mmHead => delMmap mmHead qp.sq.virtToPhys sqPageSize
  let err2 := fun mmHead =>
    err1 (delMmap mmHead qp.rq.virtToPhys rqPageSize)
  let err3 := fun mmHead => err2 (delMmap mmHead ioaddr sqRegLen)
  if answer.copyOk = false then (-EINVAL, mmHead)
  else
    let (status, mmHead) :=
      addMmap mmHead qp.sq.virtToPhys sqPageSize answer.addSqOk
    if status ≠ 0 then (status, mmHead)
    else
      let (status, mmHead) :=
        addMmap mmHead qp.rq.virtToPhys rqPageSize answer.addRqOk
      if status ≠ 0 then (status, err1 mmHead)
      else
        let (status, mmHead) :=
          addMmap mmHead ioaddr sqRegLen answer.addRegOk
        if status ≠ 0 then (status, err2 mmHead)
        else
          let (status, mmHead) :=
            addMmap mmHead qp.qpInfo qpInfoLen answer.addInfoOk
          if status ≠ 0 then (status, err3 mmHead)
          else (status, mmHead)

-- ============================================================ the context

/-- `struct bxroce_ucontext`, with the objects that are live in it. -/
structure Context where
  ioaddr : U64
  /-- The range of the address-handle table, the context's own. -/
  ahTbl : MmKey
  mmHead : List MmKey
  cqs : List CqMem
  qps : List QpMem

/-- A context as `bxroce_alloc_ucontext` hands it out. -/
def Context.start (ioaddr : U64) (ahTbl : MmKey) : Context :=
  ⟨ioaddr, ahTbl, [ahTbl], [], []⟩

/-- A creation that got as far as its answer, or the destruction of an
object. -/
inductive CtxCall
  | createCq (cq : CqMem) (answer : CqAnswer)
  | destroyCq (cq : CqMem)
  | createQp (qp : QpMem) (answer : QpAnswer)
  | destroyQp (qp : QpMem)

/-- The end of `bxroce_create_cq`. -/
def Context.createCq (ctx : Context) (cq : CqMem) (answer : CqAnswer) :
    Context :=
  let (status, mmHead) := copyCqUresp ctx.mmHead cq answer
  if status ≠ 0 then { ctx with mmHead := mmHead }
  else { ctx with mmHead := mmHead, cqs := cq :: ctx.cqs }

/-- `bxroce_destroy_cq` of a live completion queue. -/
def Context.destroyCq (ctx : Context) (cq : CqMem) : Context :=
  if cq ∈ ctx.cqs then
    { ctx with
      mmHead := delMmap ctx.mmHead cq.tx.pa
        ((3 * pageAlign cq.len).setWidth 64)
      cqs := ctx.cqs.erase cq }
  else ctx

/-- The end of `bxroce_create_qp`. -/
def Context.createQp (ctx : Context) (qp : QpMem) (answer : QpAnswer) :
    Context :=
  let (status, mmHead) := copyQpUresp ctx.mmHead ctx.ioaddr qp answer
  if status ≠ 0 then { ctx with mmHead := mmHead }
  else { ctx with mmHead := mmHead, qps := qp :: ctx.qps }

/-- `bxroce_destroy_qp` of a live queue pair. The page of
`qp_change_info` is not taken off the list. -/
def Context.destroyQp (ctx : Context) (qp : QpMem) : Context :=
  if qp ∈ ctx.qps then
    let mmHead :=
      delMmap ctx.mmHead qp.sq.pa ((pageAlign qp.sqLen).setWidth 64)
    let mmHead :=
      delMmap mmHead qp.rq.pa ((pageAlign qp.rqLen).setWidth 64)
    { ctx with
      mmHead := delMmap mmHead ctx.ioaddr sqRegLen
      qps := ctx.qps.erase qp }
  else ctx

/-- The context after a call. -/
def CtxCall.step (ctx : Context) : CtxCall → Context
  | .createCq cq answer => ctx.createCq cq answer
  | .destroyCq cq => ctx.destroyCq cq
  | .createQp qp answer => ctx.createQp qp answer
  | .destroyQp qp => ctx.destroyQp qp

end BxRnic.Kernel
