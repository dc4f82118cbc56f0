/-
The identifiers of queue pairs and completion queues
(bx_roce_driver/bxroce_verbs.c, bxroce_hw.c, bxroce_main.c): the two
allocation bitmaps with their hints, the table of queue pairs, the flag
of the GSI queue pair, and the four calls that use them.

# What a call depends on

The calls ask the kernel for memory, copy to and from the user's
process, and program the device; how each of these ends is an argument
of the call. An object is known by the address it was allocated at,
here a number counted up, since live objects are at different addresses.

# Two things the code does to the device structure

- `_bxroce_destroy_qp` hands `bxroce_free_cqqpresource` the address of
  the field `allocated_qps`, not the bitmap the field points to. The bit
  it clears is one of the structure's own (`devBits`, whose first 64 are
  the pointer).
- A creation that `bxroce_hw_create_qp` fails returns with `dev_lock`
  taken. Calls that take it afterwards do not return (`Result.blocked`).
-/
import BxRnic.Lib.Bitmap
import BxRnic.Kernel.Qp

namespace BxRnic.Kernel

-- =========================================================== the numbers

/-- `EFAULT` -/
def EFAULT : Int := 14

/-- `EOVERFLOW` -/
def EOVERFLOW : Int := 75

/-- `dev->attr.max_qp` (bxroce_query_device) -/
def maxQp : Nat := 1024

/-- `dev->attr.max_cq` -/
def maxCq : Nat := 1024

/-- `dev->attr.max_qp_wr` -/
def maxQpWr : Nat := 1024

/-- `dev->attr.max_send_sge` and `max_recv_sge` -/
def maxSge : Nat := 2

-- ============================================================ the device

/-- An object as the calls know it: its address, its id, and for a queue
pair whether it is of type GSI. -/
structure Object where
  addr : Nat
  id : Nat
  gsi : Bool
deriving DecidableEq

/-- `struct bxroce_dev`, less what the calls do not touch, and the
objects its consumers hold. -/
structure Dev where
  allocatedQps : Bitmap
  allocatedCqs : Bitmap
  /-- The bits of the structure itself, from `allocated_qps` on. -/
  devBits : Bitmap
  nextQp : Nat
  nextCq : Nat
  qpTable : Nat → Option Nat
  cqTable : Nat → Option Nat
  isQp1Allocated : Bool
  /-- `dev_lock` was left taken. -/
  devLocked : Bool
  /-- The queue pairs created and not destroyed. -/
  qps : List Object
  /-- The completion queues created and not destroyed. -/
  cqs : List Object
  /-- The address of the next object. -/
  fresh : Nat

/-- The device after `bxroce_init_cqqp` and `bxroce_register_ibdev`. -/
def Dev.init (devBits : Bitmap) : Dev where
  allocatedQps := Bitmap.setBit (Bitmap.setBit (fun _ => false) 0) 1
  allocatedCqs :=
    Bitmap.setBit (Bitmap.setBit (Bitmap.setBit (fun _ => false) 0) 1) 2
  devBits := devBits
  nextQp := 0
  nextCq := 0
  qpTable := fun _ => none
  cqTable := fun _ => none
  isQp1Allocated := false
  devLocked := false
  qps := []
  cqs := []
  fresh := 0

-- ============================================================== the ids

/-- `bxroce_alloc_cqqpresource`: the id, the bitmap and the hint, or
nothing (`-EOVERFLOW`). -/
def allocCqqpresource (resourceArray : Bitmap) (maxResources next : Nat) :
    Option (Nat × Bitmap × Nat) :=
  let take (resourceNum : Nat) :=
    let next := resourceNum + 1
    some (resourceNum, Bitmap.setBit resourceArray resourceNum,
      if next = maxResources then 0 else next)
  let resourceNum := Bitmap.findNextZeroBit resourceArray maxResources next
  if resourceNum ≥ maxResources then
    let resourceNum := Bitmap.findFirstZeroBit resourceArray maxResources
    if resourceNum ≥ maxResources then none else take resourceNum
  else
    take resourceNum

/-- `bxroce_free_cqqpresource` -/
def freeCqqpresource (resourceArray : Bitmap) (resourceNum : Nat) :
    Bitmap :=
  Bitmap.clearBit resourceArray resourceNum

-- ============================================================ the result

/-- What becomes of a call. -/
inductive Result
  /-- A new object is handed out. -/
  | object (addr : Nat)
  | status (status : Int)
  /-- It waits for `dev_lock`. -/
  | blocked
deriving DecidableEq

-- ========================================================== create a QP

/-- `struct ib_qp_init_attr`, as far as it is read before the id is
taken. -/
structure QpInitAttr where
  /-- Whether a send CQ is given. -/
  sendCq : Bool
  qpType : QpType
  srq : Bool
  maxSendWr : Nat
  maxRecvWr : Nat
  maxInlineData : Nat
  maxSendSge : Nat
  maxRecvSge : Nat

/-- `bxroce_check_qp_params` -/
def checkQpParams (attrs : QpInitAttr) (udata : Bool) : Int :=
  if attrs.qpType ≠ .gsi ∧ attrs.qpType ≠ .rc ∧ attrs.qpType ≠ .ud then
    -EINVAL
  else if attrs.qpType ≠ .gsi ∧ attrs.maxSendWr > maxQpWr then -EINVAL
  else if attrs.srq = false ∧ attrs.maxRecvWr > maxQpWr then -EINVAL
  else if attrs.maxInlineData > 0 then -EINVAL
  else if attrs.maxSendSge > maxSge then -EINVAL
  else if attrs.maxRecvSge > maxSge then -EINVAL
  else if attrs.qpType = .gsi ∧ udata = true then -EINVAL
  else 0

/-- A request for a queue pair, with how the parts outside the driver
end. -/
structure CreateQp where
  attrs : QpInitAttr
  /-- Whether it comes from a user process. -/
  udata : Bool
  copyFromUdataOk : Bool
  kzallocQpOk : Bool
  kzallocInfoOk : Bool
  /-- `bxroce_hw_create_qp` finds its DMA memory. -/
  hwCreateOk : Bool
  /-- `bxroce_alloc_wr_id_tbl` finds its memory. -/
  allocWrIdTblOk : Bool
  /-- What `bxroce_copy_qp_uresp` returns. -/
  copyQpUresp : Int

/-- The checks up to the id: an error, or 0. -/
def CreateQp.early (c : CreateQp) : Int :=
  if c.attrs.sendCq = false then -ENOMEM
  else if checkQpParams c.attrs c.udata ≠ 0 then
    checkQpParams c.attrs c.udata
  else if c.udata = true ∧ c.copyFromUdataOk = false then -EFAULT
  else if c.kzallocQpOk = false then -ENOMEM
  else if c.kzallocInfoOk = false then -ENOMEM
  else 0

/-- `_bxroce_destroy_qp`: the bit is cleared in the device structure. -/
def Dev.destroyQpInner (dev : Dev) (id : Nat) : Dev :=
  { dev with devBits := freeCqqpresource dev.devBits id }

/-- The label `map_err`. -/
def Dev.mapErr (dev : Dev) (id : Nat) : Dev :=
  Dev.destroyQpInner
    { dev with
      qpTable := fun i => if i = id then none else dev.qpTable i } id

/-- A creation once `qp->id` is set. -/
def Dev.createQpWith (dev : Dev) (c : CreateQp) (id : Nat) :
    Result × Dev :=
  let gsi := decide (c.attrs.qpType = .gsi)
  if dev.devLocked = true then
    (.blocked, dev)
  else if c.hwCreateOk = false then
    -- the lock is not given back on this path
    (.status (-EINVAL), { dev with devLocked := true })
  else if c.udata = false ∧ c.allocWrIdTblOk = false then
    (.status (-ENOMEM), dev.mapErr id)
  else if id < 1024 ∧ dev.qpTable id = none then
    let stored : Dev :=
      { dev with
        qpTable := fun i => if i = id then some dev.fresh
          else dev.qpTable i }
    if c.udata = true ∧ c.copyQpUresp ≠ 0 then
      (.status c.copyQpUresp, stored.mapErr id)
    else
      -- `bxroce_store_qp1_resource`, then the new object is handed out
      (.object dev.fresh,
        { stored with
          isQp1Allocated := gsi || dev.isQp1Allocated
          qps := ⟨dev.fresh, id, gsi⟩ :: dev.qps
          fresh := dev.fresh + 1 })
  else
    (.status (-EINVAL), dev.mapErr id)

/-- `bxroce_create_qp` -/
def Dev.createQp (dev : Dev) (c : CreateQp) : Result × Dev :=
  if c.early ≠ 0 then (.status c.early, dev)
  else if c.attrs.qpType = .gsi then
    if dev.isQp1Allocated = true then (.status (-EINVAL), dev)
    else Dev.createQpWith { dev with isQp1Allocated := true } c 1
  else
    match allocCqqpresource dev.allocatedQps maxQp dev.nextQp with
    -- the status is not looked at: `qp_num` stays 0
    | none => dev.createQpWith c 0
    | some (qpNum, allocatedQps, nextQp) =>
        Dev.createQpWith
          { dev with allocatedQps := allocatedQps, nextQp := nextQp }
          c qpNum

-- ========================================================= destroy a QP

/-- `bxroce_destroy_qp`, called with a queue pair that exists. -/
def Dev.destroyQp (dev : Dev) (addr : Nat) : Result × Dev :=
  match dev.qps.find? fun qp => qp.addr = addr with
  | none => (.status 0, dev)
  | some qp =>
      if dev.devLocked = true then (.blocked, dev)
      else
        let dev := dev.destroyQpInner qp.id
        (.status 0,
          { dev with
            qpTable := fun i => if i = qp.id then none else dev.qpTable i
            qps := dev.qps.filter fun qp' => qp'.addr ≠ addr })

-- ============================================================== the CQs

/-- A request for a completion queue. -/
structure CreateCq where
  udata : Bool
  ibCtx : Bool
  copyFromUdataOk : Bool
  kzallocOk : Bool
  /-- `bxroce_hw_create_cq` finds its DMA memory. -/
  hwCreateOk : Bool
  /-- What `bxroce_copy_cq_uresp` returns. -/
  copyCqUresp : Int

/-- The checks up to the id: an error, or 0. -/
def CreateCq.early (c : CreateCq) : Int :=
  if c.udata = true ∧ c.copyFromUdataOk = false then -EFAULT
  else if c.kzallocOk = false then -ENOMEM
  else 0

/-- `bxroce_create_cq` -/
def Dev.createCq (dev : Dev) (c : CreateCq) : Result × Dev :=
  if c.early ≠ 0 then (.status c.early, dev)
  else
    match allocCqqpresource dev.allocatedCqs maxCq dev.nextCq with
    | none => (.status (-EOVERFLOW), dev)
    | some (cqNum, allocatedCqs, nextCq) =>
        let dev : Dev :=
          { dev with allocatedCqs := allocatedCqs, nextCq := nextCq }
        if c.hwCreateOk = false then
          (.status (-ENOMEM), dev)
        else if c.ibCtx = true ∧ c.copyCqUresp ≠ 0 then
          (.status c.copyCqUresp,
            { dev with
              allocatedCqs := freeCqqpresource dev.allocatedCqs cqNum })
        else
          (.object dev.fresh,
            { dev with
              cqTable := fun i => if i = cqNum then some dev.fresh
                else dev.cqTable i
              cqs := ⟨dev.fresh, cqNum, false⟩ :: dev.cqs
              fresh := dev.fresh + 1 })

/-- `bxroce_destroy_cq`, called with a completion queue that exists. -/
def Dev.destroyCq (dev : Dev) (addr : Nat) : Result × Dev :=
  match dev.cqs.find? fun cq => cq.addr = addr with
  | none => (.status 0, dev)
  | some cq =>
      (.status 0,
        { dev with
          cqTable := fun i => if i = cq.id then none else dev.cqTable i
          allocatedCqs := freeCqqpresource dev.allocatedCqs cq.id
          cqs := dev.cqs.filter fun cq' => cq'.addr ≠ addr })

-- ============================================================== the calls

/-- The calls on a device. -/
inductive ResourceCall
  | createQp (c : CreateQp)
  | destroyQp (addr : Nat)
  | createCq (c : CreateCq)
  | destroyCq (addr : Nat)

/-- The device after a call, or where the call is left waiting. -/
def ResourceCall.step (dev : Dev) : ResourceCall → Dev
  | .createQp c => (dev.createQp c).2
  | .destroyQp addr => (dev.destroyQp addr).2
  | .createCq c => (dev.createCq c).2
  | .destroyCq addr => (dev.destroyCq addr).2

end BxRnic.Kernel
