/-
The library's table of queue pairs (libbxroce/bxroce_verbs.c): who is in
`dev->qp_tbl`, what a creation takes and gives back, and which queue pair
a poll of a CQ works on.

# A creation

Once the kernel has made its queue pair, the new one is entered in the
table, and then takes two arrays and four mappings, each of which can be
refused. The pointers of the structure say what there is; after `calloc`
they are NULL, and a refused `mmap` leaves `MAP_FAILED`. `munmap` of
either does nothing. A `Ledger` keeps what the call takes and gives back.

# A poll

`bxroce_poll_hwcq` starts with `qp = NULL` and `bxroce_poll_cq` with a
`qp` of no value; each looks in the table under the id the CQ remembers,
and keeps what it has if there is nothing. The rings of the CQ are those
of User/PollCq; here only counts whether a completion is there, and how
many the loop then reports.

A queue pair is its address. What the allocators and the kernel answer is
an argument. The calls of one CQ exclude one another by its lock, so a
call is one step.
-/
import Mathlib.Logic.Function.Basic
import BxRnic.Lib.Ledger

namespace BxRnic.User

-- ============================================================= the device

/-- `BXROCE_MAX_QP`, the elements of the table. -/
def BXROCE_MAX_QP : Nat := 1024

/-- A pointer to a mapping. -/
inductive MapPtr
  | null
  /-- `MAP_FAILED` -/
  | failed
  | mapped
deriving DecidableEq

/-- What a queue pair holds. -/
inductive QpResource
  /-- The structure. -/
  | qp
  | wqeTbl
  | rqeTbl
  | addrtbl
  | sqVa
  | rqVa
  | iova
  | qpChangeInfo
  /-- The kernel's queue pair. -/
  | kernelQp
deriving DecidableEq

/-- `struct bxroce_qp`, its pointers. -/
structure QpPtrs where
  addr : Nat
  id : Nat
  /-- `sq_cq` and `rq_cq` -/
  sqCq : Nat
  rqCq : Nat
  wqeTbl : Bool
  rqeTbl : Bool
  addrtbl : Bool
  sqVa : MapPtr
  rqVa : MapPtr
  iova : MapPtr
  qpChangeInfo : MapPtr
deriving DecidableEq

/-- The queue pair uses a CQ. -/
def QpPtrs.On (qp : QpPtrs) (cq : Nat) : Prop := qp.sqCq = cq ∨ qp.rqCq = cq

/-- `struct bxroce_dev`, with the kernel's queue pairs and the CQs. -/
structure QpDev where
  qpTbl : Nat → Option Nat
  /-- The ids of the queue pairs the kernel has. -/
  kernel : List Nat
  /-- The queue pairs that were given out and not destroyed. -/
  live : List QpPtrs
  /-- `cq->qp_id`; a new CQ is cleared. -/
  cqQpId : Nat → Nat
  /-- Where the next structure will be. -/
  fresh : Nat

/-- A device before the first call. -/
def QpDev.init : QpDev := ⟨fun _ => none, [], [], fun _ => 0, 0⟩

-- ============================================================ destruction

/-- `munmap`, of what a pointer points to. -/
def munmap (r : QpResource) (va : MapPtr) (l : Ledger QpResource) :
    Ledger QpResource :=
  if va = .mapped then l.release r else l

/-- `if (p) free(p)` -/
def freeIf (r : QpResource) (p : Bool) (l : Ledger QpResource) :
    Ledger QpResource :=
  if p then l.release r else l

/-- `bxroce_destroy_qp`; the kernel destroys its queue pair or not. -/
def QpDev.destroyQp (dev : QpDev) (kernelOk : Bool) (qp : QpPtrs)
    (l : Ledger QpResource) : QpDev × Ledger QpResource :=
  let l := munmap .iova qp.iova l
  let l := munmap .sqVa qp.sqVa l
  let l := munmap .rqVa qp.rqVa l
  let l := munmap .qpChangeInfo qp.qpChangeInfo l
  -- `bxroce_del_qpn_map`
  let dev := { dev with qpTbl := Function.update dev.qpTbl qp.id none }
  let dev :=
    if kernelOk then { dev with kernel := dev.kernel.erase qp.id } else dev
  let l := if kernelOk then l.release .kernelQp else l
  let l := freeIf .rqeTbl qp.rqeTbl l
  let l := freeIf .wqeTbl qp.wqeTbl l
  let l := freeIf .addrtbl qp.addrtbl l
  (dev, l.release .qp)

-- =============================================================== creation

/-- A request for a queue pair, and what it runs into. -/
structure CreateQpEnv where
  sendCq : Nat
  recvCq : Nat
  maxInlineData : Nat
  srq : Bool
  qpOk : Bool
  /-- `resp.qp_id`, if `ibv_cmd_create_qp` succeeds. -/
  kernelId : Option Nat
  wqeTblOk : Bool
  rqeTblOk : Bool
  sqVaOk : Bool
  rqVaOk : Bool
  iovaOk : Bool
  qpChangeInfoOk : Bool
  /-- `ibv_cmd_destroy_qp` succeeds, where it comes to that. -/
  destroyOk : Bool

/-- How a creation ends: a queue pair or NULL, the device, and what was
taken and given back. -/
abbrev QpCreated := Option QpPtrs × QpDev × Ledger QpResource

/-- `kernel_err` -/
def QpDev.kernelErr (dev : QpDev) (l : Ledger QpResource) : QpCreated :=
  (none, dev, l.release .qp)

/-- `map_err` -/
def QpDev.mapErr (dev : QpDev) (qp : QpPtrs) (l : Ledger QpResource) :
    QpCreated :=
  dev.kernelErr (munmap .sqVa qp.sqVa l)

/-- `map_err1` -/
def QpDev.mapErr1 (dev : QpDev) (destroyOk : Bool) (qp : QpPtrs)
    (l : Ledger QpResource) : QpCreated :=
  (none, dev.destroyQp destroyOk qp l)

/-- `map_err2` -/
def QpDev.mapErr2 (dev : QpDev) (destroyOk : Bool) (qp : QpPtrs)
    (l : Ledger QpResource) : QpCreated :=
  dev.mapErr1 destroyOk qp (munmap .iova qp.iova l)

/-- `bxroce_create_qp` behind the call of the kernel, with the queue pair
in the table. -/
def QpDev.createRest (dev : QpDev) (env : CreateQpEnv) (qp : QpPtrs)
    (l : Ledger QpResource) : QpCreated :=
  if env.wqeTblOk = false then dev.mapErr qp l
  else
    let l := l.acquire .wqeTbl
    let qp := { qp with wqeTbl := true }
    if env.rqeTblOk = false then dev.mapErr qp l
    else
      let l := l.acquire .rqeTbl
      let qp := { qp with rqeTbl := true }
      if env.sqVaOk = false then dev.kernelErr l
      else
        let l := l.acquire .sqVa
        let qp := { qp with sqVa := .mapped }
        if env.rqVaOk = false then
          dev.mapErr { qp with rqVa := .failed } l
        else
          let l := l.acquire .rqVa
          let qp := { qp with rqVa := .mapped }
          if env.iovaOk = false then
            dev.mapErr1 env.destroyOk { qp with iova := .failed } l
          else
            let l := l.acquire .iova
            let qp := { qp with iova := .mapped }
            if env.qpChangeInfoOk = false then
              dev.mapErr2 env.destroyOk { qp with qpChangeInfo := .failed } l
            else
              let l := l.acquire .qpChangeInfo
              let qp := { qp with qpChangeInfo := .mapped }
              let cqQpId := Function.update dev.cqQpId qp.sqCq qp.id
              let cqQpId := Function.update cqQpId qp.rqCq qp.id
              (some { qp with addrtbl := true },
                { dev with cqQpId := cqQpId }, l.acquire .addrtbl)

/-- A structure from `calloc`, once the kernel's id and the CQs are in. -/
def QpPtrs.new (env : CreateQpEnv) (addr id : Nat) : QpPtrs :=
  ⟨addr, id, env.sendCq, env.recvCq, false, false, false, .null, .null,
    .null, .null⟩

/-- The kernel has made its queue pair, and `bxroce_add_qpn_map` enters
the one at `addr`. -/
def QpDev.entered (dev : QpDev) (addr id : Nat) : QpDev :=
  { dev with
    kernel := id :: dev.kernel
    qpTbl := Function.update dev.qpTbl id (some addr)
    fresh := addr + 1 }

/-- `bxroce_create_qp` -/
def QpDev.createQp (dev : QpDev) (env : CreateQpEnv) : QpCreated :=
  if env.qpOk = false then (none, dev, .empty)
  else
    let l := Ledger.empty.acquire .qp
    -- `err_inline_data`, which `kernel_err` runs into
    if env.maxInlineData ≠ 0 ∨ env.srq = true then dev.kernelErr l
    else
      match env.kernelId with
      | none => dev.kernelErr l
      | some id =>
          (dev.entered dev.fresh id).createRest env
            (QpPtrs.new env dev.fresh id) (l.acquire .kernelQp)

-- ================================================================= a poll

/-- The queue pair that code reads and writes. -/
inductive QpRef
  | qp (addr : Nat)
  | null
  /-- A pointer that was never set. -/
  | uninit
deriving DecidableEq

/-- A poll, and what the rings hold. -/
structure PollEnv where
  numEntries : Int
  /-- A completion is there. -/
  ready : Bool
  /-- How many the loop reports, where it has a queue pair. -/
  polled : Int

/-- `dev->qp_tbl[cq->qp_id]` -/
def QpDev.entry (dev : QpDev) (cq : Nat) : Option Nat :=
  dev.qpTbl (dev.cqQpId cq)

/-- `bxroce_poll_hwcq`: its result, and the queue pairs it accesses. -/
def QpDev.pollHwcq (dev : QpDev) (cq : Nat) (env : PollEnv) :
    Int × List QpRef :=
  if env.numEntries ≠ 0 ∧ env.ready = true then
    match dev.entry cq with
    | some addr => (env.polled, [.qp addr])
    | none => (0, [.null])
  else (0, [])

/-- `bxroce_poll_cq` -/
def QpDev.pollCq (dev : QpDev) (cq : Nat) (env : PollEnv) :
    Int × List QpRef :=
  let (numOsCqe, refs) := dev.pollHwcq cq env
  if env.numEntries - numOsCqe ≠ 0 then
    match dev.entry cq with
    | some addr => (numOsCqe, refs ++ [.qp addr])
    | none => (numOsCqe, refs ++ [.uninit])
  else (numOsCqe, refs)

-- ================================================================= a run

/-- A call of the library. -/
inductive QpCall
  | create (env : CreateQpEnv)
  | destroy (addr : Nat) (kernelOk : Bool)
  | poll (cq : Nat) (env : PollEnv)

/-- The queue pair at an address. -/
def QpDev.at? (dev : QpDev) (addr : Nat) : Option QpPtrs :=
  dev.live.find? fun qp => qp.addr = addr

/-- The device after a call. -/
def QpDev.step (dev : QpDev) : QpCall → QpDev
  | .create env =>
      match dev.createQp env with
      | (some qp, dev, _) => { dev with live := qp :: dev.live }
      | (none, dev, _) => dev
  | .destroy addr kernelOk =>
      match dev.at? addr with
      | none => dev
      | some qp =>
          { (dev.destroyQp kernelOk qp .empty).1 with
            live := dev.live.filter fun qp' => qp'.addr ≠ addr }
  | .poll _ _ => dev

/-- The elements of the table a call accesses. -/
def QpDev.indices (dev : QpDev) : QpCall → List Nat
  | .create env => env.kernelId.toList
  | .destroy addr _ => ((dev.at? addr).map (·.id)).toList
  | .poll cq _ => [dev.cqQpId cq]

end BxRnic.User
