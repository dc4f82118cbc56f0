/-
The library's other half of a registration (libbxroce/bxroce_verbs.c):
the list `dev->mr_list`, which `bxroce_reg_mr` adds to and
`bxroce_dereg_mr` takes from.

Deregistering changes three stores one after the other: the list, the
kernel's registrations, and the pool of the exchange server. What the
kernel and the socket return is an argument.

The search ends at the list's head when no element is the region's. The
cursor is then no element: `mr_list` is the last field of the device, so
what the code reads, unlinks and frees through it lies in the device and
behind it. What follows is undefined; such a call ends as `wild`.
-/
import BxRnic.Exchange.Server
import BxRnic.User.Qp

namespace BxRnic.User

open Exchange (QpVaddr cmdRemove)

/-- An element of `dev->mr_list`, at its address, with the address of its
region's `struct verbs_mr`. -/
structure MrElem where
  addr : Nat
  vmr : Nat
  info : MrSgInfo
deriving DecidableEq

/-- A block that is freed. -/
inductive Freed
  /-- `mr_sginfo->sginfo` of the element at an address. -/
  | sginfo (addr : Nat)
  /-- The element. -/
  | elem (addr : Nat)
  /-- `vmr` -/
  | vmr (vmr : Nat)
deriving DecidableEq

/-- The three stores, and what was freed. -/
structure MrStores where
  mrList : List MrElem
  /-- The regions the kernel has registered. -/
  registered : List Nat
  /-- What was sent to the server. -/
  requests : List QpVaddr
  freed : List Freed
deriving DecidableEq

/-- What deregistering runs into. -/
structure DeregEnv where
  /-- `vmr->ibv_mr.rkey` -/
  rkey : U32
  /-- What `ibv_cmd_dereg_mr` returns. -/
  kernelRet : Int
  /-- What `read` returns of the server's answer. -/
  readRet : Int

/-- How the call ends. -/
inductive Dereg
  | returns (ret : Int) (dev : MrStores)
  /-- It went on with a cursor that is no element. -/
  | wild

/-- The test of the search. -/
def isMr (vmr : Nat) (e : MrElem) : Bool := decide (e.vmr = vmr)

/-- `bxroce_dereg_mrinfo` -/
def deregMrinfo (readRet : Int) : Int := if readRet = -1 then -1 else 0

/-- `bxroce_dereg_mr` -/
def deregMr (env : DeregEnv) (dev : MrStores) (vmr : Nat) : Dereg :=
  match dev.mrList.find? (isMr vmr) with
  | none => .wild
  | some e =>
      let vaddr : QpVaddr :=
        { cmd := cmdRemove, rkey := env.rkey, vaddr := e.info.iova,
          phyaddr := e.info.phyaddr, len := 0 }
      let dev :=
        { dev with
          mrList := dev.mrList.eraseP (isMr vmr)
          freed := dev.freed ++ [.sginfo e.addr, .elem e.addr] }
      if env.kernelRet ≠ 0 then .returns env.kernelRet dev
      else
        let dev :=
          { dev with
            registered := dev.registered.erase vmr
            requests := dev.requests ++ [vaddr] }
        let ret := deregMrinfo env.readRet
        if ret ≠ 0 then .returns ret dev
        else .returns 0 { dev with freed := dev.freed ++ [.vmr vmr] }

/-- What `bxroce_reg_mr` does to the list, with `num_sg` segments in the
kernel's answer. -/
def listMr (e : MrElem) (numSg : Nat) (dev : MrStores) : MrStores :=
  if numSg ≤ 256 then { dev with mrList := dev.mrList ++ [e] } else dev

end BxRnic.User
