/-
The address-exchange server (rdma_exchange/exchange.c): the pool of
registered memory regions that every client of the machine shares, and
the function each client's thread answers requests with.

# What is modelled

`server_fun` handles one request at a time under the reader/writer lock,
so a run of the server is a sequence of (client, request) pairs in any
order; `World` is the pool plus the reply buffer each client's thread
keeps between requests. The sockets, the thread start-up and the printed
messages are left out, as is the unused padding word `rsved` of a pool
entry (its eight bytes still count in the size of an entry).

The pool is memory: `mrPool` answers at every entry offset, also outside
the 4 MiB that `main` allocates, because the code computes addresses
without testing them. `mr_len` is an `int` that the code decrements
freely, so it is an `Int` here.
-/
import BxRnic.Lib.Word
import BxRnic.Lib.Run

namespace BxRnic.Exchange

open Word

-- ============================================================== the data

/-- `CMD_WRITE`: register a region. -/
def cmdWrite : U32 := 0x120

/-- `CMD_REMOVE`: drop a region. -/
def cmdRemove : U32 := 0x121

/-- `CMD_READ`: translate an address. -/
def cmdRead : U32 := 0x110

/-- `struct mr_phy_info`: one registered region. -/
@[ext] structure MrPhyInfo where
  phyaddr : U64
  vaddr : U64
  rkey : U32
  len : U32
deriving DecidableEq

/-- An entry of zero bytes, as `memset` leaves it. -/
def MrPhyInfo.zero : MrPhyInfo := ⟨0, 0, 0, 0⟩

/-- `sizeof(struct mr_phy_info)`: two 64-bit words, two 32-bit words and
the padding word. -/
def sizeofMrPhyInfo : Nat := 32

/-- `MR_REGION_SIZE`: what `main` allocates for the pool. -/
def mrRegionSize : Nat := 4 * 1024 * 1024

/-- The entries the allocation has room for. -/
def mrCapacity : Nat := mrRegionSize / sizeofMrPhyInfo

/-- `struct sg_phy_info`, the reply to every request. -/
structure SgPhyInfo where
  phyaddr : U64
  size : U64
deriving DecidableEq

/-- `struct qp_vaddr`, a request. -/
structure QpVaddr where
  cmd : U32
  rkey : U32
  vaddr : U64
  phyaddr : U64
  len : U32
deriving DecidableEq

/-- The globals `mr_pool` and `mr_len`. -/
structure Server where
  mrPool : Int → MrPhyInfo
  mrLen : Int

/-- The entries `mr_pool[0 .. mr_len)`. -/
def Server.entries (srv : Server) : List MrPhyInfo :=
  (List.range srv.mrLen.toNat).map fun i : Nat => srv.mrPool i

/-- The server `main` starts: a zeroed pool without entries. -/
def Server.empty : Server := ⟨fun _ => .zero, 0⟩

-- ======================================================= byte-wise moves

/-- An entry whose first `k` bytes have been replaced by those of `new`.
The fields start at the bytes 0, 8, 16 and 20. -/
def copyBytes (k : Nat) (new old : MrPhyInfo) : MrPhyInfo where
  phyaddr := overlay (min 8 k) new.phyaddr old.phyaddr
  vaddr := overlay (min 8 (k - 8)) new.vaddr old.vaddr
  rkey := overlay (min 4 (k - 16)) new.rkey old.rkey
  len := overlay (min 4 (k - 20)) new.len old.len

/-- `memmove(&mr_pool[i], &mr_pool[i+1], movelen)`: the bytes of the
entries from `i + 1` on move down by one entry, `movelen` of them. -/
def memmoveDown (mrPool : Int → MrPhyInfo) (i movelen : Nat) :
    Int → MrPhyInfo := fun k =>
  if (i : Int) ≤ k then
    copyBytes (movelen - sizeofMrPhyInfo * (k.toNat - i))
      (mrPool (k + 1)) (mrPool k)
  else mrPool k

/-- `bxroce_remove_mr`. The length handed to `memmove` is the number of
entries behind the removed one, taken as a number of bytes. -/
def bxroceRemoveMr (srv : Server) (i : Nat) : Server :=
  let movelen := srv.mrLen - i - 1
  if movelen = 0 then
    { srv with mrPool := Function.update srv.mrPool i .zero }
  else
    { srv with mrPool := memmoveDown srv.mrPool i movelen.toNat }

-- ============================================================ server_fun

/-- The scan every request loop makes: the first index below `mr_len`
whose entry passes the test. -/
def Server.scan (srv : Server) (p : MrPhyInfo → Bool) : Option Nat :=
  (List.range srv.mrLen.toNat).find? fun i : Nat => p (srv.mrPool i)

theorem Server.scan_eq_some {srv : Server} {p : MrPhyInfo → Bool}
    {i : Nat} :
    srv.scan p = some i ↔ p (srv.mrPool i) = true
      ∧ i < srv.mrLen.toNat ∧ ∀ j < i, p (srv.mrPool j) = false := by
  simp [scan, List.find?_range_eq_some]

theorem Server.scan_eq_none {srv : Server} {p : MrPhyInfo → Bool} :
    srv.scan p = none
      ↔ ∀ mr ∈ srv.entries, p mr = false := by
  simp [scan, entries]

/-- The test of the `CMD_READ` loop. The end of the region is included,
and `vaddr + len` is a 64-bit sum. -/
def readMatches (rkey : U32) (vaddr : U64) (mr : MrPhyInfo) : Bool :=
  decide (rkey = mr.rkey ∧ mr.vaddr ≤ vaddr
    ∧ vaddr ≤ mr.vaddr + mr.len.setWidth 64)

/-- The test of the `CMD_REMOVE` loop. -/
def removeMatches (rkey : U32) (vaddr : U64) (mr : MrPhyInfo) : Bool :=
  decide (mr.rkey = rkey ∧ mr.vaddr = vaddr)

/-- The body of `CMD_READ`: the reply starts out as the address asked
about and keeps its old size when no region matches. -/
def serverRead (srv : Server) (sginfo : SgPhyInfo) (vaddr : QpVaddr) :
    SgPhyInfo :=
  match srv.scan (readMatches vaddr.rkey vaddr.vaddr) with
  | none => { sginfo with phyaddr := vaddr.vaddr }
  | some i =>
      let mr := srv.mrPool i
      { phyaddr := mr.phyaddr + intOffset (vaddr.vaddr - mr.vaddr)
        size := mr.len.setWidth 64 }

/-- The body of `CMD_WRITE`: the entry behind the last one is filled. -/
def serverWrite (srv : Server) (vaddr : QpVaddr) : Server where
  mrPool := Function.update srv.mrPool srv.mrLen
    { rkey := vaddr.rkey, vaddr := vaddr.vaddr,
      phyaddr := vaddr.phyaddr, len := vaddr.len }
  mrLen := srv.mrLen + 1

/-- The body of `CMD_REMOVE`: the first match is removed, and the length
goes down whether or not there was one. -/
def serverRemove (srv : Server) (vaddr : QpVaddr) : Server :=
  let srv' :=
    match srv.scan (removeMatches vaddr.rkey vaddr.vaddr) with
    | none => srv
    | some i => bxroceRemoveMr srv i
  { srv' with mrLen := srv'.mrLen - 1 }

/-- One turn of the loop of `server_fun`: a request is read, handled,
and answered with the thread's reply buffer. -/
def serverFun (srv : Server) (sginfo : SgPhyInfo) (vaddr : QpVaddr) :
    Server × SgPhyInfo :=
  if vaddr.cmd = cmdRead then
    (srv, serverRead srv sginfo vaddr)
  else if vaddr.cmd = cmdWrite then
    (serverWrite srv vaddr, { sginfo with phyaddr := vaddr.phyaddr })
  else if vaddr.cmd = cmdRemove then
    (serverRemove srv vaddr, { sginfo with phyaddr := vaddr.phyaddr })
  else
    (srv, { sginfo with phyaddr := vaddr.vaddr })

-- ============================================================= the world

/-- The server together with the reply buffer of each client's thread. -/
structure World where
  srv : Server
  sginfo : Nat → SgPhyInfo

/-- One request of one client. -/
structure Request where
  client : Nat
  vaddr : QpVaddr

/-- A request, handled under the lock. -/
def World.step (w : World) (req : Request) : World :=
  let out := serverFun w.srv (w.sginfo req.client) req.vaddr
  { srv := out.1, sginfo := Function.update w.sginfo req.client out.2 }

/-- The state before the first request: an empty pool, and buffers
zeroed by each thread. -/
def World.start : World := ⟨.empty, fun _ => ⟨0, 0⟩⟩

end BxRnic.Exchange
