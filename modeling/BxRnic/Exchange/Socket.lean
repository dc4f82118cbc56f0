/-
The exchange server on its sockets (rdma_exchange/exchange.c): the loop of
`main` that accepts clients, the threads that read their requests, and
the clients, in any interleaving.

# A connection

A client's bytes come as a stream, and `read` returns as many of those
that have come as it likes, but not more than it is asked for: the thread
takes whatever that is as a request. What an earlier request left in the
thread's buffer stays there behind the bytes that were read.

# The server's end

`main` counts the clients it waits for, not those that are connected, and
leaves after the 1024th: with it go the threads. An answer to a client
that is gone raises SIGPIPE, which nobody handles; that is its end too.

# What is left out

The answer's way back to the client, the listen queue's length, the calls
of `main` before the loop, and threads that cannot be created. `accept`
that fails makes a thread whose first `read` fails: no client is the worse
for it.
-/
import BxRnic.Exchange.Server
import BxRnic.Lib.Bytes
import BxRnic.Lib.Records

namespace BxRnic.Exchange

-- =========================================================== the requests

/-- A little-endian word of eight bytes. -/
def loadLe64 (m : Mem) (off : Nat) : U64 :=
  m.loadLe32 (off + 4) ++ m.loadLe32 off

/-- The bytes of a little-endian word of eight bytes. -/
def le64 (x : U64) : List U8 :=
  le32 (x.extractLsb' 0 32) ++ le32 (x.extractLsb' 32 32)

/-- `sizeof(struct qp_vaddr)`: four bytes of padding are the last. -/
def sizeofQpVaddr : Nat := 32

/-- The bytes of a request, with the padding that `memset` has zeroed. -/
def QpVaddr.bytes (v : QpVaddr) : List U8 :=
  le32 v.cmd ++ le32 v.rkey ++ le64 v.vaddr ++ le64 v.phyaddr
    ++ le32 v.len ++ [0, 0, 0, 0]

/-- The fields of a request in memory. -/
def QpVaddr.load (m : Mem) : QpVaddr where
  cmd := m.loadLe32 0
  rkey := m.loadLe32 4
  vaddr := loadLe64 m 8
  phyaddr := loadLe64 m 16
  len := m.loadLe32 24

/-- A request in zeroed memory. -/
def QpVaddr.ofBytes (bs : List U8) : QpVaddr :=
  .load (Mem.store (fun _ => 0) 0 bs)

-- ======================================================== the connections

/-- Where the thread of a connection is. -/
inductive ThreadAt
  | read
  /-- It has a request in its buffer. -/
  | handle
  | done
deriving DecidableEq

/-- A connection, at both ends. -/
structure Conn where
  /-- What the client has sent. -/
  sent : List U8
  /-- What the thread has not read. -/
  unread : List U8
  /-- The client has closed its end. -/
  closed : Bool
  /-- The thread's `*vaddr`. -/
  vaddr : Mem
  thread : ThreadAt

/-- A new connection. -/
def Conn.fresh : Conn := ⟨[], [], false, fun _ => 0, .read⟩

/-- The server and its connections, by the order clients come in. -/
structure Net where
  world : World
  conns : Nat → Conn
  /-- How many clients have connected. -/
  made : Nat
  /-- How many of them `main` has accepted. -/
  accepted : Nat
  /-- `tmp_num` -/
  tmpNum : Nat
  /-- `main` is in `accept`. -/
  accepting : Bool
  /-- The process has ended. -/
  exited : Bool
  /-- The requests that have been handled. -/
  log : List Request

/-- `thread_num` -/
def threadNum : Nat := 1024

namespace Net

/-- The server before its loop. -/
def start : Net where
  world := .start
  conns := fun _ => .fresh
  made := 0
  accepted := 0
  tmpNum := 0
  accepting := false
  exited := false
  log := []

variable (s : Net)

def setConn (c : Nat) (conn : Conn) : Net :=
  { s with conns := Function.update s.conns c conn }

-- ============================================================= the steps

/-- The head of the loop of `main`. -/
def loop : Net :=
  let tmpNum := s.tmpNum + 1
  if tmpNum > threadNum then { s with tmpNum := tmpNum, exited := true }
  else { s with tmpNum := tmpNum, accepting := true }

/-- The thread of a connection is in `read`, and some bytes that have come
are `k`. -/
def Reads (c k : Nat) : Prop :=
  s.exited = false ∧ c < s.accepted ∧ (s.conns c).thread = .read
    ∧ 0 < k ∧ k ≤ sizeofQpVaddr ∧ k ≤ (s.conns c).unread.length

instance (c k : Nat) : Decidable (s.Reads c k) :=
  inferInstanceAs (Decidable (_ ∧ _ ∧ _ ∧ _ ∧ _ ∧ _))

/-- `read` returns the first `k` bytes. -/
def read (c k : Nat) : Net :=
  let conn := s.conns c
  s.setConn c
    { conn with
      unread := conn.unread.drop k
      vaddr := conn.vaddr.store 0 (conn.unread.take k)
      thread := .handle }

/-- The rest of the loop of `server_fun`, up to its next `read`. -/
def handle (c : Nat) : Net :=
  let conn := s.conns c
  let req : Request := ⟨c, .load conn.vaddr⟩
  { s.setConn c { conn with thread := .read } with
    world := s.world.step req
    log := s.log ++ [req] }

end Net

/-- What happens at the server and at its clients. -/
inductive NetAct
  /-- A client connects. -/
  | connect
  | send (c : Nat) (bs : List U8)
  | close (c : Nat)
  /-- `main` gets to the head of its loop. -/
  | loop
  /-- `accept` returns. -/
  | accept (ok : Bool)
  /-- `read` returns `k` bytes. -/
  | read (c k : Nat)
  /-- `read` returns zero, or an error. -/
  | readEnds (c : Nat) (failed : Bool)
  /-- A request is handled; the answer may raise SIGPIPE. -/
  | handle (c : Nat) (pipe : Bool)

/-- A step that cannot be taken changes nothing. -/
def Net.step (s : Net) : NetAct → Net
  | .connect =>
      if s.exited = false then { s with made := s.made + 1 } else s
  | .send c bs =>
      let conn := s.conns c
      if s.exited = false ∧ c < s.made ∧ conn.closed = false then
        s.setConn c
          { conn with
            sent := conn.sent ++ bs
            unread := conn.unread ++ bs }
      else s
  | .close c =>
      if c < s.made then s.setConn c { s.conns c with closed := true }
      else s
  | .loop =>
      if s.exited = false ∧ s.accepting = false then s.loop else s
  | .accept ok =>
      if s.exited = false ∧ s.accepting = true then
        if ok = false then { s with accepting := false }
        else if s.accepted < s.made then
          { s with accepting := false, accepted := s.accepted + 1 }
        else s
      else s
  | .read c k => if s.Reads c k then s.read c k else s
  | .readEnds c failed =>
      let conn := s.conns c
      if s.exited = false ∧ c < s.accepted ∧ conn.thread = .read
          ∧ (failed = true ∨ conn.closed = true ∧ conn.unread = []) then
        s.setConn c { conn with thread := .done }
      else s
  | .handle c pipe =>
      if s.exited = false ∧ (s.conns c).thread = .handle then
        if pipe = true ∧ (s.conns c).closed = true then
          { s.handle c with exited := true }
        else s.handle c
      else s

end BxRnic.Exchange
