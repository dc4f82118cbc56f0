/-
One queue pair and the exchange server its RDMA requests are translated
by, put together: the library's side is `buildWrite` and `buildRead`,
the server's side `serverFun`, and what travels between them is a
`CMD_READ` request and its reply.

Registrations and removals reach the server from any client at any time,
so a run mixes requests to the server with posts on the queue pair. Each
post brings the memory regions the library knows then, and says whether
the connection to the server came up.
-/
import BxRnic.Exchange.Server
import BxRnic.User.PostSend

namespace BxRnic.User

open Word
open Exchange (Server MrPhyInfo readMatches serverFun cmdRead)

-- ============================================================ the exchange

/-- Where a region puts an address. -/
def regionDma (mr : MrPhyInfo) (addr : U64) : U64 :=
  mr.phyaddr + intOffset (addr - mr.vaddr)

/-- The translation the server's `CMD_READ` gives, if it has a region
with that key over the address. -/
def translate (srv : Server) (rkey : U32) (addr : U64) : Option U64 :=
  (srv.scan (readMatches rkey addr)).map
    fun i : Nat => regionDma (srv.mrPool i) addr

/-- The reply to the request `bxroce_exchange_dmaaddrinfo` sends: the
server's thread for the connection is new, and its 64-bit size is read
into 32 bits. -/
def readReply (srv : Server) (wr : SendWr) : SgPhyInfo :=
  let sginfo :=
    (serverFun srv ⟨0, 0⟩ ⟨cmdRead, wr.rkey, wr.remoteAddr, 0, 0⟩).2
  ⟨sginfo.phyaddr, sginfo.size.setWidth 32⟩

/-- A reply carries the translation, or repeats the address. -/
theorem readReply_phyaddr (srv : Server) (wr : SendWr) :
    (readReply srv wr).phyaddr
      = (translate srv wr.rkey wr.remoteAddr).getD wr.remoteAddr := by
  unfold readReply translate serverFun Exchange.serverRead
  simp only [if_true]
  cases srv.scan (readMatches wr.rkey wr.remoteAddr) with
  | none => rfl
  | some i => rfl

-- ============================================================== the peer

/-- A queue pair and the server. -/
structure Peer where
  world : Exchange.World
  qp : Qp

/-- `bxroce_build_write` or `bxroce_build_read`. -/
inductive RdmaOp
  | write
  | read
deriving DecidableEq

/-- One RDMA request, posted. -/
structure Post where
  op : RdmaOp
  mrList : List MrSgInfo
  wr : SendWr
  connected : Bool

/-- What can happen next. -/
inductive Event
  | request (req : Exchange.Request)
  | post (p : Post)

/-- The reply the post would read. -/
def Peer.reply (s : Peer) (p : Post) : Option SgPhyInfo :=
  if p.connected then some (readReply s.world.srv p.wr) else none

/-- The status and the queue pair a post returns. -/
def Peer.post (s : Peer) (p : Post) : Int × Qp :=
  match p.op with
  | .write => buildWrite p.mrList s.qp p.wr (s.reply p)
  | .read => (0, buildRead p.mrList s.qp p.wr (s.reply p))

/-- One step of a run. -/
def Peer.step (s : Peer) : Event → Peer
  | .request req => { s with world := s.world.step req }
  | .post p => { s with qp := (s.post p).2 }

end BxRnic.User
