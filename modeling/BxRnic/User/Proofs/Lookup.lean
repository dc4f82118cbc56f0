/-
The server's `CMD_READ` against what a client takes its reply for.

The reply buffer belongs to the connection and is answered with every
time. A client tells the two answers apart by the address: a reply that
repeats the address asked about means that no region is known.

# Where they part

The server's test takes the end of a region in, and the size it answers
with is that of the whole region, counted from the address asked about.
So the reply names memory behind the region unless the address is its
base. An identity-mapped region looks unknown, and an unknown address is
answered with the size of the last known one. `LookupOk` puts these
together for every pool, overlapping regions included.
-/
import BxRnic.User.Proofs.AddrCache

namespace BxRnic.User

open Word
open Exchange (Server MrPhyInfo World Request QpVaddr readMatches serverFun
  serverRead cmdRead)

-- ============================================================== the regions

/-- The region has the key, and the address is one of its bytes. -/
def HasByte (mr : MrPhyInfo) (rkey : U32) (addr : U64) : Prop :=
  mr.rkey = rkey ∧ mr.vaddr.toNat ≤ addr.toNat
    ∧ addr.toNat < mr.vaddr.toNat + mr.len.toNat

/-- Some registered region with the key has the byte. -/
def Covered (srv : Server) (rkey : U32) (addr : U64) : Prop :=
  ∃ mr ∈ srv.entries, HasByte mr rkey addr

-- ============================================================= the property

/-- The `CMD_READ` request for an address. -/
def readRequest (wr : SendWr) (phyaddr : U64) (len : U32) : QpVaddr where
  cmd := cmdRead
  rkey := wr.rkey
  vaddr := wr.remoteAddr
  phyaddr := phyaddr
  len := len

/-- The client takes the reply for a translation. -/
def TakesIt (qp : Qp) (wr : SendWr) (reply : Exchange.SgPhyInfo) : Prop :=
  (exchangeDmaaddrinfo qp wr
    (some ⟨reply.phyaddr, reply.size.setWidth 32⟩)).1 = 0

/-- The reply is the translation by one region, and the memory it names
is that region's. -/
def Translates (srv : Server) (wr : SendWr)
    (reply : Exchange.SgPhyInfo) : Prop :=
  ∃ mr ∈ srv.entries, HasByte mr wr.rkey wr.remoteAddr
    ∧ reply.phyaddr = mr.phyaddr + (wr.remoteAddr - mr.vaddr)
    ∧ wr.remoteAddr.toNat + reply.size.toNat
      ≤ mr.vaddr.toNat + mr.len.toNat

/-- A reply answers for its own request. `fresh` is what a new
connection would be answered. -/
structure Answers (srv : Server) (qp : Qp) (wr : SendWr)
    (fresh reply : Exchange.SgPhyInfo) : Prop where
  known : Covered srv wr.rkey wr.remoteAddr →
    TakesIt qp wr reply ∧ Translates srv wr reply
  unknown : ¬ Covered srv wr.rkey wr.remoteAddr → ¬ TakesIt qp wr reply
  own : reply = fresh

-- ============================================================ the condition

/-- The region whose closed interval holds the address first, against
the regions that have its byte. -/
def MatchOk (srv : Server) (wr : SendWr) (mr : MrPhyInfo) : Prop :=
  let d := displacement mr.phyaddr mr.vaddr wr.remoteAddr
  (Covered srv wr.rkey wr.remoteAddr →
    d ≠ 0 ∧ ∃ mr' ∈ srv.entries, HasByte mr' wr.rkey wr.remoteAddr
      ∧ mr'.phyaddr - mr'.vaddr = d
      ∧ wr.remoteAddr.toNat + mr.len.toNat
        ≤ mr'.vaddr.toNat + mr'.len.toNat)
  ∧ (¬ Covered srv wr.rkey wr.remoteAddr → d = 0)

/-- The condition on the pool and the connection's buffer. Without a
match the buffer keeps its size. -/
def LookupOk (srv : Server) (sginfo : Exchange.SgPhyInfo) (wr : SendWr) :
    Prop :=
  match srv.scan (readMatches wr.rkey wr.remoteAddr) with
  | none => sginfo.size = 0 ∧ ¬ Covered srv wr.rkey wr.remoteAddr
  | some i => MatchOk srv wr (srv.mrPool i)

-- ================================================================ the lookup

/-- The client's test. -/
theorem takesIt_iff (qp : Qp) (wr : SendWr)
    (reply : Exchange.SgPhyInfo) :
    TakesIt qp wr reply ↔ reply.phyaddr ≠ wr.remoteAddr := by
  have hnz : EINVAL ≠ 0 := by decide
  unfold TakesIt exchangeDmaaddrinfo
  by_cases hsame : reply.phyaddr = wr.remoteAddr
  · simp [hsame, hnz]
  · simp [hsame]

/-- An address and a displacement: two regions agree iff they move the
address equally. -/
private theorem add_eq_iff {addr d phyaddr vaddr : U64} :
    addr + d = phyaddr + (addr - vaddr) ↔ phyaddr - vaddr = d := by
  constructor
  · intro h
    calc phyaddr - vaddr = phyaddr + (addr - vaddr) - addr := by ring
      _ = addr + d - addr := by rw [h]
      _ = d := by ring
  · rintro rfl
    ring

/-- A reply that comes from a region. -/
private theorem answers_some_iff {srv : Server} {qp : Qp} {wr : SendWr}
    {mr : MrPhyInfo} (hmatch : readMatches wr.rkey wr.remoteAddr mr = true) :
    Answers srv qp wr
        ⟨mr.phyaddr + intOffset (wr.remoteAddr - mr.vaddr),
          mr.len.setWidth 64⟩
        ⟨mr.phyaddr + intOffset (wr.remoteAddr - mr.vaddr),
          mr.len.setWidth 64⟩
      ↔ MatchOk srv wr mr := by
  obtain ⟨-, hlow, hhigh⟩ := of_decide_eq_true hmatch
  rw [add_intOffset (offset_lt hlow hhigh)]
  have hsize : (mr.len.setWidth 64).toNat = mr.len.toNat := by
    rw [BitVec.toNat_setWidth]
    have := mr.len.isLt
    omega
  have htakes : TakesIt qp wr ⟨wr.remoteAddr
        + displacement mr.phyaddr mr.vaddr wr.remoteAddr,
      mr.len.setWidth 64⟩
      ↔ displacement mr.phyaddr mr.vaddr wr.remoteAddr ≠ 0 := by
    rw [takesIt_iff]
    simp
  have htrans : Translates srv wr ⟨wr.remoteAddr
        + displacement mr.phyaddr mr.vaddr wr.remoteAddr,
      mr.len.setWidth 64⟩
      ↔ ∃ mr' ∈ srv.entries, HasByte mr' wr.rkey wr.remoteAddr
        ∧ mr'.phyaddr - mr'.vaddr
          = displacement mr.phyaddr mr.vaddr wr.remoteAddr
        ∧ wr.remoteAddr.toNat + mr.len.toNat
          ≤ mr'.vaddr.toNat + mr'.len.toNat := by
    unfold Translates
    simp only [add_eq_iff, hsize]
  constructor
  · rintro ⟨hknown, hunknown, -⟩
    refine ⟨fun hc => ?_, fun hc => ?_⟩
    · obtain ⟨ht, hr⟩ := hknown hc
      exact ⟨htakes.1 ht, htrans.1 hr⟩
    · exact not_not.1 fun hd => hunknown hc (htakes.2 hd)
  · rintro ⟨hcov, hnot⟩
    refine ⟨fun hc => ?_, fun hc => ?_, rfl⟩
    · obtain ⟨hd, hr⟩ := hcov hc
      exact ⟨htakes.2 hd, htrans.2 hr⟩
    · exact fun ht => htakes.1 ht (hnot hc)

/-- One request on a connection, in any state of the pool and of the
connection's buffer. -/
theorem serverRead_answers_iff (srv : Server)
    (sginfo : Exchange.SgPhyInfo) (qp : Qp) (wr : SendWr) (phyaddr : U64)
    (len : U32) :
    Answers srv qp wr
        (serverRead srv ⟨0, 0⟩ (readRequest wr phyaddr len))
        (serverRead srv sginfo (readRequest wr phyaddr len))
      ↔ LookupOk srv sginfo wr := by
  unfold serverRead LookupOk
  dsimp only [readRequest]
  cases hscan : srv.scan (readMatches wr.rkey wr.remoteAddr) with
  | none =>
      dsimp only
      constructor
      · rintro ⟨hknown, -, hown⟩
        refine ⟨congrArg Exchange.SgPhyInfo.size hown, fun hc => ?_⟩
        exact (takesIt_iff _ _ _).1 (hknown hc).1 rfl
      · rintro ⟨hsize, hnot⟩
        refine ⟨fun hc => absurd hc hnot,
          fun _ ht => (takesIt_iff _ _ _).1 ht rfl, ?_⟩
        rw [hsize]
  | some i =>
      dsimp only
      exact answers_some_iff (Server.scan_eq_some.1 hscan).1

-- =============================================================== the theorem

/-- After any requests of any clients, from any pool and on connections
with cleared buffers: a client's `CMD_READ` is answered for itself
exactly under the condition on the state it meets. -/
theorem lookup_answers_iff (srv : Server) (reqs : List Request)
    (client : Nat) (qp : Qp) (wr : SendWr) (phyaddr : U64) (len : U32) :
    let w := reqs.foldl World.step ⟨srv, fun _ => ⟨0, 0⟩⟩
    Answers w.srv qp wr
        (serverFun w.srv ⟨0, 0⟩ (readRequest wr phyaddr len)).2
        (serverFun w.srv (w.sginfo client)
          (readRequest wr phyaddr len)).2
      ↔ LookupOk w.srv (w.sginfo client) wr := by
  intro w
  have hread : ∀ sginfo,
      (serverFun w.srv sginfo (readRequest wr phyaddr len)).2
        = serverRead w.srv sginfo (readRequest wr phyaddr len) :=
    fun _ => rfl
  rw [hread, hread]
  exact serverRead_answers_iff w.srv (w.sginfo client) qp wr phyaddr len

-- =============================================================== one region

/-- The server after one registration: 0x100 bytes at 0x1000, key 1. -/
def oneRegion : World :=
  World.step ⟨.empty, fun _ => ⟨0, 0⟩⟩
    ⟨0, ⟨Exchange.cmdWrite, 1, 0x1000, 0x80001000, 0x100⟩⟩

/-- An RDMA read of key 1. -/
def readOf (addr : U64) : SendWr where
  wrId := 7
  sgList := [⟨0x4000, 64, 1⟩]
  opcode := .rdmaRead
  sendSignaled := true
  sendInline := false
  immData := 0
  remoteAddr := addr
  rkey := 1
  ah := none
  remoteQpn := 0
  remoteQkey := 0

instance (srv : Server) (rkey : U32) (addr : U64) :
    Decidable (Covered srv rkey addr) :=
  inferInstanceAs (Decidable (∃ mr ∈ srv.entries, _ ∧ _ ∧ _))

/-- The byte behind the region is nobody's, and is answered with an
address behind the region's memory. -/
theorem end_of_region_answered :
    let qp := createQp
      { qpId := 2, qpType := .rc, numWqeAllocated := 2048,
        numRqeAllocated := 256, maxSendSge := 4, maxRecvSge := 4,
        sqSigAll := 0, sqVa := fun _ => .zero, rqVa := fun _ => .zero,
        addrtbl := ⟨0, 0, 0⟩, numWqe_pos := by decide,
        numRqe_pos := by decide }
    (serverFun oneRegion.srv (oneRegion.sginfo 1)
        (readRequest (readOf 0x1100) 0 0)).2 = ⟨0x80001100, 0x100⟩
      ∧ ¬ Covered oneRegion.srv 1 0x1100
      ∧ ¬ Answers oneRegion.srv qp (readOf 0x1100)
        (serverFun oneRegion.srv ⟨0, 0⟩
          (readRequest (readOf 0x1100) 0 0)).2
        (serverFun oneRegion.srv (oneRegion.sginfo 1)
          (readRequest (readOf 0x1100) 0 0)).2 := by
  intro qp
  have hreply : (serverFun oneRegion.srv (oneRegion.sginfo 1)
      (readRequest (readOf 0x1100) 0 0)).2 = ⟨0x80001100, 0x100⟩ := by
    decide +kernel
  have hnot : ¬ Covered oneRegion.srv 1 0x1100 := by
    decide +kernel
  refine ⟨hreply, hnot, fun h => h.unknown hnot ?_⟩
  rw [hreply, takesIt_iff]
  decide

end BxRnic.User
