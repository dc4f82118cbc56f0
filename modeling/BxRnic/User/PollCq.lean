/-
`bxroce_poll_cq` (libbxroce/bxroce_verbs.c): the three completion rings
of a CQ, read by one loop into the caller's array.

# The rings

A CQ belongs to one queue pair. The hardware fills an entry of its `xmit`
ring for each send entry it has sent, and one of its `rx` ring for a
batch of receive entries; an entry with `hff` set is there to be read,
and is cleared when it has been. `tx` entries are counted and cleared.
Each ring has 256 entries; what the loop prints of them is left out.

# Divisions

The send tail wraps modulo `sq.overhead` and a batch is divided by
`cq->phase`. A division by zero ends the process (`none`).

# The loop

The loop tests its counter only between two rounds, and each round that
it makes takes at least one entry from a ring. `pollLoop` has fuel for
all entries there are (`Proofs/PollCq.lean` shows that it never runs
out).
-/
import BxRnic.User.Qp
import BxRnic.Lib.FlagRing

namespace BxRnic.User

open Word

-- ============================================================ the entries

/-- `struct bxroce_xmitcqe`, as far as it is read. -/
structure Xmitcqe where
  hff : U8
deriving DecidableEq

/-- `struct bxroce_rxcqe`, as far as it is read. -/
structure Rxcqe where
  bthPkey : U16
  bthDestqp : U16
  bth6487Lo : U16
  immdt : U32
  hff : U8
deriving DecidableEq

/-- `struct bxroce_txcqe`, as far as it is read. -/
structure Txcqe where
  opcode : U8
deriving DecidableEq

/-- Entries of zero bytes. -/
def Xmitcqe.zero : Xmitcqe := ⟨0⟩

def Rxcqe.zero : Rxcqe := ⟨0, 0, 0, 0, 0⟩

def Txcqe.zero : Txcqe := ⟨0⟩

/-- An entry is there to be read. -/
def Xmitcqe.valid (cqe : Xmitcqe) : Bool := decide (cqe.hff ≠ 0)

def Rxcqe.valid (cqe : Rxcqe) : Bool := decide (cqe.hff ≠ 0)

/-- The number of entries of a ring. -/
def cqEntries : Nat := 256

/-- `struct bxroce_cq`: the rings and their read pointers, and the phase
of the receive batches. -/
structure Cq where
  tx : FlagRing cqEntries Txcqe
  rx : FlagRing cqEntries Rxcqe
  xmit : FlagRing cqEntries Xmitcqe
  phase : U32

/-- `struct ibv_wc`, as far as it is written. -/
structure Wc where
  wrId : U64
  /-- `IBV_WC_SUCCESS` is 0. -/
  status : U32
  opcode : U32
  immData : U32
  qpNum : U32
  srcQp : U32
  wcFlags : U32
  pkeyIndex : U16
deriving DecidableEq

/-- `IBV_WC_RECV` -/
def wcRecv : U32 := 128

/-- `IBV_WC_GRH` -/
def wcGrh : U32 := 1

/-- `IBV_WC_WITH_IMM` -/
def wcWithImm : U32 := 2

-- ======================================================== one completion

/-- `bxroce_poll_scqe`: the completion, over what the array held, if the
request at the tail asked for one. -/
def pollScqe (qp : Qp) (ibwc : Wc) : Option (Option Wc × Qp) :=
  let entry := qp.wqeWrIdTbl qp.sq.tail
  let wc :=
    if entry.signaled then
      some { ibwc with
        status := 0, wcFlags := 0, qpNum := qp.id, wrId := entry.wrid }
    else none
  (hwqIncSqtail qp.sq).map fun sq => (wc, { qp with sq := sq })

/-- `bxroce_poll_rcqe` -/
def pollRcqe (qp : Qp) (cqe : Rxcqe) (ibwc : Wc) : Wc × Qp :=
  let wc := { ibwc with opcode := wcRecv, qpNum := qp.id, status := 0 }
  let wc :=
    if qp.qpType = .ud then
      { wc with
        srcQp := cqe.bthDestqp.setWidth 32
        pkeyIndex := cqe.bthPkey
        wcFlags := wcGrh }
    else wc
  let wc :=
    if cqe.immdt ≠ 0 then
      { wc with
        immData := be32toh cqe.immdt, wcFlags := wc.wcFlags ||| wcWithImm }
    else wc
  ({ wc with wrId := qp.rqeWrIdTbl qp.rq.tail },
    { qp with rq := hwqIncRqtail qp.rq })

-- =============================================================== the loop

/-- Which queue a completion is of. -/
inductive Queue
  | send
  | recv
deriving DecidableEq

/-- Whose completions they are, and the request each one names. -/
def ids (wcs : List (Queue × Wc)) : List (Queue × U64) :=
  wcs.map fun w => (w.1, w.2.wrId)

/-- The variables of the loop: the array as the caller passed it, and
the completions written over its first entries. -/
structure Poll where
  cq : Cq
  qp : Qp
  numEntries : Int
  i : Int
  ibwc : Nat → Wc
  written : List (Queue × Wc)

/-- A completion goes to the next entry of the array. -/
def Poll.write (s : Poll) (queue : Queue) (wc : Wc) : Poll :=
  { s with
    numEntries := s.numEntries - 1
    i := s.i + 1
    written := s.written ++ [(queue, wc)] }

/-- The entry of the array that is written next. -/
def Poll.slot (s : Poll) : Wc := s.ibwc s.written.length

/-- The `xmit` part of a round. -/
def Poll.xmitRound (s : Poll) : Option Poll :=
  if s.cq.xmit.head.valid = false then some s
  else
    (pollScqe s.qp s.slot).map fun (wc, qp) =>
      let s := { s with qp := qp }
      let s := match wc with
        | some wc => s.write .send wc
        | none => s
      { s with cq := { s.cq with xmit := s.cq.xmit.consume .zero } }

/-- The receive entries a batch reports, and the phase after it. The low
bits count entries modulo `phase` steps from the last batch's; zero
starts over. -/
def rxBatch (overhead phase : U32) (cqe : Rxcqe) : Option (Nat × U32) :=
  let lo : U32 := cqe.bth6487Lo.setWidth 32
  if lo = 0 then some (1, lo + 1)
  else if phase = 0 then none
  else
    let numRxLeft := (lo - overhead) / phase
    let numRxLeft := if overhead = 0 then numRxLeft + 1 else numRxLeft
    some (numRxLeft.toNat, phase)

/-- `while(num_rx_left)`: a completion for each receive entry. -/
def Poll.rcqes (cqe : Rxcqe) : Poll → Nat → Poll
  | s, 0 => s
  | s, numRxLeft + 1 =>
      let (wc, qp) := pollRcqe s.qp cqe s.slot
      Poll.rcqes cqe ({ s with qp := qp }.write .recv wc) numRxLeft

/-- The `rx` part of a round. -/
def Poll.rxRound (s : Poll) : Option Poll :=
  let cqe := s.cq.rx.head
  if cqe.valid = false then some s
  else
    (rxBatch (BitVec.ofNat 32 s.qp.rq.overhead) s.cq.phase cqe).map
      fun (numRxLeft, phase) =>
        let s : Poll :=
          { s with
            qp := { s.qp with
              rq := { s.qp.rq with overhead := cqe.bth6487Lo.toNat } }
            cq := { s.cq with phase := phase } }
        let s := Poll.rcqes cqe s numRxLeft
        { s with cq := { s.cq with rx := s.cq.rx.consume .zero } }

/-- The `tx` part of a round. -/
def Poll.txRound (s : Poll) : Poll :=
  if s.cq.tx.head.opcode = 0 then s
  else { s with cq := { s.cq with tx := s.cq.tx.consume .zero } }

/-- A round of the loop. -/
def Poll.round (s : Poll) : Option Poll :=
  (s.xmitRound.bind Poll.rxRound).map Poll.txRound

/-- The loop stops. -/
def Poll.stops (s : Poll) : Bool :=
  decide (s.numEntries = 0)
    || !s.cq.xmit.head.valid && !s.cq.rx.head.valid

/-- `while(num_entries)` -/
def pollLoop : Nat → Poll → Option Poll
  | 0, _ => none
  | fuel + 1, s =>
      if s.stops then some s else s.round.bind (pollLoop fuel)

/-- `bxroce_poll_hwcq`, which `bxroce_poll_cq` returns the result of:
the loop's variables at its end. -/
def pollHwcq (cq : Cq) (qp : Qp) (numEntries : Int) (ibwc : Nat → Wc) :
    Option Poll :=
  pollLoop (2 * cqEntries + 1)
    { cq := cq, qp := qp, numEntries := numEntries, i := 0
      ibwc := ibwc, written := [] }

end BxRnic.User
