/-
`bxroce_post_send` (libbxroce/bxroce_verbs.c): building the queue
entries of a send or RDMA request, translating remote addresses through
the exchange server with one remembered translation, and ringing the
hardware.

# The loop, one turn at a time

The loop of `bxroce_post_send` may go round many times over one request:
when the rest of the ring is too short it tries to move the queue back
to its start, which the hardware must first have caught up for. So the
model is of one turn, `postSendTurn`, and a run puts hardware progress
between the turns.

# What the socket says

`bxroce_exchange_dmaaddrinfo` asks the server over a fresh connection.
What it reads back is an argument here: `none` for a connection that
failed or closed.
-/
import BxRnic.User.Wqe

namespace BxRnic.User

open Word

-- ========================================================== the entries

/-- The entry at `sq.head` is rewritten. -/
def Qp.putWqe (qp : Qp) (wqe : Wqe) : Qp :=
  { qp with sqVa := Function.update qp.sqVa qp.sq.head wqe }

/-- `sq.head` moves on to the next entry. -/
def Qp.incSqHead (qp : Qp) : Qp := { qp with sq := hwqIncHead qp.sq }

/-- The first entry a request with immediate data builds keeps what
`bxroce_post_send` put in it; every other entry starts out as zeroes. A
local address in no known region leaves `localaddr` as it is. -/
def startWqe (imm : WrOpcode) (mrList : List MrSgInfo) (qp : Qp)
    (wr : SendWr) (i : Nat) (sge : Sge) : Wqe :=
  let wqe :=
    if wr.opcode = imm ∧ i = 0 then qp.sqVa qp.sq.head else Wqe.zero
  match localDmaAddr mrList sge.addr with
  | some localaddr => { wqe with localaddr := localaddr }
  | none => wqe

/-- The loop over `sg_list` in `bxroce_build_sges` and
`bxroce_buildwrite_sges`: one entry for each element, `sq.head` moving
on as they are built. -/
def buildSgesLoop (imm : WrOpcode)
    (prepare : Qp → Wqe → SendWr → Int × Qp × Wqe)
    (mrList : List MrSgInfo) (wr : SendWr) :
    Qp → Nat → List Sge → Int × Qp
  | qp, _, [] => (0, qp)
  | qp, i, sge :: sgList =>
      let (status, qp, wqe) :=
        prepare qp (startWqe imm mrList qp wr i sge) wr
      if status ≠ 0 then (status, qp.putWqe wqe)
      else
        let wqe := { wqe with lkey := sge.lkey, dmalen := sge.length }
        buildSgesLoop imm prepare mrList wr (qp.putWqe wqe).incSqHead
          (i + 1) sgList

/-- The body the two share. A request without elements gets an entry
only when it carries immediate data; `sq.head` then moves on whatever
`prepare` said. -/
def buildSgesWith (imm : WrOpcode)
    (prepare : Qp → Wqe → SendWr → Int × Qp × Wqe)
    (mrList : List MrSgInfo) (qp : Qp) (wr : SendWr) : Int × Qp :=
  if wr.sgList = [] ∧ wr.opcode = imm then
    let (status, qp, wqe) := prepare qp (qp.sqVa qp.sq.head) wr
    (status, (qp.putWqe wqe).incSqHead)
  else
    buildSgesLoop imm prepare mrList wr qp 0 wr.sgList

/-- `bxroce_build_sges` -/
def buildSges (mrList : List MrSgInfo) (qp : Qp) (wr : SendWr) :
    Int × Qp :=
  buildSgesWith .sendWithImm prepareSendWqe mrList qp wr

/-- `bxroce_buildwrite_sges` -/
def buildwriteSges (mrList : List MrSgInfo) (qp : Qp) (wr : SendWr) :
    Int × Qp :=
  buildSgesWith .rdmaWriteWithImm prepareWriteWqe mrList qp wr

/-- `bxroce_sglist_len` -/
def sglistLen (sgList : List Sge) : U32 :=
  sgList.foldl (fun total sge => total + sge.length) 0

/-- Inline data, which the code turns down (on UD it does not look). -/
def SendWr.inlineRefused (wr : SendWr) (qp : Qp) : Bool :=
  wr.sendInline && decide (qp.qpType ≠ .ud)

/-- The entry an inline request leaves: its length is filled in before
the request is turned down. -/
def inlineWqe (qp : Qp) (wr : SendWr) : Wqe :=
  { qp.sqVa qp.sq.head with dmalen := sglistLen wr.sgList }

/-- `bxroce_build_inline_sges` -/
def buildInlineSges (mrList : List MrSgInfo) (qp : Qp) (wr : SendWr) :
    Int × Qp :=
  if wr.inlineRefused qp then (EINVAL, qp.putWqe (inlineWqe qp wr))
  else buildSges mrList qp wr

/-- `bxroce_buildwrite_inline_sges`, which turns inline data down with
the negative number. -/
def buildwriteInlineSges (mrList : List MrSgInfo) (qp : Qp)
    (wr : SendWr) : Int × Qp :=
  if wr.inlineRefused qp then (-EINVAL, qp.putWqe (inlineWqe qp wr))
  else buildwriteSges mrList qp wr

/-- `bxroce_build_send` -/
def buildSend (mrList : List MrSgInfo) (qp : Qp) (wr : SendWr) :
    Int × Qp :=
  buildInlineSges mrList qp wr

-- ====================================================== remote addresses

/-- `struct sg_phy_info`: the server's reply, as the library reads it. -/
structure SgPhyInfo where
  phyaddr : U64
  size : U32
deriving DecidableEq

/-- `bxroce_exchange_dmaaddrinfo`. A reply that repeats the address asked
about means that the server does not know it; any other reply is
remembered under that address, with the length of the whole region. -/
def exchangeDmaaddrinfo (qp : Qp) (wr : SendWr)
    (reply : Option SgPhyInfo) : Int × Qp :=
  match reply with
  | none => (EINVAL, qp)
  | some sginfo =>
      if sginfo.phyaddr = wr.remoteAddr then (EINVAL, qp)
      else
        (0, { qp with
          addrtbl := ⟨sginfo.phyaddr, wr.remoteAddr, sginfo.size⟩ })

/-- The remembered translation covers the address: the test that
`bxroce_build_write` and `bxroce_build_read` start with. -/
def QpAddrtbl.covers (tbl : QpAddrtbl) (addr : U64) : Prop :=
  tbl.vaddr ≤ addr ∧ addr ≤ tbl.vaddr + tbl.len.setWidth 64

instance (tbl : QpAddrtbl) (addr : U64) : Decidable (tbl.covers addr) :=
  inferInstanceAs (Decidable (_ ∧ _))

/-- The address the remembered translation gives. -/
def QpAddrtbl.dmaAddr (tbl : QpAddrtbl) (addr : U64) : U64 :=
  tbl.dmaaddr + intOffset (addr - tbl.vaddr)

/-- `bxroce_build_write` -/
def buildWrite (mrList : List MrSgInfo) (qp : Qp) (wr : SendWr)
    (reply : Option SgPhyInfo) : Int × Qp :=
  if qp.addrtbl.covers wr.remoteAddr then
    let qp := { qp with rdmaAddr := qp.addrtbl.dmaAddr wr.remoteAddr }
    buildwriteInlineSges mrList qp wr
  else
    let (status, qp) := exchangeDmaaddrinfo qp wr reply
    if status ≠ 0 then (status, qp)
    else
      let qp := { qp with rdmaAddr := qp.addrtbl.dmaaddr }
      buildwriteInlineSges mrList qp wr

/-- `bxroce_build_read`: the status of the exchange is not looked at,
and that of the entries is not handed on. -/
def buildRead (mrList : List MrSgInfo) (qp : Qp) (wr : SendWr)
    (reply : Option SgPhyInfo) : Qp :=
  if qp.addrtbl.covers wr.remoteAddr then
    let qp := { qp with rdmaAddr := qp.addrtbl.dmaAddr wr.remoteAddr }
    (buildwriteInlineSges mrList qp wr).2
  else
    let (_, qp) := exchangeDmaaddrinfo qp wr reply
    let qp := { qp with rdmaAddr := qp.addrtbl.dmaaddr }
    (buildwriteInlineSges mrList qp wr).2

-- ======================================================== the hardware

/-- `bxroce_ring_sq_hw`: the write pointer register takes `sq.head`. A
request without elements or immediate data is not rung. -/
def ringSqHw (qp : Qp) (regs : Regs) (wr : SendWr) : Regs :=
  if wr.numSge = 0 ∧ wr.opcode ≠ .rdmaWriteWithImm
      ∧ wr.opcode ≠ .sendWithImm then regs
  else { regs with sqWp := qp.sq.head }

/-- `bxroce_init_sq_ptr`: when the hardware has sent everything rung,
both pointers go back to the start of the ring, and `overhead` keeps
where the lap ended. -/
def initSqPtr (qp : Qp) (regs : Regs) : Qp × Regs :=
  if regs.sqWp = regs.sqRp then
    ({ qp with sq := { qp.sq with overhead := qp.sq.head, head := 0 } },
      { regs with sqWp := 0, sqRp := 0 })
  else (qp, regs)

-- ============================================================ post_send

/-- How a turn of the loop ends: with the next request, with the same
one again, or out of the loop with a status. -/
inductive Turn
  | next
  | again
  | stop (status : Int)
deriving DecidableEq

/-- The `switch` on the opcode: the entry at `sq.head` takes the
immediate data, and the entries are built. -/
def buildWr (mrList : List MrSgInfo) (qp : Qp) (wr : SendWr)
    (reply : Option SgPhyInfo) : Int × Qp :=
  match wr.opcode with
  | .sendWithImm =>
      buildSend mrList
        (qp.putWqe { Wqe.zero with immdt := be32toh wr.immData }) wr
  | .send => buildSend mrList qp wr
  | .sendWithInv =>
      buildSend mrList
        (qp.putWqe { Wqe.zero with lkey := be32toh wr.immData }) wr
  | .rdmaWriteWithImm =>
      buildWrite mrList
        (qp.putWqe { Wqe.zero with immdt := be32toh wr.immData }) wr reply
  | .rdmaWrite => buildWrite mrList qp wr reply
  | .rdmaRead => (0, buildRead mrList qp wr reply)
  | .other => (EINVAL, qp)

/-- One turn of the loop of `bxroce_post_send`. -/
def postSendTurn (mrList : List MrSgInfo) (qp : Qp) (regs : Regs)
    (wr : SendWr) (reply : Option SgPhyInfo) : Turn × Qp × Regs :=
  if qp.qpType = .ud ∧ wr.opcode ≠ .send ∧ wr.opcode ≠ .sendWithImm then
    (.stop EINVAL, qp, regs)
  else
    let freeCnt := sqhwqFreeCnt qp.sq
    if freeCnt = 0 ∨ wr.numSge > qp.sq.maxSges then
      (.stop ENOMEM, qp, regs)
    else if freeCnt ≤ wr.numSge then
      let (qp, regs) := initSqPtr qp regs
      (.again, qp, regs)
    else
      let status := checkFoe wr.numSge freeCnt
      if status ≠ 0 then (.stop status, qp, regs)
      else
        let (status, qp) := buildWr mrList qp wr reply
        if status ≠ 0 then (.stop status, qp, regs)
        else (.next, qp, ringSqHw qp regs wr)

end BxRnic.User
