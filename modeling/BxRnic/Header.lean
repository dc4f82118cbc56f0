/-
The header fields of a work queue entry: where destination queue pair,
MAC address, transport, operation and peer address go. The kernel driver
and the user-space library carry the same routines, word for word except
for one constant (bxroce_verbs.c of both).

The arithmetic is that of the C types, promotions to `int` included: a
test such as `wqe->destqp << 12` asks whether the field is non-zero, not
whether its low bits are.

Each routine masks and adds. What it leaves is also given as bits side by
side (`packDestqp_eq`, `packOpcode_eq`, `packDmac_eq`), and `header` is
the entry all three make.
-/
import BxRnic.Hw

namespace BxRnic

open Word

-- ============================================================ bit fields

/-- The body of `bxroce_set_rcwqe_destqp` and `bxroce_set_wqe_destqp`:
ten bits of a queue-pair number, six at the top of `eecntx` and four at
the bottom of `destqp`. -/
def packDestqp (tempqpn : U16) (wqe : Wqe) : Wqe :=
  let tempqpnL := (tempqpn &&& 0x003f) <<< 10
  let tempqpnH := (tempqpn &&& 0x03c0) >>> 6
  let eecntx :=
    if wqe.eecntx >>> 10 ≠ 0 then wqe.eecntx &&& 0x03ff else wqe.eecntx
  let destqp :=
    if wqe.destqp ≠ 0 then wqe.destqp &&& 0xfff0 else wqe.destqp
  { wqe with eecntx := eecntx + tempqpnL, destqp := destqp + tempqpnH }

/-- The body of `bxroce_set_wqe_opcode`; `high` is what the driver adds
to the opcode byte at the end. -/
def packOpcode (high qpType opcode : U8) (wqe : Wqe) : Wqe :=
  let destsocket2 :=
    (if wqe.destsocket2 >>> 4 ≠ 0 then wqe.destsocket2 &&& 0x0f
      else wqe.destsocket2) + opcode <<< 4
  let op := if wqe.opcode ≠ 0 then destsocket2 &&& 0xf0 else wqe.opcode
  { wqe with destsocket2 := destsocket2, opcode := op + qpType + high }

/-- The body of `bxroce_set_wqe_dmac`: the six bytes of the MAC address,
shifted by half a byte across three fields. -/
def packDmac (mac : Vector U8 6) (wqe : Wqe) : Wqe :=
  let destqp : U16 :=
    (mac[1].setWidth 16 <<< 8 + mac[0].setWidth 16) <<< 4
  let destsocket1 : U32 :=
    (((mac[5].setWidth 32 <<< 8 + mac[4].setWidth 32) <<< 8
      + mac[3].setWidth 32) <<< 8 + mac[2].setWidth 32) <<< 4
      + (mac[1] >>> 4).setWidth 32
  { wqe with
    destqp := (wqe.destqp &&& 0x000f) + destqp
    destsocket1 := destsocket1
    destsocket2 := (wqe.destsocket2 &&& 0xf0) + mac[5] >>> 4 }

/-- The IPv4 address of the peer, the first four bytes of its gid, as it
is copied into `llpinfo_lo`. -/
def llpinfo (dgid : Vector U8 16) : U64 :=
  (dgid[3] ++ dgid[2] ++ dgid[1] ++ dgid[0] : U32).setWidth 64

/-- The first four bytes of a gid, replaced. -/
def setFirstFour (gid : Vector U8 16) (ip : Vector U8 4) : Vector U8 16 :=
  (((gid.set 0 ip[0]).set 1 ip[1]).set 2 ip[2]).set 3 ip[3]

-- ======================================================== what stays

/-- What of an entry a request fills in besides the header. -/
structure WqeBody where
  immdt : U32
  lkey : U32
  dmalen : U32
  localaddr : U64
deriving DecidableEq

/-- The body of an entry. -/
def Wqe.body (wqe : Wqe) : WqeBody :=
  ⟨wqe.immdt, wqe.lkey, wqe.dmalen, wqe.localaddr⟩

/-- The body of an entry of zero bytes. -/
def WqeBody.zero : WqeBody := ⟨0, 0, 0, 0⟩

@[simp] theorem body_zero : Wqe.zero.body = .zero := rfl

@[simp] theorem body_packDestqp (tempqpn : U16) (wqe : Wqe) :
    (packDestqp tempqpn wqe).body = wqe.body := rfl

@[simp] theorem body_packOpcode (high qpType opcode : U8) (wqe : Wqe) :
    (packOpcode high qpType opcode wqe).body = wqe.body := rfl

@[simp] theorem body_packDmac (mac : Vector U8 6) (wqe : Wqe) :
    (packDmac mac wqe).body = wqe.body := rfl

-- ================================================================= codes

/-- `UD` -/
def codeUD : U8 := 0x6

/-- `UC` -/
def codeUC : U8 := 0x2

/-- `RD` -/
def codeRD : U8 := 0x4

/-- `RC` -/
def codeRC : U8 := 0x0

/-- `SEND` -/
def codeSend : U8 := 0x4

/-- `SEND_WITH_IMM` -/
def codeSendWithImm : U8 := 0x5

/-- `SEND_WITH_INV` -/
def codeSendWithInv : U8 := 0x6

/-- `RDMA_WRITE` -/
def codeRdmaWrite : U8 := 0x8

/-- `WRITE_WITH_IMM` -/
def codeWriteWithImm : U8 := 0x9

/-- `RDMA_READ` -/
def codeRdmaRead : U8 := 0x0

/-- The refusals at the end of `bxroce_build_wqe_opcode`, tested on the
bits of the codes. -/
def codesRefused (qpType opcode : U8) : Bool :=
  qpType == codeUD && opcode &&& (codeSend ||| codeSendWithImm) == 0
    || qpType == codeUC && opcode &&& (codeSend ||| codeSendWithImm
        ||| codeRdmaWrite ||| codeWriteWithImm) == 0
    || qpType == codeRD && opcode &&& codeSendWithInv != 0

-- ==================================================== bits side by side

/-- The queue-pair number goes to the top of `eecntx` and to the bottom
of `destqp`. -/
theorem packDestqp_eq (qpn : U16) (wqe : Wqe) :
    packDestqp qpn wqe =
      { wqe with
        eecntx := qpn.extractLsb' 0 6 ++ wqe.eecntx.extractLsb' 0 10
        destqp := wqe.destqp.extractLsb' 4 12 ++ qpn.extractLsb' 6 4 } := by
  have hlow : (qpn &&& 0x003f).extractLsb' 0 6 = qpn.extractLsb' 0 6 := by
    rw [BitVec.extractLsb'_and]
    exact BitVec.and_allOnes
  have hnibble : ((qpn &&& 0x03c0) >>> 6).toNat < 2 ^ 4 := by
    have hle : (qpn &&& 0x03c0).toNat ≤ 0x03c0 := Nat.and_le_right
    rw [BitVec.toNat_ushiftRight, Nat.shiftRight_eq_div_pow]
    omega
  have hhigh : ((qpn &&& 0x03c0) >>> 6).extractLsb' 0 4
      = qpn.extractLsb' 6 4 := by
    rw [BitVec.ushiftRight_and_distrib, BitVec.extractLsb'_and]
    have hmask : ((0x03c0 : U16) >>> 6).extractLsb' 0 4
        = BitVec.allOnes 4 := by decide
    rw [hmask, BitVec.and_allOnes]
    apply BitVec.eq_of_toNat_eq
    simp
  have heecntx := guarded_low_add_shift (m := 6) (n := 10) wqe.eecntx
    (qpn &&& 0x003f)
  have hdestqp := guarded_high_add (m := 12) (n := 4) wqe.destqp
    ((qpn &&& 0x03c0) >>> 6) hnibble
  rw [hlow] at heecntx
  rw [hhigh] at hdestqp
  exact congrArg₂ (fun eecntx destqp =>
    { wqe with eecntx := eecntx, destqp := destqp }) heecntx hdestqp

/-- The opcode goes to the top of `destsocket2`; the transport and the
side's constant are added to what `opcode` keeps. -/
theorem packOpcode_eq (high qpType opcode : U8) (wqe : Wqe) :
    packOpcode high qpType opcode wqe =
      { wqe with
        destsocket2 := opcode.extractLsb' 0 4
          ++ wqe.destsocket2.extractLsb' 0 4
        opcode := (if wqe.opcode ≠ 0 then opcode.extractLsb' 0 4 ++ 0#4
          else wqe.opcode) + qpType + high } := by
  have hdestsocket2 := guarded_low_add_shift (m := 4) (n := 4)
    wqe.destsocket2 opcode
  have hkept : (opcode.extractLsb' 0 4
        ++ wqe.destsocket2.extractLsb' 0 4 : U8) &&& 0xf0
      = opcode.extractLsb' 0 4 ++ 0#4 := by
    have h := high_add (m := 4) (n := 4) (opcode.extractLsb' 0 4
      ++ wqe.destsocket2.extractLsb' 0 4) 0 (by decide)
    rw [BitVec.extractLsb'_append_eq_left] at h
    simpa using h
  have hopcode := congrArg
    (fun kept => (if wqe.opcode ≠ 0 then kept else wqe.opcode)
      + qpType + high) hkept
  rw [← hdestsocket2] at hopcode
  exact congrArg₂ (fun destsocket2 opcode =>
    { wqe with destsocket2 := destsocket2, opcode := opcode })
    hdestsocket2 hopcode

/-- The MAC address goes above the low nibble of `destqp`, through
`destsocket1`, to the low nibble of `destsocket2`. -/
theorem packDmac_eq (mac : Vector U8 6) (wqe : Wqe) :
    packDmac mac wqe =
      { wqe with
        destqp := (mac[1].extractLsb' 0 4 ++ mac[0])
          ++ wqe.destqp.extractLsb' 0 4
        destsocket1 := mac[5].extractLsb' 0 4 ++ mac[4] ++ mac[3] ++ mac[2]
          ++ mac[1].extractLsb' 4 4
        destsocket2 := wqe.destsocket2.extractLsb' 4 4
          ++ mac[5].extractLsb' 4 4 } := by
  -- twelve bits above the nibble that is kept
  have hlow : (mac[1].setWidth 16 <<< 8 + mac[0].setWidth 16).extractLsb' 0 12
      = mac[1].extractLsb' 0 4 ++ mac[0] := by
    apply BitVec.eq_of_toNat_eq
    rw [toNat_append_eq_add]
    simp only [BitVec.extractLsb'_toNat, BitVec.toNat_add,
      BitVec.toNat_shiftLeft, BitVec.toNat_setWidth, Nat.shiftLeft_eq,
      Nat.shiftRight_zero]
    omega
  have hdestqp := low_add_shift (m := 12) (n := 4) wqe.destqp
    (mac[1].setWidth 16 <<< 8 + mac[0].setWidth 16)
  rw [hlow] at hdestqp
  -- a byte's high nibble leaves its top bits clear
  have hnibble : (mac[5] >>> 4).toNat < 2 ^ 4 := by
    rw [BitVec.toNat_ushiftRight, Nat.shiftRight_eq_div_pow]
    omega
  have hhigh : (mac[5] >>> 4).extractLsb' 0 4
      = mac[5].extractLsb' 4 4 := by
    apply BitVec.eq_of_toNat_eq
    simp
  have hdestsocket2 := high_add (m := 4) (n := 4) wqe.destsocket2
    (mac[5] >>> 4) hnibble
  rw [hhigh] at hdestsocket2
  have hdestsocket1 : ((((mac[5].setWidth 32 <<< 8 + mac[4].setWidth 32) <<< 8
          + mac[3].setWidth 32) <<< 8 + mac[2].setWidth 32) <<< 4
        + (mac[1] >>> 4).setWidth 32 : U32)
      = mac[5].extractLsb' 0 4 ++ mac[4] ++ mac[3] ++ mac[2]
        ++ mac[1].extractLsb' 4 4 := by
    apply BitVec.eq_of_toNat_eq
    simp only [toNat_append_eq_add, BitVec.extractLsb'_toNat,
      BitVec.toNat_add, BitVec.toNat_shiftLeft, BitVec.toNat_setWidth,
      BitVec.toNat_ushiftRight, Nat.shiftLeft_eq,
      Nat.shiftRight_eq_div_pow]
    omega
  unfold packDmac
  simp only
  rw [hdestsocket1]
  exact congrArg₂ (fun destqp destsocket2 =>
    { wqe with
      destqp := destqp
      destsocket1 := mac[5].extractLsb' 0 4 ++ mac[4] ++ mac[3] ++ mac[2]
        ++ mac[1].extractLsb' 4 4
      destsocket2 := destsocket2 }) hdestqp hdestsocket2

-- ============================================================= the entry

/-- The entry every order leaves in a zeroed one. -/
def header (high qpType opcode : U8) (qpn : U16) (mac : Vector U8 6) :
    Wqe :=
  { Wqe.zero with
    eecntx := qpn.extractLsb' 0 6 ++ 0#10
    destqp := (mac[1].extractLsb' 0 4 ++ mac[0]) ++ qpn.extractLsb' 6 4
    destsocket1 := mac[5].extractLsb' 0 4 ++ mac[4] ++ mac[3] ++ mac[2]
      ++ mac[1].extractLsb' 4 4
    destsocket2 := opcode.extractLsb' 0 4 ++ mac[5].extractLsb' 4 4
    opcode := qpType + high }

/-- The bits of a MAC address, its first byte lowest. -/
def macBits (mac : Vector U8 6) : BitVec 48 :=
  mac[5] ++ mac[4] ++ mac[3] ++ mac[2] ++ mac[1] ++ mac[0]

end BxRnic
