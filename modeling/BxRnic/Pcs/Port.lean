/-
The two Ethernet ports as the link code sees them: the fields of `struct
rnic_pdata` that auto-negotiation and KR training use, and the PCS
registers behind each port (bx_rnic_com.c, header/bx_rnic_com.h).

The structure keeps one copy of every field for each port, `pcs_0_*` and
`pcs_1_*` (with `port_0_speed` and `port_1_speed`): `PcsFields` is one
copy. The null page is shared.

A register access goes to the window of the port it names, so that each
port has a register block of its own. What a block does with an access
is the hardware's affair (`PcsHw`): a bit may clear itself, a read may
have an effect. The block remembers what was written to it.
-/
import BxRnic.Lib.Word

namespace BxRnic.Pcs

-- ============================================================ constants

def SPEED_25G : U32 := 25
def SPEED_50G : U32 := 50

def PCS_AN_MAX_RCV_CNT : U32 := 50
def PCS_LINK_CHECK_SLOW_TIMER_USECS : U32 := 100000
def PCS_LINK_CHECK_FAST_TIMER_USECS : U32 := 1

def SR_PMA_KR_PMD_CTRL : Nat := 0x10096
def SR_PMA_KR_PMD_STS : Nat := 0x10097
def SR_AN_CTRL : Nat := 0x70000
def SR_AN_STS : Nat := 0x70001
def SR_AN_ADV1 : Nat := 0x70010
def SR_AN_ADV2 : Nat := 0x70011
def SR_AN_ADV3 : Nat := 0x70012
def SR_AN_LP_ABL1 : Nat := 0x70013
def SR_AN_LP_ABL2 : Nat := 0x70014
def SR_AN_LP_ABL3 : Nat := 0x70015
def SR_AN_XNP_TX1 : Nat := 0x70016
def SR_AN_XNP_TX2 : Nat := 0x70017
def SR_AN_XNP_TX3 : Nat := 0x70018
def SR_AN_LP_XNP_ABL1 : Nat := 0x70019
def SR_AN_LP_XNP_ABL2 : Nat := 0x7001a
def SR_AN_LP_XNP_ABL3 : Nat := 0x7001b
def SR_AN_COMP_STS : Nat := 0x70030
def VR_AN_INTR : Nat := 0x78002

-- =========================================================== bit fields

/-- `set_bits`: bits `indexH` down to `indexL` replaced by the low bits
of `newVal`, the indices in either order. -/
def setBits (data : U32) (indexH indexL : Nat) (newVal : U32) : U32 :=
  let h := max indexH indexL
  let l := min indexH indexL
  let dataL := if l = 0 then 0 else (data <<< (32 - l)) >>> (32 - l)
  let dataM := (newVal <<< (31 + l - h)) >>> (31 - h)
  let dataH := if h = 31 then 0 else (data >>> (h + 1)) <<< (h + 1)
  dataH ||| dataM ||| dataL

/-- `get_bits` -/
def getBits (data : U32) (indexH indexL : Nat) : U32 :=
  let h := max indexH indexL
  let l := min indexH indexL
  (data <<< (31 - h)) >>> (31 + l - h)

-- ================================================================ state

/-- `port_id`: the drivers test it against 0. -/
inductive Port
  | zero
  | one
deriving DecidableEq

/-- The port across. -/
def Port.other : Port → Port
  | .zero => .one
  | .one => .zero

/-- One port's copy of its fields of `struct rnic_pdata`. -/
structure PcsFields where
  speed : U32
  krtEn : U32
  anEn : U32
  anBp1 : U32
  anBp2 : U32
  anBp3 : U32
  anNxp10 : U32
  anNxp20 : U32
  anNxp30 : U32
  anNxp11 : U32
  anNxp21 : U32
  anNxp31 : U32
  anNxpIndex : U32
  krtLaneMask : U32
  anStart : U32
  anRcvCnt : U32
  anIntrCheckCnt : U32
  anSuccess : U32
  anRestartLock : U32
  krtStart : U32
  krtSuccess : U32
  krtFailed : U32
deriving DecidableEq

/-- How a PCS register block answers a read at an offset and what a read
and a write do to it. -/
structure PcsHw (H : Type) where
  read : H → Nat → U32 × H
  write : H → Nat → U32 → H

/-- A port's register block with the writes it received, the last one
last. -/
structure Block (H : Type) where
  regs : H
  writes : List (Nat × U32)
deriving DecidableEq

/-- The driver's state: the two copies of the fields, the shared null
page, the period of the link check and the two register blocks. -/
structure Nic (H : Type) where
  pcs0 : PcsFields
  pcs1 : PcsFields
  anNxp1Null : U32
  anNxp2Null : U32
  anNxp3Null : U32
  linkCheckUsecs : U32
  block0 : Block H
  block1 : Block H
deriving DecidableEq

abbrev Driver (H : Type) := StateM (Nic H)

variable {H : Type}

-- ============================================================ registers

/-- `pcs_reg_read`: the base address is that of the port's window. -/
def pcsRegRead (hw : PcsHw H) (pcsId : Port) (offset : Nat) :
    Driver H U32 := do
  let s ← get
  match pcsId with
  | .zero =>
    set { s with block0.regs := (hw.read s.block0.regs offset).2 }
    pure (hw.read s.block0.regs offset).1
  | .one =>
    set { s with block1.regs := (hw.read s.block1.regs offset).2 }
    pure (hw.read s.block1.regs offset).1

/-- `pcs_reg_write` -/
def pcsRegWrite (hw : PcsHw H) (pcsId : Port) (offset : Nat)
    (data : U32) : Driver H Unit :=
  match pcsId with
  | .zero => modify fun s =>
    { s with block0 := {
      regs := hw.write s.block0.regs offset data
      writes := s.block0.writes ++ [(offset, data)] } }
  | .one => modify fun s =>
    { s with block1 := {
      regs := hw.write s.block1.regs offset data
      writes := s.block1.writes ++ [(offset, data)] } }

end BxRnic.Pcs
