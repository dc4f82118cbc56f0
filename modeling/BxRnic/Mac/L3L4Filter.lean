/-
The layer 3 and layer 4 filter (bx_mac_cfg.c), through which packets to
the UDP port of RoCE get to the channel of the MPB. Its registers are
behind two of the MAC's.

The driver waits for the MAC without limit; `times` says how often it
looks. A write is not waited for: the next access finds it under way.
-/
import BxRnic.Bits
import BxRnic.Lib.Field
import BxRnic.Lib.Indirect

namespace BxRnic.Mac

open Indirect Pcs

-- ============================================================ the registers

/-- Registers `0x0c00` and `0x0c04`, and what is behind them. -/
structure FilterCfgRegs where
  ctrl : U32
  data : U32
  entry : Nat → U32

/-- Bit 0 of `0x0c00`: a command is under way. -/
def FilterCfgRegs.started (r : FilterCfgRegs) : Bool :=
  Field.get r.ctrl 0 1 = 1

/-- Bit 1: the command is a read. -/
def FilterCfgRegs.isRead (r : FilterCfgRegs) : Bool :=
  Field.get r.ctrl 1 1 = 1

/-- Bits 15 down to 8: of which register. -/
def FilterCfgRegs.addr (r : FilterCfgRegs) : Nat :=
  (Field.get r.ctrl 8 8).toNat

/-- What the MAC does with a command. -/
def FilterCfgRegs.finish (r : FilterCfgRegs) : FilterCfgRegs :=
  if r.started then
    let ctrl := Field.set r.ctrl 0 1 0
    if r.isRead then { r with data := r.entry r.addr, ctrl := ctrl }
    else
      { r with
        entry := Function.update r.entry r.addr r.data
        ctrl := ctrl }
  else r

/-- The registers behind. -/
def FilterCfgRegs.view (r : FilterCfgRegs) : Table Nat U32 where
  entry := r.entry
  data := r.data
  command := if r.started then some (r.addr, r.isRead) else none

section Driver

variable (clock : Nat → Bool) (times : Nat)

end Driver

end BxRnic.Mac
