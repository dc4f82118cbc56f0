/-
The memory a user context may map (bx_roce_driver/bxroce_verbs.c): the
list of registered address ranges, and the mmap handler that consults
it.

The list is kept under `mm_list_lock`, so every operation is one step.
Whether `kzalloc` finds memory is an argument of the registration; what
the kernel's remap routines return is not looked at here, only whether,
and as which kind of memory, the handler asks them to map.
-/
import BxRnic.Hw

namespace BxRnic.Kernel

-- ================================================================ the list

/-- `struct bxroce_mm`: the key of one registered range. -/
structure MmKey where
  phyAddr : U64
  len : U64
deriving DecidableEq

/-- The test of the loops over the list: entries that differ in address
and in length are passed over. -/
def mmMatches (phyAddr len : U64) (mm : MmKey) : Bool :=
  !(decide (len ≠ mm.len) && decide (phyAddr ≠ mm.phyAddr))

/-- `bxroce_add_mmap` -/
def addMmap (mmHead : List MmKey) (phyAddr len : U64) (allocOk : Bool) :
    Int × List MmKey :=
  if allocOk then (0, mmHead ++ [⟨phyAddr, len⟩]) else (-ENOMEM, mmHead)

/-- `bxroce_del_mmap`: the first entry that matches is dropped. -/
def delMmap (mmHead : List MmKey) (phyAddr len : U64) : List MmKey :=
  mmHead.eraseP (mmMatches phyAddr len)

/-- `bxroce_find_mmap` -/
def findMmap (mmHead : List MmKey) (phyAddr len : U64) : Bool :=
  mmHead.any (mmMatches phyAddr len)

-- ============================================================= the handler

/-- `PAGE_SHIFT` -/
def pageShift : Nat := 12

/-- `SQ_REG_LEN` -/
def sqRegLen : U64 := 0x1000

/-- `struct vm_area_struct`. The kernel hands out areas that start on a
page. -/
structure VmArea where
  vmStart : U64
  vmEnd : U64
  vmPgoff : U64
  aligned : vmStart &&& (0x1000 - 1) = 0

/-- The physical address an area asks for. -/
def VmArea.phyAddr (vma : VmArea) : U64 := vma.vmPgoff <<< pageShift

/-- The length it asks for. -/
def VmArea.len (vma : VmArea) : U64 := vma.vmEnd - vma.vmStart

/-- The routine the handler maps an area with. -/
inductive Remap
  | ioRemapPfnRange
  | remapPfnRange
deriving DecidableEq

/-- `bxroce_mmap`, up to the call of the remap routine; `ioaddr` is the
address of the device's register window. -/
def bxroceMmap (mmHead : List MmKey) (ioaddr : U64) (vma : VmArea) :
    Except Int Remap :=
  let vmPage := vma.vmPgoff <<< pageShift
  if vma.vmStart &&& (0x1000 - 1) ≠ 0 then .error (-EINVAL)
  else if findMmap mmHead vma.phyAddr vma.len = false then
    .error (-EINVAL)
  else if vmPage ≥ ioaddr ∧ vmPage ≤ ioaddr + sqRegLen
      ∧ vma.len ≤ sqRegLen then
    .ok .ioRemapPfnRange
  else
    .ok .remapPfnRange

-- =============================================================== a context

/-- What happens to a context's list. -/
inductive MmapCall
  | add (phyAddr len : U64) (allocOk : Bool)
  | del (phyAddr len : U64)
  | mmap (ioaddr : U64) (vma : VmArea)

/-- The list after a call. -/
def MmapCall.step (mmHead : List MmKey) : MmapCall → List MmKey
  | .add phyAddr len allocOk => (addMmap mmHead phyAddr len allocOk).2
  | .del phyAddr len => delMmap mmHead phyAddr len
  | .mmap _ _ => mmHead

end BxRnic.Kernel
