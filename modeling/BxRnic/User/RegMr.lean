/-
The library's half of registering memory (libbxroce/bxroce_verbs.c): the
table of segments `bxroce_reg_mr` copies out of the kernel's answer.

The table is `num_sge` elements of zeroed memory. An element outside it
belongs to something else, so a store there leaves the table as it was;
the model keeps the elements stored to beside the table.
-/
import BxRnic.Kernel.RegMr
import BxRnic.User.PostSend

namespace BxRnic.User

/-- `sizeof(struct sg_phy_info)`, the stride of the copy. -/
def sgPhyInfoSize : Nat := 16

/-- `struct bxroce_mr_sginfo`, as far as the copy fills it in, and the
elements of `sginfo` it stores to. -/
structure MrSginfo where
  sginfo : List SgPhyInfo
  stores : List Nat
  offset : U32

/-- `num_sge` -/
def MrSginfo.numSge (mr : MrSginfo) : Nat := mr.sginfo.length

/-- The two stores of one turn, through
`mr_sginfo->sginfo + i*stride`. -/
def storeSg (i : Nat) (sg : Kernel.SgPhy) (mr : MrSginfo) : MrSginfo :=
  { mr with
    sginfo := mr.sginfo.set (i * sgPhyInfoSize) ⟨sg.addr, sg.size⟩
    stores := mr.stores ++ [i * sgPhyInfoSize] }

/-- The loop of `bxroce_reg_mr`, from the `i`-th element on. -/
def storeSgs (i : Nat) : List Kernel.SgPhy → MrSginfo → MrSginfo
  | [], mr => mr
  | sg :: sgs, mr => storeSgs (i + 1) sgs (storeSg i sg mr)

/-- The table `bxroce_reg_mr` makes of the kernel's answer. -/
def regMr (resp : Kernel.RegMrUresp) : MrSginfo :=
  storeSgs 0 resp.sg
    ⟨List.replicate resp.sgPhyNum ⟨0, 0⟩, [], resp.offset⟩

end BxRnic.User
