/-
Address handles (bx_roce_driver/bxroce_ah.c): `bxroce_create_ah` packs
an address vector into an entry of the device's table, and
`bxroce_query_ah` reads the attributes back out of it.

An entry (`struct bxroce_av`) is kept as its bytes, since headers of
three layouts are copied over it:

- an Ethernet header at 0, of 18 bytes with a VLAN tag and 14 without;
- behind that header either a `struct bxroce_grh` of 44 bytes or an IPv4
  header of 20;
- the word `valid` at 64.

What the network core computes is an argument of the call: the MAC
address of a multicast or link-local gid and the IPv4 address of a gid
(`NetCore`). So is the header checksum, which the code never writes: it
is what the stack held.
-/
import BxRnic.Hw
import BxRnic.Lib.Bytes
import Mathlib.Logic.Function.Basic

namespace BxRnic.Kernel

-- ========================================================= address vectors

/-- `EAGAIN` -/
def EAGAIN : Int := 11

/-- `sizeof(struct bxroce_eth_vlan)` -/
def sizeofEthVlan : Nat := 18

/-- `sizeof(struct bxroce_eth_basic)` -/
def sizeofEthBasic : Nat := 14

/-- The offset of `valid` in a `struct bxroce_av`. -/
def avValidOffset : Nat := 64

/-- `BXROCE_AV_VALID` -/
def avValid : U32 := (1 : U32) <<< 7

/-- `BXROCE_AV_VLAN_VALID` -/
def avVlanValid : U32 := (1 : U32) <<< 1

/-- `dev->av_tbl` -/
structure AvTbl where
  va : Nat → Mem
  numAh : Nat

/-- `av->valid` -/
def avGetValid (av : Mem) : U32 := av.loadLe32 avValidOffset

/-- A store to `av->valid`. -/
def avSetValid (av : Mem) (valid : U32) : Mem :=
  av.store avValidOffset (le32 valid)

/-- An entry is rewritten. -/
def AvTbl.set (tbl : AvTbl) (i : Nat) (av : Mem) : AvTbl :=
  { tbl with va := Function.update tbl.va i av }

theorem AvTbl.set_va (tbl : AvTbl) (i : Nat) (av : Mem) :
    (tbl.set i av).va i = av := by
  unfold AvTbl.set
  exact Function.update_self _ _ _

theorem AvTbl.set_va_other (tbl : AvTbl) {i j : Nat} (av : Mem)
    (hne : i ≠ j) : (tbl.set j av).va i = tbl.va i := by
  unfold AvTbl.set
  exact Function.update_of_ne hne _ _

-- ============================================================= attributes

/-- `enum rdma_network_type` -/
inductive NetworkType
  /-- `RDMA_NETWORK_IB`, which is RoCE v1 -/
  | ib
  | ipv4
  | ipv6
  | other
deriving DecidableEq

/-- `struct ib_global_route`, less `sgid_attr`. -/
structure IbGlobalRoute where
  dgid : Vector U8 16
  flowLabel : U32
  sgidIndex : U8
  hopLimit : U8
  trafficClass : U8
deriving DecidableEq

/-- `struct ib_gid_attr` of the source gid: the VLAN of its network
device, if it is a VLAN device, and its network type. -/
structure GidAttr where
  gid : Vector U8 16
  vlanId : Option U16
  networkType : NetworkType

/-- `struct rdma_ah_attr`, as far as creating reads it. -/
structure AhAttr where
  /-- `RDMA_AH_ATTR_TYPE_ROCE` -/
  roce : Bool
  /-- `IB_AH_GRH` -/
  grhFlag : Bool
  grh : IbGlobalRoute
  sgidAttr : GidAttr
  dmac : Vector U8 6

/-- `struct bxroce_ah`: the entry it points to and its id are one. -/
structure Ah where
  av : Nat
  sgidIndex : U16
  hdrType : NetworkType

/-- What the network core makes of a gid. -/
structure NetCore where
  /-- The address of a multicast or link-local gid. -/
  gidMac : Vector U8 16 → Option (Vector U8 6)
  /-- `rdma_gid2ip`, its `s_addr`. -/
  gid2ip : Vector U8 16 → Vector U8 4

-- ================================================================ creating

/-- `bxroce_hdr_type_to_proto_num` -/
def hdrTypeToProtoNum : NetworkType → U16
  | .ib => 0x8915
  | .ipv4 => 0x0800
  | .ipv6 => 0x86dd
  | .other => 0

/-- `nxthdr` -/
def nextHeader (hdrType : NetworkType) : U8 :=
  if hdrTypeToProtoNum hdrType = 0x8915 then 0x1b else 0x11

/-- `bxroce_resolve_dmac` -/
def resolveDmac (core : NetCore) (attr : AhAttr) : Vector U8 6 :=
  (core.gidMac attr.grh.dgid).getD attr.dmac

/-- The Ethernet header, with a VLAN tag or without. -/
def ethHdr (dmac smac : Vector U8 6) (protoNum vlanTag : U16) : List U8 :=
  if vlanTag ≠ 0 then
    dmac.toList ++ smac.toList ++ be16 0x8100 ++ be16 vlanTag
      ++ be16 protoNum
  else
    dmac.toList ++ smac.toList ++ be16 protoNum

/-- The `struct iphdr`, field by field: version, header length and class
of service, `tot_len`, `id`, `frag_off` with `IP_DF`, `ttl`, `protocol`,
`check`, and the addresses. -/
def ipHdr (core : NetCore) (grh : IbGlobalRoute) (sgid : Vector U8 16)
    (pdid : U32) (nxthdr : U8) (check : U16) : List U8 :=
  be16 ((4 : U16) <<< 12 ||| (5 : U16) <<< 8
      ||| grh.trafficClass.setWidth 16)
    ++ be16 0 ++ be16 (pdid.setWidth 16) ++ be16 0x4000
    ++ [grh.hopLimit, nxthdr]
    ++ be16 check ++ (core.gid2ip sgid).toList
    ++ (core.gid2ip grh.dgid).toList

/-- `tclass_flow`, before it is swapped. -/
def tclassFlow (grh : IbGlobalRoute) : U32 :=
  (6 : U32) <<< 28 ||| grh.trafficClass.setWidth 32 <<< 24 ||| grh.flowLabel

/-- `pdid_hoplimit`, before it is swapped. -/
def pdidHoplimit (grh : IbGlobalRoute) (pdid : U32) (nxthdr : U8) : U32 :=
  pdid <<< 16 ||| nxthdr.setWidth 32 <<< 8 ||| grh.hopLimit.setWidth 32

/-- The `struct bxroce_grh`, cleared first and with its padding. -/
def grhHdr (grh : IbGlobalRoute) (sgid : Vector U8 16) (pdid : U32)
    (nxthdr : U8) : List U8 :=
  be32 (tclassFlow grh) ++ be32 (pdidHoplimit grh pdid nxthdr)
    ++ sgid.toList ++ grh.dgid.toList ++ [0, 0, 0, 0]

/-- What `set_av_attr` works with besides the attributes. -/
structure AvEnv where
  core : NetCore
  /-- `netdev->dev_addr` -/
  smac : Vector U8 6
  pdid : U32
  /-- What the stack held where the checksum is. -/
  check : U16

/-- The header behind the Ethernet header. -/
def netHdr (env : AvEnv) (attr : AhAttr) (hdrType : NetworkType)
    (nxthdr : U8) : List U8 :=
  if hdrType = .ipv4 then
    ipHdr env.core attr.grh attr.sgidAttr.gid env.pdid nxthdr env.check
  else grhHdr attr.grh attr.sgidAttr.gid env.pdid nxthdr

/-- `set_av_attr`: a status, and the handle and its entry. -/
def setAvAttr (env : AvEnv) (attr : AhAttr) (vlanTag : U16) (ah : Ah)
    (av : Mem) : Int × Ah × Mem :=
  let protoNum := hdrTypeToProtoNum ah.hdrType
  if protoNum = 0 then (-EINVAL, ah, av)
  else
    let nxthdr := nextHeader ah.hdrType
    if vlanTag = 0 ∨ vlanTag > 0xfff then (-EINVAL, ah, av)
    else
      let eth := ethHdr (resolveDmac env.core attr) env.smac protoNum vlanTag
      let isvlan := vlanTag ≠ 0
      let ethSz := if vlanTag ≠ 0 then sizeofEthVlan else sizeofEthBasic
      let ah := { ah with sgidIndex := attr.grh.sgidIndex.setWidth 16 }
      let av := av.store 0 eth
      let av := av.store ethSz (netHdr env attr ah.hdrType nxthdr)
      let valid := avGetValid av
      let valid := if isvlan then valid ||| avVlanValid else valid
      (0, ah, avSetValid av valid)

/-- The scan of `bxroce_alloc_av`: the first entry that is not valid. -/
def AvTbl.free (tbl : AvTbl) : Option Nat :=
  (List.range tbl.numAh).find? fun i => avGetValid (tbl.va i) = 0

/-- How a call of `bxroce_create_ah` ends. -/
inductive Created
  | ok (ah : Ah)
  | err (status : Int)
  /-- The driver faults. -/
  | oops

/-- A call of `bxroce_create_ah`. -/
structure CreateAh where
  env : AvEnv
  attr : AhAttr
  /-- It comes from user space. -/
  udata : Bool
  /-- `kzalloc` gives memory for the handle. -/
  memory : Bool

/-- `bxroce_create_ah`. For user space `bxroce_copy_ah_uresp` takes the
first byte of the MAC address for the address to copy from, and faults. -/
def createAh (tbl : AvTbl) (c : CreateAh) : Created × AvTbl :=
  if c.attr.roce ∧ !c.attr.grhFlag then (.err (-EINVAL), tbl)
  else if !c.memory then (.err (-ENOMEM), tbl)
  else
    match tbl.free with
    | none => (.err (-EAGAIN), tbl)
    | some i =>
        let ah : Ah := ⟨i, 0, c.attr.sgidAttr.networkType⟩
        let av := avSetValid (tbl.va i) avValid
        let vlanTag := c.attr.sgidAttr.vlanId.getD 0xffff
        let (status, ah, av) := setAvAttr c.env c.attr vlanTag ah av
        if status ≠ 0 then
          (.err status, tbl.set i (avSetValid av 0))
        else if c.udata then (.oops, tbl.set i av)
        else (.ok ah, tbl.set i av)

/-- `bxroce_free_av`, which is all `bxroce_destroy_ah` does to the
table. -/
def destroyAh (tbl : AvTbl) (ah : Ah) : AvTbl :=
  tbl.set ah.av (avSetValid (tbl.va ah.av) 0)

/-- A handle that was given out, and its address. -/
structure AhObj where
  addr : Nat
  ah : Ah

/-- The table and the handles there are. -/
structure AhDev where
  tbl : AvTbl
  ahs : List AhObj
  /-- Where the next handle will be. -/
  fresh : Nat

/-- A device once its table is zeroed. -/
def AhDev.init (numAh : Nat) : AhDev := ⟨⟨fun _ _ => 0, numAh⟩, [], 0⟩

/-- A call on a device: a handle is made, or the one at an address is
destroyed. -/
inductive AhDevCall
  | create (c : CreateAh)
  | destroy (addr : Nat)

/-- The device after a call. -/
def AhDev.step (dev : AhDev) : AhDevCall → AhDev
  | .create c =>
      match createAh dev.tbl c with
      | (.ok ah, tbl) => ⟨tbl, ⟨dev.fresh, ah⟩ :: dev.ahs, dev.fresh + 1⟩
      | (_, tbl) => { dev with tbl := tbl }
  | .destroy addr =>
      match dev.ahs.find? fun obj => obj.addr = addr with
      | none => dev
      | some obj =>
          { dev with
            tbl := destroyAh dev.tbl obj.ah
            ahs := dev.ahs.filter fun obj' => obj'.addr ≠ addr }

-- ================================================================ querying

/-- What `bxroce_query_ah` fills in. -/
structure QueriedAh where
  sl : U8
  grh : IbGlobalRoute
deriving DecidableEq

/-- The sixteen bytes `rdma_ah_set_dgid_raw` copies. -/
def loadGid (av : Mem) (off : Nat) : Vector U8 16 :=
  Vector.ofFn fun i : Fin 16 => av (off + i)

/-- `bxroce_query_ah` -/
def queryAh (tbl : AvTbl) (ah : Ah) : QueriedAh :=
  let av := tbl.va ah.av
  let valid := avGetValid av &&& avValid ≠ 0
  let grh := if valid then sizeofEthVlan else sizeofEthBasic
  let tclassFlow := av.loadBe32 grh
  let pdidHoplimit := av.loadBe32 (grh + 4)
  { sl := if valid then (av.loadBe16 14 >>> 13).setWidth 8 else 0
    grh :=
      { dgid := loadGid av (grh + 24)
        flowLabel := tclassFlow &&& 0xffffffff
        sgidIndex := ah.sgidIndex.setWidth 8
        hopLimit := (pdidHoplimit &&& 0xff).setWidth 8
        trafficClass := (tclassFlow >>> 24).setWidth 8 } }

end BxRnic.Kernel
