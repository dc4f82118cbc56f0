/-
The receive filters of the MAC: by address and by VLAN (bx_mac_hw.c), and
the calls of the network core that change them (bx_mac_net.c).

The registers are a word at each address. `crc32_le` is the kernel's and
a parameter; the checksum of a VLAN id is the driver's own.

# What is left out

The registers that neither filter uses, and what a change of features
does to them. A start is `mac_hw_init` run to
its end (Mac/StartUp says when it is), as far as it programs the others,
from whatever the registers hold when it begins.
-/
import Mathlib.Logic.Function.Basic
import BxRnic.Lib.Bitmap
import BxRnic.Lib.Field
import BxRnic.Lib.Word

namespace BxRnic.Mac

-- ============================================================= registers

def MAC_PFR : Nat := 0x0008
def MAC_HTR0 : Nat := 0x0010
def MAC_VLANTR : Nat := 0x0050
def MAC_VLANHTR : Nat := 0x0058
def MAC_VLANIR : Nat := 0x0060
def MAC_MACA0HR : Nat := 0x0300
def MAC_MACA0LR : Nat := 0x0304
def MAC_MACA1HR : Nat := 0x0308
def MAC_MACA_INC : Nat := 4
def MAC_HTR_INC : Nat := 4
def VLAN_N_VID : Nat := 4096

/-- The registers of the MAC. -/
abbrev MacRegs := Nat → U32

/-- `writel` -/
def MacRegs.writel (regs : MacRegs) (val : U32) (addr : Nat) : MacRegs :=
  Function.update regs addr val

/-- A field of a register is written: `readl`, `MAC_SET_REG_BITS`,
`writel`. -/
def MacRegs.setField (regs : MacRegs) (addr pos len : Nat) (val : U32) :
    MacRegs :=
  regs.writel (Field.set (regs addr) pos len val) addr

/-- A field of a register is read. -/
def MacRegs.getField (regs : MacRegs) (addr pos len : Nat) : U32 :=
  Field.get (regs addr) pos len

-- ================================================================= state

/-- An Ethernet address. -/
structure MacAddr where
  a0 : U8
  a1 : U8
  a2 : U8
  a3 : U8
  a4 : U8
  a5 : U8
deriving DecidableEq

/-- The features of the device that can be switched. -/
structure Features where
  rxhash : Bool
  rxcsum : Bool
  vlanCtagRx : Bool
  vlanCtagFilter : Bool
deriving DecidableEq

/-- `struct net_device`: its flags, addresses and features. -/
structure NetDev where
  promisc : Bool
  allmulti : Bool
  devAddr : MacAddr
  uc : List MacAddr
  mc : List MacAddr
  features : Features
deriving DecidableEq

/-- `struct mac_hw_features`, as far as the filters go. -/
structure MacHwFeat where
  /-- The address entries beside the device's own. -/
  addnMac : Nat
  /-- The bits of the hash table, 0 without one. -/
  hashTableSize : Nat
  supported : hashTableSize ∈ [0, 64, 128, 256]
deriving DecidableEq

/-- The device with its filters. -/
structure FilterDev where
  hwFeat : MacHwFeat
  netdev : NetDev
  /-- `pdata->netdev_features` -/
  netdevFeatures : Features
  activeVlans : Bitmap
  regs : MacRegs

namespace FilterDev

variable (dev : FilterDev)

/-- A field of a register of the device is written. -/
def setField (addr pos len : Nat) (val : U32) : FilterDev :=
  { dev with regs := dev.regs.setField addr pos len val }

/-- The fields of a register are written one after the other, and the
register once. -/
def setFields (addr : Nat) (fields : List (Nat × Nat × U32)) : FilterDev :=
  { dev with
    regs := dev.regs.writel
      (fields.foldl (fun v f => Field.set v f.1 f.2.1 f.2.2)
        (dev.regs addr)) addr }

-- ================================================================== VLAN

/-- `mac_enable_rx_vlan_stripping` -/
def enableRxVlanStripping : FilterDev :=
  dev.setFields MAC_VLANTR
    [(24, 1, 1), (20, 1, 1), (19, 1, 0), (18, 1, 0), (21, 2, 0x3)]

/-- `mac_disable_rx_vlan_stripping` -/
def disableRxVlanStripping : FilterDev :=
  dev.setField MAC_VLANTR 21 2 0

/-- `mac_enable_rx_vlan_filtering` -/
def enableRxVlanFiltering : FilterDev :=
  (dev.setField MAC_PFR 16 1 1).setFields MAC_VLANTR
    [(25, 1, 1), (17, 1, 0), (16, 1, 1), (0, 16, 1)]

/-- `mac_disable_rx_vlan_filtering` -/
def disableRxVlanFiltering : FilterDev :=
  dev.setField MAC_PFR 16 1 0

/-- `CRC32_POLY_LE` -/
def CRC32_POLY_LE : U32 := 0xedb88320

/-- The loop of `mac_vid_crc32_le`, with `left` bits to go; the bits of
the id come in order, the lowest first. -/
def vidCrcLoop : (left : Nat) → (vid : U16) → (crc : U32) → U32
  | 0, _, crc => crc
  | left + 1, vid, crc =>
      let temp := crc.getLsbD 0 ^^ vid.getLsbD 0
      let crc := crc >>> 1
      vidCrcLoop left (vid >>> 1)
        (if temp then crc ^^^ CRC32_POLY_LE else crc)

/-- `mac_vid_crc32_le`: `get_bitmask_order(VLAN_VID_MASK)` is 12. -/
def vidCrc32Le (vid : U16) : U32 := vidCrcLoop 12 vid (~~~0)

/-- The bit of the VLAN hash table that an id has. -/
def vlanHash (vid : Nat) : Nat :=
  ((~~~vidCrc32Le (BitVec.ofNat 16 vid)).reverse >>> 28).toNat

/-- The hash table of the active ids: the loop of
`mac_update_vlan_hash_table`. -/
def vlanHashTable (activeVlans : Bitmap) : U16 :=
  (List.range VLAN_N_VID).foldl
    (fun table vid =>
      if activeVlans vid then table ||| ((1 : U16) <<< vlanHash vid)
      else table) 0

/-- `mac_update_vlan_hash_table` -/
def updateVlanHashTable : FilterDev :=
  dev.setField MAC_VLANHTR 0 16
    ((vlanHashTable dev.activeVlans).setWidth 32)

/-- `mac_config_vlan_support` -/
def configVlanSupport : FilterDev :=
  let dev := dev.setFields MAC_VLANIR [(19, 1, 0), (20, 1, 1)]
  let dev := dev.updateVlanHashTable
  let dev :=
    if dev.netdev.features.vlanCtagFilter then dev.enableRxVlanFiltering
    else dev.disableRxVlanFiltering
  if dev.netdev.features.vlanCtagRx then dev.enableRxVlanStripping
  else dev.disableRxVlanStripping

-- ================================================================= modes

/-- `mac_set_promiscuous_mode` -/
def setPromiscuousMode (enable : Bool) : FilterDev :=
  let val : U32 := if enable then 1 else 0
  if dev.regs.getField MAC_PFR 0 1 = val then dev
  else
    let dev := dev.setField MAC_PFR 0 1 val
    if enable then dev.disableRxVlanFiltering
    else if dev.netdev.features.vlanCtagFilter then
      dev.enableRxVlanFiltering
    else dev

/-- `mac_set_all_multicast_mode` -/
def setAllMulticastMode (enable : Bool) : FilterDev :=
  let val : U32 := if enable then 1 else 0
  if dev.regs.getField MAC_PFR 4 1 = val then dev
  else dev.setField MAC_PFR 4 1 val

end FilterDev

-- ============================================================= addresses

/-- The low word of an address entry: `addr[0]` is the low byte. -/
def MacAddr.lo (a : MacAddr) : U32 :=
  (a.a3 ++ a.a2 ++ a.a1 ++ a.a0 : BitVec 32)

/-- The high word, before `AE` is set. -/
def MacAddr.hi (a : MacAddr) : U32 :=
  (a.a5 ++ a.a4 : BitVec 16).setWidth 32

/-- `mac_set_mac_reg`: an entry is written, of zeros if there is no
address for it; the register moves on. -/
def MacRegs.setMacReg (regs : MacRegs) (ha : Option MacAddr)
    (macReg : Nat) : MacRegs × Nat :=
  let macAddrLo := (ha.map MacAddr.lo).getD 0
  let macAddrHi := (ha.map fun a => Field.set a.hi 31 1 1).getD 0
  let regs := regs.writel macAddrHi macReg
  let macReg := macReg + MAC_MACA_INC
  (regs.writel macAddrLo macReg, macReg + MAC_MACA_INC)

/-- The loops of `mac_set_mac_addn_addrs` over addresses. -/
def MacRegs.setMacRegs (regs : MacRegs) (macReg addnMacs : Nat) :
    List MacAddr → MacRegs × Nat × Nat
  | [] => (regs, macReg, addnMacs)
  | ha :: rest =>
      let (regs, macReg) := regs.setMacReg (some ha) macReg
      regs.setMacRegs macReg (addnMacs - 1) rest

/-- `while (addn_macs--) mac_set_mac_reg(pdata, NULL, &mac_reg);` -/
def MacRegs.clearMacRegs (regs : MacRegs) (macReg : Nat) :
    (addnMacs : Nat) → MacRegs
  | 0 => regs
  | addnMacs + 1 =>
      let (regs, macReg) := regs.setMacReg none macReg
      regs.clearMacRegs macReg addnMacs

section

variable (crc32Le : U32 → MacAddr → U32)

/-- The bit of an address in the hash table. -/
def hashIndex (shift : Nat) (a : MacAddr) : Nat :=
  ((~~~crc32Le (~~~0) a).reverse >>> shift).toNat

/-- The loops of `mac_set_mac_hash_table` over addresses: the words of
the table. -/
def addHashes (shift : Nat) (table : Nat → U32) (addrs : List MacAddr) :
    Nat → U32 :=
  addrs.foldl
    (fun table ha =>
      let crc := hashIndex crc32Le shift ha
      Function.update table (crc / 32)
        (table (crc / 32) ||| ((1 : U32) <<< (crc % 32)))) table

/-- The words of the table are written, from the `i`-th on. -/
def MacRegs.writeHashes (regs : MacRegs) (table : Nat → U32) :
    (left i : Nat) → MacRegs
  | 0, _ => regs
  | left + 1, i =>
      (regs.writel (table i) (MAC_HTR0 + MAC_HTR_INC * i)).writeHashes
        table left (i + 1)

namespace FilterDev

variable (dev : FilterDev)

/-- `hash_table_shift` -/
def hashTableShift : Nat := 26 - (dev.hwFeat.hashTableSize >>> 7)

/-- `mac_set_mac_addn_addrs` -/
def setMacAddnAddrs : FilterDev :=
  let addnMacs := dev.hwFeat.addnMac
  if dev.netdev.uc.length > addnMacs then
    let dev := dev.setPromiscuousMode true
    { dev with regs := dev.regs.clearMacRegs MAC_MACA1HR addnMacs }
  else
    let (regs, macReg, addnMacs) :=
      dev.regs.setMacRegs MAC_MACA1HR addnMacs dev.netdev.uc
    let dev := { dev with regs := regs }
    if dev.netdev.mc.length > addnMacs then
      let dev := dev.setAllMulticastMode true
      { dev with regs := dev.regs.clearMacRegs macReg addnMacs }
    else
      let (regs, macReg, addnMacs) :=
        dev.regs.setMacRegs macReg addnMacs dev.netdev.mc
      { dev with regs := regs.clearMacRegs macReg addnMacs }

/-- `mac_set_mac_hash_table` -/
def setMacHashTable : FilterDev :=
  let hashTableCount := dev.hwFeat.hashTableSize / 32
  let table := addHashes crc32Le dev.hashTableShift (fun _ => 0)
    dev.netdev.uc
  let table := addHashes crc32Le dev.hashTableShift table dev.netdev.mc
  { dev with regs := dev.regs.writeHashes table hashTableCount 0 }

/-- `mac_add_mac_addresses` -/
def addMacAddresses : FilterDev :=
  if dev.hwFeat.hashTableSize ≠ 0 then dev.setMacHashTable crc32Le
  else dev.setMacAddnAddrs

/-- `mac_config_rx_mode` -/
def configRxMode : FilterDev :=
  let dev := dev.setPromiscuousMode dev.netdev.promisc
  let dev := dev.setAllMulticastMode dev.netdev.allmulti
  dev.addMacAddresses crc32Le

/-- `mac_config_mac_address` -/
def configMacAddress : FilterDev :=
  let regs := dev.regs.writel dev.netdev.devAddr.hi MAC_MACA0HR
  let dev :=
    { dev with regs := regs.writel dev.netdev.devAddr.lo MAC_MACA0LR }
  if dev.hwFeat.hashTableSize ≠ 0 then
    dev.setFields MAC_PFR [(10, 1, 1), (1, 1, 1), (2, 1, 1)]
  else dev

-- ================================================================= calls

/-- `mac_hw_init`, as far as it programs the filters. -/
def macHwInit : FilterDev :=
  let dev := dev.configMacAddress
  let dev := dev.configRxMode crc32Le
  let dev := dev.configVlanSupport
  -- control packets, and receive all
  let dev := dev.setField MAC_PFR 6 2 2
  dev.setField MAC_PFR 31 1 1

/-- Stripping is switched when its feature changes. -/
def switchStripping (features old : Features) : FilterDev :=
  if features.vlanCtagRx ∧ ¬ old.vlanCtagRx then dev.enableRxVlanStripping
  else if ¬ features.vlanCtagRx ∧ old.vlanCtagRx then
    dev.disableRxVlanStripping
  else dev

/-- So is the filter. -/
def switchFiltering (features old : Features) : FilterDev :=
  if features.vlanCtagFilter ∧ ¬ old.vlanCtagFilter then
    dev.enableRxVlanFiltering
  else if ¬ features.vlanCtagFilter ∧ old.vlanCtagFilter then
    dev.disableRxVlanFiltering
  else dev

/-- `mac_set_features`, which `mac_enable_rss` or `mac_disable_rss` may
fail with `rssRet`. The core takes the features over when it succeeds. -/
def setFeatures (features : Features) (rssRet : Int) : FilterDev :=
  let old := dev.netdevFeatures
  if features.rxhash ≠ old.rxhash ∧ rssRet ≠ 0 then dev
  else
    let dev := dev.switchStripping features old
    let dev := dev.switchFiltering features old
    { dev with
      netdevFeatures := features
      netdev := { dev.netdev with features := features } }

end FilterDev

/-- What happens to the filters. -/
inductive FilterCall
  /-- A start, or the start at the end of a restart; the registers hold
  anything. -/
  | start (regs : MacRegs)
  /-- The core has new flags or addresses, and `mac_set_rx_mode`. -/
  | setRxMode (promisc allmulti : Bool) (uc mc : List MacAddr)
  | setFeatures (features : Features) (rssRet : Int)
  /-- `mac_vlan_rx_add_vid` -/
  | addVid (vid : Fin VLAN_N_VID)
  /-- `mac_vlan_rx_kill_vid` -/
  | killVid (vid : Fin VLAN_N_VID)

/-- A call. -/
def FilterDev.step (dev : FilterDev) : FilterCall → FilterDev
  | .start regs => { dev with regs := regs }.macHwInit crc32Le
  | .setRxMode promisc allmulti uc mc =>
      { dev with
        netdev := { dev.netdev with
          promisc := promisc
          allmulti := allmulti
          uc := uc
          mc := mc } }.configRxMode crc32Le
  | .setFeatures features rssRet => dev.setFeatures features rssRet
  | .addVid vid =>
      { dev with
        activeVlans := dev.activeVlans.setBit vid }.updateVlanHashTable
  | .killVid vid =>
      { dev with
        activeVlans := dev.activeVlans.clearBit vid }.updateVlanHashTable

/-- The device as it is after the probe. -/
def FilterDev.probed (hwFeat : MacHwFeat) (netdev : NetDev)
    (regs : MacRegs) : FilterDev where
  hwFeat := hwFeat
  netdev := netdev
  netdevFeatures := netdev.features
  activeVlans := fun _ => false
  regs := regs

end

end BxRnic.Mac
