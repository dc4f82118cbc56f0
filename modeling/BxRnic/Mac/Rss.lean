/-
Receive side scaling: the hash key and the lookup table, which are behind
`MAC_RSSAR` and `MAC_RSSDR`, and the calls that turn it on and off
(bx_mac_hw.c; `mac_set_features` in bx_mac_net.c).

The driver waits for the NIC a thousand times at most. What the NIC does
with a command that takes longer is not the driver's any more, but it is
still carried out.
-/
import BxRnic.Lib.Field
import BxRnic.Lib.Indirect
import BxRnic.Lib.Word
import BxRnic.Mac.Coalesce
import BxRnic.Mac.StartUp

namespace BxRnic.Mac

open Indirect

-- ============================================================ the registers

/-- `MAC_RSS_LOOKUP_TABLE_TYPE` and `MAC_RSS_HASH_KEY_TYPE` -/
def rssLookupTableType : U32 := 0
def rssHashKeyType : U32 := 1

/-- The registers, and what is behind them: the words of the hash key
(`true`) and of the lookup table (`false`). -/
structure RssRegs where
  rsscr : U32
  rssar : U32
  rssdr : U32
  entry : Bool × Nat → U32

/-- `MAC_RSSAR_OB` -/
def RssRegs.ob (r : RssRegs) : Bool := Field.get r.rssar 0 1 = 1

/-- `MAC_RSSAR_CT`: the command is a read. -/
def RssRegs.ct (r : RssRegs) : Bool := Field.get r.rssar 1 1 = 1

/-- `MAC_RSSAR_ADDRT` and `MAC_RSSAR_RSSIA` -/
def RssRegs.addr (r : RssRegs) : Bool × Nat :=
  (Field.get r.rssar 2 1 = 1, (Field.get r.rssar 8 8).toNat)

/-- What the NIC does with a command. -/
def RssRegs.finish (r : RssRegs) : RssRegs :=
  if r.ob then
    let rssar := Field.set r.rssar 0 1 0
    if r.ct then { r with rssdr := r.entry r.addr, rssar := rssar }
    else
      { r with
        entry := Function.update r.entry r.addr r.rssdr
        rssar := rssar }
  else r

/-- The table behind the registers. -/
def RssRegs.view (r : RssRegs) : Table (Bool × Nat) U32 where
  entry := r.entry
  data := r.rssdr
  command := if r.ob then some (r.addr, r.ct) else none

theorem RssRegs.ob_done (r : RssRegs) (entry : Bool × Nat → U32)
    (rssdr : U32) :
    RssRegs.ob ⟨r.rsscr, Field.set r.rssar 0 1 0, rssdr, entry⟩ = false := by
  unfold RssRegs.ob
  dsimp only
  rw [Field.get_set (by omega)]
  decide

/-- `MAC_RSSAR` as a port to the tables. -/
def rssPort : Port RssRegs (Bool × Nat) U32 where
  view := RssRegs.view
  finish := RssRegs.finish
  view_finish r := by
    unfold RssRegs.view RssRegs.finish
    cases hob : r.ob with
    | false =>
      simp only [hob, Bool.false_eq_true, if_false]
      rfl
    | true =>
      cases hct : r.ct with
      | true =>
        simp only [if_true, RssRegs.ob_done, Bool.false_eq_true, if_false]
        rfl
      | false =>
        simp only [if_true, RssRegs.ob_done, Bool.false_eq_true, if_false]
        rfl

-- ================================================================ the driver

/-- The registers, with the looks at `OB` that have been taken. -/
abbrev RssHw := Timed RssRegs

/-- The word that is written to `MAC_RSSAR`. -/
def rssCommand (rssar type index : U32) : U32 :=
  Field.set (Field.set (Field.set (Field.set rssar 8 8 index) 2 1 type)
    1 1 0) 0 1 1

section Driver

variable (clock : Nat → Bool)

/-- `mac_write_rss_reg` -/
def writeRssReg (type index val : U32) (s : RssHw) : Int × RssHw :=
  let s := rssPort.tick clock s
  if s.dev.ob then (-EBUSY, s)
  else
    let s :=
      { s with dev :=
        { s.dev with
          rssdr := val
          rssar := rssCommand s.dev.rssar type index } }
    let (idle, s) := rssPort.wait clock 1000 s
    (if idle then 0 else -EBUSY, s)

/-- The loops over registers of one type. -/
def writeRssRegs (type : U32) : List (Nat × U32) → RssHw → Int × RssHw
  | [], s => (0, s)
  | (index, val) :: rest, s =>
      match writeRssReg clock type (BitVec.ofNat 32 index) val s with
      | (0, s) => writeRssRegs type rest s
      | (ret, s) => (ret, s)

/-- `mac_write_rss_hash_key`: the first word goes to the last register. -/
def writeRssHashKey (key : List U32) : RssHw → Int × RssHw :=
  writeRssRegs clock rssHashKeyType
    ((List.range key.length).reverse.zip key)

/-- `mac_write_rss_lookup_table` -/
def writeRssLookupTable (table : List U32) : RssHw → Int × RssHw :=
  writeRssRegs clock rssLookupTableType
    ((List.range table.length).zip table)

/-- `struct mac_pdata`, as far as the scaling goes, with the registers. -/
structure Rss where
  hw : RssHw
  /-- `hw_feat.rss` -/
  hwFeatRss : Bool
  /-- `rss_key`, as words. -/
  rssKey : List U32
  rssTable : List U32
  rssOptions : U32
  /-- `NETIF_F_RXHASH` in `pdata->netdev_features`. -/
  netdevFeatures : Bool
  /-- `NETIF_F_RXHASH` in `netdev->features`. -/
  features : Bool
  keyLength : rssKey.length = 10
  tableLength : rssTable.length = 256

/-- `MAC_RSSCR` is written. -/
def Rss.setRsscr (p : Rss) (rsscr : U32) : Rss :=
  { p with hw := { p.hw with dev := { p.hw.dev with rsscr := rsscr } } }

/-- `MAC_RSSCR_RSSE` -/
def Rss.rsse (p : Rss) : Bool := Field.get p.hw.dev.rsscr 0 1 = 1

/-- `mac_enable_rss` -/
def Rss.enableRss (p : Rss) : Int × Rss :=
  if !p.hwFeatRss then (-EOPNOTSUPP, p)
  else
    match writeRssHashKey clock p.rssKey p.hw with
    | (0, hw) =>
        match writeRssLookupTable clock p.rssTable hw with
        | (0, hw) =>
            (0, Rss.setRsscr { p with hw := hw }
              (Field.set p.rssOptions 0 1 1))
        | (ret, hw) => (ret, { p with hw := hw })
    | (ret, hw) => (ret, { p with hw := hw })

/-- `mac_disable_rss` -/
def Rss.disableRss (p : Rss) : Int × Rss :=
  if !p.hwFeatRss then (-EOPNOTSUPP, p)
  else (0, p.setRsscr (Field.set p.hw.dev.rsscr 0 1 0))

/-- `mac_config_rss`: what went wrong is printed. -/
def Rss.configRss (p : Rss) : Rss :=
  if !p.hwFeatRss then p
  else if p.features then (p.enableRss clock).2 else p.disableRss.2

/-- `mac_set_features`, with what the network core makes of the return
value. -/
def Rss.setFeatures (p : Rss) (rxhash : Bool) : Rss :=
  let (ret, p) :=
    if rxhash && !p.netdevFeatures then p.enableRss clock
    else if !rxhash && p.netdevFeatures then p.disableRss
    else (0, p)
  if ret = 0 then { p with netdevFeatures := rxhash, features := rxhash }
  else p

/-- What happens to the scaling. -/
inductive RssAct
  /-- `mac_exit`, the software reset of a start: the NIC loses its tables,
  and a command with them. -/
  | reset (entry : Bool × Nat → U32)
  | configRss
  | setFeatures (rxhash : Bool)

/-- One action. -/
def Rss.step (p : Rss) : RssAct → Rss
  | .reset entry => { p with hw := { p.hw with dev := ⟨0, 0, 0, entry⟩ } }
  | .configRss => p.configRss clock
  | .setFeatures rxhash => p.setFeatures clock rxhash

end Driver

end BxRnic.Mac
