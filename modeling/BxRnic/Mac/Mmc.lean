/-
The event counters of the MAC and the statistics the driver makes of
them (bx_mac_hw.c): `mac_mmc_read`, the two MMC interrupts and
`mac_read_mmc_stats`.

# Counters

A counter is reset when it is read. The four byte counters have two
registers, the others one, and a counter starts over when its registers
are full. While the counters are frozen they count nothing.

What a counter has counted in all, and what it had counted when it was
last read, is kept beside it. The driver sees neither.

# Calls

Which registers a call reads, and in which order, depends on its status
bits alone. So a call is the list of what it does, with the events that
are counted in between.
-/
import BxRnic.Lib.Field
import BxRnic.Lib.Run
import BxRnic.Lib.Word

namespace BxRnic.Mac

-- ============================================================== counters

/-- The counters, and the fields of `struct mac_stats` of the same
names. -/
inductive Mmc
  | txoctetcountGb
  | txframecountGb
  | txbroadcastframesG
  | txmulticastframesG
  | tx64octetsGb
  | tx65to127octetsGb
  | tx128to255octetsGb
  | tx256to511octetsGb
  | tx512to1023octetsGb
  | tx1024tomaxoctetsGb
  | txunicastframesGb
  | txmulticastframesGb
  | txbroadcastframesGb
  | txunderflowerror
  | txoctetcountG
  | txframecountG
  | txpauseframes
  | txvlanframesG
  | rxframecountGb
  | rxoctetcountGb
  | rxoctetcountG
  | rxbroadcastframesG
  | rxmulticastframesG
  | rxcrcerror
  | rxrunterror
  | rxjabbererror
  | rxundersizeG
  | rxoversizeG
  | rx64octetsGb
  | rx65to127octetsGb
  | rx128to255octetsGb
  | rx256to511octetsGb
  | rx512to1023octetsGb
  | rx1024tomaxoctetsGb
  | rxunicastframesG
  | rxlengtherror
  | rxoutofrangetype
  | rxpauseframes
  | rxfifooverflow
  | rxvlanframesGb
  | rxwatchdogerror
deriving DecidableEq

namespace Mmc

/-- Every counter. -/
def all : List Mmc :=
  [ .txoctetcountGb, .txframecountGb, .txbroadcastframesG,
    .txmulticastframesG, .tx64octetsGb, .tx65to127octetsGb,
    .tx128to255octetsGb, .tx256to511octetsGb, .tx512to1023octetsGb,
    .tx1024tomaxoctetsGb, .txunicastframesGb, .txmulticastframesGb,
    .txbroadcastframesGb, .txunderflowerror, .txoctetcountG,
    .txframecountG, .txpauseframes, .txvlanframesG, .rxframecountGb,
    .rxoctetcountGb, .rxoctetcountG, .rxbroadcastframesG,
    .rxmulticastframesG, .rxcrcerror, .rxrunterror, .rxjabbererror,
    .rxundersizeG, .rxoversizeG, .rx64octetsGb, .rx65to127octetsGb,
    .rx128to255octetsGb, .rx256to511octetsGb, .rx512to1023octetsGb,
    .rx1024tomaxoctetsGb, .rxunicastframesG, .rxlengtherror,
    .rxoutofrangetype, .rxpauseframes, .rxfifooverflow, .rxvlanframesGb,
    .rxwatchdogerror ]

/-- A counter's register, or its low one. -/
def reg : Mmc → Nat
  | .txoctetcountGb => 0x0814
  | .txframecountGb => 0x081c
  | .txbroadcastframesG => 0x0824
  | .txmulticastframesG => 0x082c
  | .tx64octetsGb => 0x0834
  | .tx65to127octetsGb => 0x083c
  | .tx128to255octetsGb => 0x0844
  | .tx256to511octetsGb => 0x084c
  | .tx512to1023octetsGb => 0x0854
  | .tx1024tomaxoctetsGb => 0x085c
  | .txunicastframesGb => 0x0864
  | .txmulticastframesGb => 0x086c
  | .txbroadcastframesGb => 0x0874
  | .txunderflowerror => 0x087c
  | .txoctetcountG => 0x0884
  | .txframecountG => 0x088c
  | .txpauseframes => 0x0894
  | .txvlanframesG => 0x089c
  | .rxframecountGb => 0x0900
  | .rxoctetcountGb => 0x0908
  | .rxoctetcountG => 0x0910
  | .rxbroadcastframesG => 0x0918
  | .rxmulticastframesG => 0x0920
  | .rxcrcerror => 0x0928
  | .rxrunterror => 0x0930
  | .rxjabbererror => 0x0934
  | .rxundersizeG => 0x0938
  | .rxoversizeG => 0x093c
  | .rx64octetsGb => 0x0940
  | .rx65to127octetsGb => 0x0948
  | .rx128to255octetsGb => 0x0950
  | .rx256to511octetsGb => 0x0958
  | .rx512to1023octetsGb => 0x0960
  | .rx1024tomaxoctetsGb => 0x0968
  | .rxunicastframesG => 0x0970
  | .rxlengtherror => 0x0978
  | .rxoutofrangetype => 0x0980
  | .rxpauseframes => 0x0988
  | .rxfifooverflow => 0x0990
  | .rxvlanframesGb => 0x0998
  | .rxwatchdogerror => 0x09a0

/-- A counter's bit in `MMC_TISR` or `MMC_RISR`. -/
def pos : Mmc → Nat
  | .txoctetcountGb => 0
  | .txframecountGb => 1
  | .txbroadcastframesG => 2
  | .txmulticastframesG => 3
  | .tx64octetsGb => 4
  | .tx65to127octetsGb => 5
  | .tx128to255octetsGb => 6
  | .tx256to511octetsGb => 7
  | .tx512to1023octetsGb => 8
  | .tx1024tomaxoctetsGb => 9
  | .txunicastframesGb => 10
  | .txmulticastframesGb => 11
  | .txbroadcastframesGb => 12
  | .txunderflowerror => 13
  | .txoctetcountG => 14
  | .txframecountG => 15
  | .txpauseframes => 16
  | .txvlanframesG => 17
  | .rxframecountGb => 0
  | .rxoctetcountGb => 1
  | .rxoctetcountG => 2
  | .rxbroadcastframesG => 3
  | .rxmulticastframesG => 4
  | .rxcrcerror => 5
  | .rxrunterror => 6
  | .rxjabbererror => 7
  | .rxundersizeG => 8
  | .rxoversizeG => 9
  | .rx64octetsGb => 10
  | .rx65to127octetsGb => 11
  | .rx128to255octetsGb => 12
  | .rx256to511octetsGb => 13
  | .rx512to1023octetsGb => 14
  | .rx1024tomaxoctetsGb => 15
  | .rxunicastframesG => 16
  | .rxlengtherror => 17
  | .rxoutofrangetype => 18
  | .rxpauseframes => 19
  | .rxfifooverflow => 20
  | .rxvlanframesGb => 21
  | .rxwatchdogerror => 22

/-- `read_hi` of `mac_mmc_read`, as the `switch` on the register has
it. -/
def readHi (regLo : Nat) : Bool :=
  regLo = txoctetcountGb.reg ∨ regLo = txoctetcountG.reg
    ∨ regLo = rxoctetcountGb.reg ∨ regLo = rxoctetcountG.reg

/-- The bits of a counter. -/
def width (c : Mmc) : Nat := if readHi c.reg then 64 else 32

/-- The half of a counter that a register shows. -/
inductive Half
  | lo
  | hi
deriving DecidableEq

/-- What is behind an address. -/
def decode (addr : Nat) : Option (Mmc × Half) :=
  all.findSome? fun c =>
    if addr = c.reg then some (c, .lo)
    else if c.width = 64 ∧ addr = c.reg + 4 then some (c, .hi)
    else none

end Mmc

-- ============================================================== hardware

/-- `MMC_CR_MCF_POS` -/
def mmcCrMcfPos : Nat := 3

/-- The counters and their control register. -/
structure MmcHw where
  /-- `MMC_CR` -/
  cr : U32
  held : Mmc → Nat
  /-- The events a counter has counted. -/
  counted : Mmc → Nat
  /-- The events it had counted when it was last read. -/
  seen : Mmc → Nat

namespace MmcHw

/-- The counters are frozen. -/
def Frozen (hw : MmcHw) : Prop := Field.get hw.cr mmcCrMcfPos 1 = 1

instance (hw : MmcHw) : Decidable hw.Frozen :=
  inferInstanceAs (Decidable (_ = _))

/-- An event of the kind a counter counts. -/
def count (hw : MmcHw) (c : Mmc) : MmcHw :=
  if hw.Frozen then hw
  else
    { hw with
      held := Function.update hw.held c ((hw.held c + 1) % 2 ^ c.width)
      counted := Function.update hw.counted c (hw.counted c + 1) }

/-- A counter is read: what is left in it, and how far it has been
seen. -/
def take (hw : MmcHw) (c : Mmc) (left : Nat) : MmcHw :=
  { hw with
    held := Function.update hw.held c left
    seen := Function.update hw.seen c (hw.counted c) }

/-- `readl` of a register of the counters, which resets its half. -/
def readl (hw : MmcHw) (addr : Nat) : U32 × MmcHw :=
  match Mmc.decode addr with
  | none => (0, hw)
  | some (c, .lo) =>
      (BitVec.ofNat 32 (hw.held c),
        hw.take c (hw.held c / 2 ^ 32 * 2 ^ 32))
  | some (c, .hi) =>
      (BitVec.ofNat 32 (hw.held c / 2 ^ 32),
        hw.take c (hw.held c % 2 ^ 32))

/-- `mac_mmc_read` -/
def mmcRead (hw : MmcHw) (regLo : Nat) : U64 × MmcHw :=
  let (lo, hw) := hw.readl regLo
  let val := lo.setWidth 64
  if Mmc.readHi regLo then
    let (hi, hw) := hw.readl (regLo + 4)
    (val ||| (hi.setWidth 64 <<< 32), hw)
  else (val, hw)

/-- `MMC_CR` with its freeze bit written. -/
def setMcf (hw : MmcHw) (on : U32) : MmcHw :=
  { hw with cr := Field.set hw.cr mmcCrMcfPos 1 on }

end MmcHw

-- ================================================================ driver

/-- The counters and `pdata->stats`. -/
structure MmcState where
  hw : MmcHw
  stats : Mmc → U64

/-- The counters after `mac_config_mmc` has reset them, and the
statistics of a new device. -/
def MmcState.fresh (cr : U32) : MmcState where
  hw := ⟨cr, fun _ => 0, fun _ => 0, fun _ => 0⟩
  stats := fun _ => 0

/-- What happens to the counters, and what is done with them. -/
inductive MmcAct
  /-- The device counts an event. -/
  | count (c : Mmc)
  /-- `stats->stat += mac_mmc_read(pdata, reg)` -/
  | collect (stat reg : Mmc)
  /-- The freeze bit is written. -/
  | setMcf (on : U32)
deriving DecidableEq

/-- One of them. -/
def MmcState.act (st : MmcState) : MmcAct → MmcState
  | .count c => { st with hw := st.hw.count c }
  | .collect stat reg =>
      let (val, hw) := st.hw.mmcRead reg.reg
      { hw := hw
        stats := Function.update st.stats stat (st.stats stat + val) }
  | .setMcf on => { st with hw := st.hw.setMcf on }

/-- A line of the lists: the status bit, the statistic and the register
it names. -/
structure MmcLine where
  pos : Mmc
  stat : Mmc
  reg : Mmc
deriving DecidableEq

/-- A line with one name in all three places. -/
def MmcLine.own (c : Mmc) : MmcLine := ⟨c, c, c⟩

/-- The lines of `mac_tx_mmc_int`. -/
def txMmcLines : List MmcLine :=
  [ .own .txoctetcountGb, .own .txframecountGb,
    .own .txbroadcastframesG, .own .txmulticastframesG,
    .own .tx64octetsGb, .own .tx65to127octetsGb,
    .own .tx128to255octetsGb, .own .tx256to511octetsGb,
    .own .tx512to1023octetsGb, .own .tx1024tomaxoctetsGb,
    .own .txunicastframesGb, .own .txmulticastframesGb,
    { MmcLine.own .txbroadcastframesGb with
      stat := .txbroadcastframesG },
    .own .txunderflowerror, .own .txoctetcountG, .own .txframecountG,
    .own .txpauseframes, .own .txvlanframesG ]

/-- The lines of `mac_rx_mmc_int`. -/
def rxMmcLines : List MmcLine :=
  [ .own .rxframecountGb, .own .rxoctetcountGb, .own .rxoctetcountG,
    .own .rxbroadcastframesG, .own .rxmulticastframesG,
    .own .rxcrcerror, .own .rxrunterror, .own .rxjabbererror,
    .own .rxundersizeG, .own .rxoversizeG, .own .rx64octetsGb,
    .own .rx65to127octetsGb, .own .rx128to255octetsGb,
    .own .rx256to511octetsGb, .own .rx512to1023octetsGb,
    .own .rx1024tomaxoctetsGb, .own .rxunicastframesG,
    .own .rxlengtherror, .own .rxoutofrangetype, .own .rxpauseframes,
    .own .rxfifooverflow, .own .rxvlanframesGb, .own .rxwatchdogerror ]

/-- The lines of `mac_read_mmc_stats`, which ask for no status bit. -/
def readMmcLines : List MmcLine :=
  [ .own .txoctetcountGb, .own .txframecountGb,
    .own .txbroadcastframesG, .own .txmulticastframesG,
    .own .tx64octetsGb, .own .tx65to127octetsGb,
    .own .tx128to255octetsGb, .own .tx256to511octetsGb,
    .own .tx512to1023octetsGb, .own .tx1024tomaxoctetsGb,
    .own .txunicastframesGb, .own .txmulticastframesGb,
    { MmcLine.own .txbroadcastframesGb with
      stat := .txbroadcastframesG },
    .own .txunderflowerror, .own .txoctetcountG, .own .txframecountG,
    .own .txpauseframes, .own .txvlanframesG, .own .rxframecountGb,
    .own .rxoctetcountGb, .own .rxoctetcountG, .own .rxbroadcastframesG,
    .own .rxmulticastframesG, .own .rxcrcerror, .own .rxrunterror,
    .own .rxjabbererror, .own .rxundersizeG, .own .rxoversizeG,
    .own .rx64octetsGb, .own .rx65to127octetsGb,
    .own .rx128to255octetsGb, .own .rx256to511octetsGb,
    .own .rx512to1023octetsGb, .own .rx1024tomaxoctetsGb,
    .own .rxunicastframesG, .own .rxlengtherror, .own .rxoutofrangetype,
    .own .rxpauseframes, .own .rxfifooverflow, .own .rxvlanframesGb,
    .own .rxwatchdogerror ]

/-- The lines of a call from the `k`-th on, under its condition, with
the events counted ahead of each. -/
def mmcActs (events : Nat → List Mmc) (cond : MmcLine → Bool) :
    (k : Nat) → List MmcLine → List MmcAct
  | _, [] => []
  | k, line :: rest =>
      (events k).map .count
        ++ (if cond line then [.collect line.stat line.reg] else [])
        ++ mmcActs events cond (k + 1) rest

/-- The condition of a line of an interrupt. -/
def mmcIsrBit (mmcIsr : U32) (line : MmcLine) : Bool :=
  Field.get mmcIsr line.pos.pos 1 ≠ 0

/-- A step of a run: an event, or a call with the events that are
counted during it. -/
inductive MmcStep
  | event (c : Mmc)
  | txMmcInt (mmcIsr : U32) (events : Nat → List Mmc)
  | rxMmcInt (mmcIsr : U32) (events : Nat → List Mmc)
  | readMmcStats (events : Nat → List Mmc)

/-- What is done in a step. -/
def MmcStep.acts : MmcStep → List MmcAct
  | .event c => [.count c]
  | .txMmcInt mmcIsr events =>
      mmcActs events (mmcIsrBit mmcIsr) 0 txMmcLines
  | .rxMmcInt mmcIsr events =>
      mmcActs events (mmcIsrBit mmcIsr) 0 rxMmcLines
  | .readMmcStats events =>
      .setMcf 1 :: mmcActs events (fun _ => true) 0 readMmcLines
        ++ [.setMcf 0]

/-- The state after a step. -/
def MmcState.step (st : MmcState) (s : MmcStep) : MmcState :=
  Run.exec MmcState.act st s.acts

end BxRnic.Mac
