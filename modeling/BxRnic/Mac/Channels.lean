/-
The channels of the Ethernet device and their rings (bx_mac_desc.c), as
`mac_open` and `mac_close` allocate and free them (bx_mac_net.c).

# Memory

`kcalloc` and `dma_alloc_coherent` are the kernel's; what they answer is
a parameter, one answer for each call in turn. A pointer names the block
it points into, by the number of the call that gave it, and an element:
the allocator's own pointers are those of element 0. What is taken and
freed is kept in a ledger.

The array of channels has `channel_count` elements and is kept as a
list. An array of no elements is the pointer `ZERO_SIZE_PTR`, which
cannot be followed: there the kernel stops.

# What is left out

The buffers behind the entries of the rings (Mac/RxRing, Mac/TxRing), and
what is programmed into the device, which does not touch the channels.
-/
import BxRnic.Hw
import BxRnic.Lib.Ledger
import BxRnic.Lib.Run
import BxRnic.Mac.RxRing

namespace BxRnic.Mac

-- ================================================================ memory

/-- A pointer to an element of a block of memory. -/
structure Ptr where
  block : Nat
  elem : Nat
deriving DecidableEq

/-- `ptr++` -/
def Ptr.next (p : Ptr) : Ptr := { p with elem := p.elem + 1 }

/-- The allocator: how often it was asked, and what it gave. -/
structure Heap where
  calls : Nat
  ledger : Ledger Ptr
deriving DecidableEq

/-- `kcalloc` or `dma_alloc_coherent` -/
def Heap.alloc (ok : Nat → Bool) (h : Heap) : Heap × Option Ptr :=
  if ok h.calls then
    (⟨h.calls + 1, h.ledger.acquire ⟨h.calls, 0⟩⟩, some ⟨h.calls, 0⟩)
  else (⟨h.calls + 1, h.ledger⟩, none)

/-- `kfree` or `dma_free_coherent` of a pointer that may be null. -/
def Heap.free (h : Heap) : Option Ptr → Heap
  | none => h
  | some p => { h with ledger := h.ledger.release p }

-- ================================================================= state

/-- `struct mac_ring` at its address, less what moves through it. -/
structure Ring where
  addr : Ptr
  dmaDescCount : U32
  dmaDescHead : Option Ptr
  descDataHead : Option Ptr
  cur : U32
  dirty : U32
deriving DecidableEq

/-- A ring as `kcalloc` leaves it. -/
def Ring.zero (addr : Ptr) : Ring := ⟨addr, 0, none, none, 0, 0⟩

/-- `struct mac_channel` -/
structure Channel where
  queueIndex : Nat
  dmaIrq : Int
  txRing : Option Ring
  rxRing : Option Ring
deriving DecidableEq

/-- `channel_head` and the channels behind it. -/
structure ChannelArray where
  addr : Ptr
  channels : List Channel
deriving DecidableEq

/-- `struct mac_pdata`, as far as the channels go. -/
structure Pdata where
  channelHead : Option ChannelArray
  channelCount : Nat
  txRingCount : Nat
  rxRingCount : Nat
  txDescCount : U32
  rxDescCount : U32
  perChannelIrq : Bool
  channelIrq : Nat → Int

-- ============================================================== channels

/-- Where the loop of `mac_alloc_channels` ends: the channels set up, the
two cursors, and `ret` if an interrupt is missing. -/
structure Distributed where
  channels : List Channel
  txRing : Ptr
  rxRing : Ptr
  failed : Option Int
deriving DecidableEq

/-- The loop of `mac_alloc_channels` from channel `i` on, with `left`
channels to go. -/
def Pdata.distribute (pdata : Pdata) :
    (left i : Nat) → (txRing rxRing : Ptr) → Distributed
  | 0, _, txRing, rxRing => ⟨[], txRing, rxRing, none⟩
  | left + 1, i, txRing, rxRing =>
      if pdata.perChannelIrq ∧ pdata.channelIrq i < 0 then
        ⟨[], txRing, rxRing, some (pdata.channelIrq i)⟩
      else
        let channel : Channel :=
          { queueIndex := i
            dmaIrq := if pdata.perChannelIrq then pdata.channelIrq i else 0
            txRing := if i < pdata.txRingCount then some (.zero txRing)
              else none
            rxRing := if i < pdata.rxRingCount then some (.zero rxRing)
              else none }
        let rest :=
          pdata.distribute left (i + 1)
            (if i < pdata.txRingCount then txRing.next else txRing)
            (if i < pdata.rxRingCount then rxRing.next else rxRing)
        { rest with channels := channel :: rest.channels }

/-- `mac_alloc_channels` -/
def allocChannels (ok : Nat → Bool) (h : Heap) (pdata : Pdata) :
    Int × Heap × Pdata :=
  match h.alloc ok with
  | (h, none) => (-ENOMEM, h, pdata)
  | (h, some channelHead) =>
      match h.alloc ok with
      | (h, none) => (-ENOMEM, h.free channelHead, pdata)
      | (h, some txRing) =>
          match h.alloc ok with
          | (h, none) =>
              (-ENOMEM, (h.free txRing).free channelHead, pdata)
          | (h, some rxRing) =>
              let d :=
                pdata.distribute pdata.channelCount 0 txRing rxRing
              match d.failed with
              | some ret =>
                  -- the cursors, not what was allocated
                  (ret, ((h.free d.rxRing).free d.txRing).free channelHead,
                    pdata)
              | none =>
                  (0, h, { pdata with
                    channelHead := some ⟨channelHead, d.channels⟩ })

/-- `mac_free_channels`; none where the kernel stops. -/
def freeChannels (h : Heap) (pdata : Pdata) : Option (Heap × Pdata) :=
  match pdata.channelHead with
  | none => some (h, pdata)
  | some array =>
      match array.channels with
      | [] => none
      | channel :: _ =>
          let h := h.free (channel.txRing.map (·.addr))
          let h := h.free (channel.rxRing.map (·.addr))
          some (h.free array.addr,
            { pdata with channelHead := none, channelCount := 0 })

-- ================================================================= rings

/-- `mac_init_ring`, of a ring that may be null: whether it succeeds. -/
def initRing (ok : Nat → Bool) (dmaDescCount : U32) (h : Heap) :
    Option Ring → Heap × Bool × Option Ring
  | none => (h, true, none)
  | some ring =>
      match h.alloc ok with
      | (h, none) =>
          (h, false, some { ring with
            dmaDescCount := dmaDescCount, dmaDescHead := none })
      | (h, some dmaDescHead) =>
          let ring :=
            { ring with
              dmaDescCount := dmaDescCount
              dmaDescHead := some dmaDescHead }
          match h.alloc ok with
          | (h, none) => (h, false, some { ring with descDataHead := none })
          | (h, some descDataHead) =>
              (h, true, some { ring with descDataHead := some descDataHead })

/-- `mac_free_ring`, of a ring that may be null. -/
def freeRing (h : Heap) : Option Ring → Heap × Option Ring
  | none => (h, none)
  | some ring =>
      let h := h.free ring.descDataHead
      (h.free ring.dmaDescHead,
        some { ring with dmaDescHead := none, descDataHead := none })

/-- The loop of `mac_free_rings`. -/
def freeRings (h : Heap) : List Channel → Heap × List Channel
  | [] => (h, [])
  | channel :: rest =>
      let (h, txRing) := freeRing h channel.txRing
      let (h, rxRing) := freeRing h channel.rxRing
      let (h, rest) := freeRings h rest
      (h, { channel with txRing := txRing, rxRing := rxRing } :: rest)

/-- The loop of `mac_alloc_rings`. -/
def initRings (ok : Nat → Bool) (txDescCount rxDescCount : U32)
    (h : Heap) : List Channel → Heap × Bool × List Channel
  | [] => (h, true, [])
  | channel :: rest =>
      match initRing ok txDescCount h channel.txRing with
      | (h, false, txRing) =>
          (h, false, { channel with txRing := txRing } :: rest)
      | (h, true, txRing) =>
          match initRing ok rxDescCount h channel.rxRing with
          | (h, false, rxRing) =>
              (h, false,
                { channel with txRing := txRing, rxRing := rxRing } :: rest)
          | (h, true, rxRing) =>
              let (h, done, rest) :=
                initRings ok txDescCount rxDescCount h rest
              (h, done,
                { channel with txRing := txRing, rxRing := rxRing } :: rest)

/-- The channels are put back after a loop over them. -/
def Pdata.setChannels (pdata : Pdata) (channels : List Channel) : Pdata :=
  { pdata with
    channelHead :=
      pdata.channelHead.map fun array => { array with channels := channels } }

/-- The channels there are. -/
def Pdata.channels (pdata : Pdata) : List Channel :=
  (pdata.channelHead.map (·.channels)).getD []

/-- `mac_free_channels_and_rings` -/
def freeChannelsAndRings (h : Heap) (pdata : Pdata) :
    Option (Heap × Pdata) :=
  let (h, channels) := freeRings h pdata.channels
  freeChannels h (pdata.setChannels channels)

/-- `mac_alloc_channels_and_rings` -/
def allocChannelsAndRings (ok : Nat → Bool) (h : Heap) (pdata : Pdata) :
    Option (Int × Heap × Pdata) :=
  match allocChannels ok h pdata with
  | (ret, h, pdata) =>
      if ret ≠ 0 then
        (freeChannelsAndRings h pdata).map fun out => (ret, out)
      else
        match initRings ok pdata.txDescCount pdata.rxDescCount h
            pdata.channels with
        | (h, true, channels) => some (0, h, pdata.setChannels channels)
        | (h, false, channels) =>
            -- `mac_alloc_rings` frees them first
            let (h, channels) := freeRings h channels
            (freeChannelsAndRings h (pdata.setChannels channels)).map
              fun out => (-ENOMEM, out)

-- ======================================================== open and close

/-- What `mac_open` meets. -/
structure OpenEnv where
  mtu : U32
  /-- The answers of the allocator. -/
  ok : Nat → Bool
  /-- `mac_flush_tx_queues` succeeds; `mac_hw_init` ends there if not, and
  its result is not looked at. -/
  flushed : Bool
  /-- What `mac_request_irqs` returns. -/
  requestIrqs : Int

/-- A ring starts over. -/
def Ring.descInit (ring : Ring) : Ring := { ring with cur := 0, dirty := 0 }

/-- `mac_tx_desc_init`, up to the first channel without a ring. -/
def txDescInit : List Channel → List Channel
  | [] => []
  | channel :: rest =>
      match channel.txRing with
      | none => channel :: rest
      | some ring =>
          { channel with txRing := some ring.descInit } :: txDescInit rest

/-- `mac_rx_desc_init`, up to the first channel without a ring. -/
def rxDescInit : List Channel → List Channel
  | [] => []
  | channel :: rest =>
      match channel.rxRing with
      | none => channel :: rest
      | some ring =>
          { channel with rxRing := some ring.descInit } :: rxDescInit rest

/-- `mac_start`, as far as the channels go. -/
def startChannels (env : OpenEnv) (pdata : Pdata) : Int × Pdata :=
  let pdata :=
    if env.flushed then
      pdata.setChannels (rxDescInit (txDescInit pdata.channels))
    else pdata
  (env.requestIrqs, pdata)

/-- `mac_open`; none where the kernel stops. -/
def macOpen (env : OpenEnv) (h : Heap) (pdata : Pdata) :
    Option (Int × Heap × Pdata) :=
  match calcRxBufSize env.mtu with
  | none => some (-EINVAL, h, pdata)
  | some _ =>
      match allocChannelsAndRings env.ok h pdata with
      | none => none
      | some (ret, h, pdata) =>
          if ret ≠ 0 then some (ret, h, pdata)
          else
            let (ret, pdata) := startChannels env pdata
            if ret ≠ 0 then
              (freeChannelsAndRings h pdata).map fun out => (ret, out)
            else some (0, h, pdata)

/-- `mac_close`; none where the kernel stops. -/
def macClose (h : Heap) (pdata : Pdata) : Option (Heap × Pdata) :=
  freeChannelsAndRings h pdata

/-- The device, and whether the network core has it open. -/
structure EthDev where
  heap : Heap
  pdata : Pdata
  isOpen : Bool

/-- What the network core asks of the device. -/
inductive EthCall
  | open (env : OpenEnv)
  | close

/-- A call that succeeds. The core opens a closed device and closes an
open one. -/
def EthDev.step (dev : EthDev) : EthCall → Option EthDev
  | .open env =>
      if dev.isOpen then none
      else
        match macOpen env dev.heap dev.pdata with
        | some (ret, heap, pdata) =>
            if ret = 0 then some ⟨heap, pdata, true⟩ else none
        | none => none
  | .close =>
      if dev.isOpen then
        (macClose dev.heap dev.pdata).map fun out => ⟨out.1, out.2, false⟩
      else none

/-- What `mac_init` configures. -/
structure ChannelConfig where
  txRingCount : Nat
  rxRingCount : Nat
  txDescCount : U32
  rxDescCount : U32
  perChannelIrq : Bool
  channelIrq : Nat → Int

/-- `channel_count`, as `mac_init` sets it. -/
def ChannelConfig.channelCount (cfg : ChannelConfig) : Nat :=
  max cfg.txRingCount cfg.rxRingCount

/-- The device as `mac_drv_probe` leaves it. -/
def EthDev.probed (cfg : ChannelConfig) : EthDev where
  heap := ⟨0, .empty⟩
  pdata :=
    { channelHead := none
      channelCount := cfg.channelCount
      txRingCount := cfg.txRingCount
      rxRingCount := cfg.rxRingCount
      txDescCount := cfg.txDescCount
      rxDescCount := cfg.rxDescCount
      perChannelIrq := cfg.perChannelIrq
      channelIrq := cfg.channelIrq }
  isOpen := false

end BxRnic.Mac
