/-
The transmit rings over the life of the device: restarted, closed and
opened again with packets on the way (bx_mac_net.c, bx_mac_desc.c).

A restart stops the device and frees what the entries of the rings hold,
in the order of the entries (`mac_free_tx_data`); a close frees it in the
same way, with the ring (`mac_free_ring`). Then the ring is set up again.
A restart does not look whether that has been done: when the flush of the
queues fails, `mac_hw_init` returns before the rings, and the ring goes on
at the index where it was.

# The NIC

Nothing here depends on what it does: it may write any descriptor at any
time.

# What is left out

What a start programs besides the rings (Mac/StartUp), and the threads a
restart may hang (Mac/NetLife). An opening counts if it gets its memory
and initialises the device.
-/
import BxRnic.Mac.TxRing

namespace BxRnic.Mac

/-- The loop of `mac_tx_desc_init` (bx_mac_hw.c) over the descriptors from
`idx` on. -/
def TxRing.resetFrom : (left : Nat) → (idx : U32) → TxRing → TxRing
  | 0, _, ring => ring
  | left + 1, idx, ring =>
      resetFrom left (idx + 1) (ring.updDesc idx fun _ => .zero)

/-- `mac_tx_desc_init` of one ring (bx_mac_desc.c, and the call of
bx_mac_hw.c it ends with). The NIC is told where the ring begins. -/
def TxRing.descInit (ring : TxRing) : TxRing :=
  let ring :=
    { ring with
      cur := 0
      dirty := 0
      queueStopped := false
      curMss := 0
      curVlanCtag := 0 }
  { ring.resetFrom ring.dmaDescCount.toNat 0 with head := 0 }

/-- `mac_free_tx_data`, of one ring. -/
def TxChannel.freeTxData (ch : TxChannel) : TxChannel :=
  let (logs, ring) :=
    unmapFrom ch.ring.dmaDescCount.toNat 0 ch.logs ch.ring
  { ch with logs := logs, ring := ring }

/-- `mac_stop`, as far as the transmit queues go. -/
def TxChannel.stop (ch : TxChannel) : TxChannel :=
  { ch with netStopped := true }

/-- `mac_start`, as far as the transmit rings go: whether the queues are
flushed, and whether it gets its interrupts. -/
def TxChannel.start (flushed irqs : Bool) (ch : TxChannel) : TxChannel :=
  { ch with
    ring := if flushed then ch.ring.descInit else ch.ring
    netStopped := if irqs then false else ch.netStopped }

/-- `mac_restart_dev`, of a device that is running. -/
def TxChannel.restartDev (flushed irqs : Bool) (ch : TxChannel) :
    TxChannel :=
  ch.stop.freeTxData.start flushed irqs

/-- `mac_close`: of the ring the logs are left. -/
def TxChannel.close (ch : TxChannel) : TxChannel := ch.stop.freeTxData

/-- `mac_open`: the rings are new. -/
def TxChannel.reopen (ch : TxChannel) : TxChannel :=
  { ch with ring := TxRing.fresh.descInit, netStopped := false }

/-- What happens to a channel. -/
inductive TxLifeAct
  | xmit (env : XmitEnv) (skb : Skb)
  | poll
  /-- The NIC writes descriptors. -/
  | nic (descs : Nat → DmaDesc)
  | restart (flushed irqs : Bool)
  /-- The device is closed and opened. -/
  | reopen

/-- One action. -/
def TxChannel.live (ch : TxChannel) : TxLifeAct → TxChannel
  | .xmit env skb => ch.xmit env skb
  | .poll => ch.poll
  | .nic descs => { ch with ring := { ch.ring with dmaDescs := descs } }
  | .restart flushed irqs => ch.restartDev flushed irqs
  | .reopen => ch.close.reopen

end BxRnic.Mac
