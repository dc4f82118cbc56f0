/-
A transmit queue between `mac_xmit`, which stops it when descriptors run
short, and `mac_tx_poll`, which wakes it when they are back
(bx_mac_net.c).

Each function is its sequence of accesses to what the two share: the
counters `cur` and `dirty`, `queue_stopped` and the network queue's stop
bit. One action is one access, so that the actions of the two may come
in any order. The network stack runs `mac_xmit` for one packet at a time
and only while the queue is not stopped, and NAPI runs one poll at a
time.

What a packet needs and uses, and when the NIC is done with a
descriptor, is up to the actions.
-/
import BxRnic.Lib.Word

namespace BxRnic.Mac

-- ============================================================ constants

/-- `MAC_TX_DESC_CNT`, what `mac_init_ring` makes the `dma_desc_count` of
every transmit ring. -/
def txDescCnt : U32 := 4096

/-- `MAC_TX_DESC_MIN_FREE` -/
def txDescMinFree : U32 := 4096 >>> 3

/-- `MAC_TX_DESC_MAX_PROC` -/
def txDescMaxProc : Nat := 4096 >>> 1

/-- `MAX_SKB_FRAGS` of pages of 4096 bytes. -/
def maxSkbFrags : Nat := 65536 / 4096 + 1

/-- `MAC_TX_MAX_BUF_SIZE` -/
def txMaxBufSize : Nat := 0x3fff - 63

/-- `GSO_MAX_SIZE` -/
def gsoMaxSize : Nat := 65536

/-- `MAC_TX_MAX_SPLIT`, where `GSO_MAX_SIZE` is 65536. -/
def txMaxSplit : Nat := 65536 / txMaxBufSize + 1

/-- `MAC_TX_MAX_DESC_NR` -/
def txMaxDescNr : U32 := BitVec.ofNat 32 (maxSkbFrags + txMaxSplit + 2)

-- ================================================================ state

/-- Where `mac_xmit` is. -/
inductive XmitPc
  | idle
  /-- `mac_maybe_stop_tx_queue` is about to compare what the packet
  needs. -/
  | compare (need : U32)
  /-- The packet is about to be mapped and handed to the NIC. -/
  | transmit
  /-- `mac_maybe_stop_tx_queue` is about to compare
  `MAC_TX_MAX_DESC_NR`. -/
  | recheck
  /-- Too few descriptors were found: `netif_stop_subqueue` is next. -/
  | stop
  /-- `queue_stopped = 1` is next. -/
  | setStopped
deriving DecidableEq

/-- Where `mac_tx_poll` is. -/
inductive PollPc
  | idle
  /-- In the loop, up to the `cur` it has read. -/
  | loop (cur : U32) (processed : Nat)
  /-- `queue_stopped == 1` is tested next. -/
  | test
  /-- The descriptors available are compared next. -/
  | avail
  /-- `queue_stopped = 0` is next. -/
  | clear
  /-- `netif_tx_wake_queue` is next. -/
  | wake
deriving DecidableEq

/-- One channel: the ring's counters, the two flags and the places of
the two functions. -/
structure TxQueue where
  cur : U32
  dirty : U32
  queueStopped : Bool
  /-- The network queue is stopped. -/
  netStopped : Bool
  xmit : XmitPc
  poll : PollPc
deriving DecidableEq

/-- A queue that has just been started. -/
def TxQueue.started : TxQueue := ⟨0, 0, false, false, .idle, .idle⟩

/-- `mac_tx_avail_desc` -/
def TxQueue.availDesc (q : TxQueue) : U32 := txDescCnt - (q.cur - q.dirty)

-- ============================================================== actions

/-- One access of one of the functions. -/
inductive TxAct
  /-- `mac_xmit` is called with a packet that needs so many
  descriptors. -/
  | call (need : U32)
  | compare
  /-- The packet takes so many descriptors: `ring->cur` moves on. -/
  | transmit (used : U32)
  /-- The packet is dropped: `mac_prep_tso` or `map_tx_skb` failed. -/
  | drop
  | recheck
  | stop
  | setStopped
  /-- `mac_tx_poll` is called and reads `ring->cur`. -/
  | poll
  /-- The NIC is done with the descriptor at `dirty`, which is
  reclaimed. -/
  | reclaim
  /-- The loop ends. -/
  | leave
  | test
  | avail
  | clear
  | wake
deriving DecidableEq

/-- What an access does; none if the function is not at it. -/
def TxQueue.step (q : TxQueue) : TxAct → Option TxQueue
  | .call need =>
      if q.xmit = .idle ∧ q.netStopped = false then
        some { q with xmit := .compare need }
      else none
  | .compare =>
      match q.xmit with
      | .compare need =>
          if need > q.availDesc then some { q with xmit := .stop }
          else some { q with xmit := .transmit }
      | _ => none
  | .transmit used =>
      if q.xmit = .transmit then
        some { q with cur := q.cur + used, xmit := .recheck }
      else none
  | .drop =>
      if q.xmit = .transmit then some { q with xmit := .idle } else none
  | .recheck =>
      if q.xmit = .recheck then
        if txMaxDescNr > q.availDesc then some { q with xmit := .stop }
        else some { q with xmit := .idle }
      else none
  | .stop =>
      if q.xmit = .stop then
        some { q with netStopped := true, xmit := .setStopped }
      else none
  | .setStopped =>
      if q.xmit = .setStopped then
        some { q with queueStopped := true, xmit := .idle }
      else none
  | .poll =>
      if q.poll = .idle then some { q with poll := .loop q.cur 0 }
      else none
  | .reclaim =>
      match q.poll with
      | .loop cur processed =>
          if processed < txDescMaxProc ∧ q.dirty ≠ cur then
            some { q with
              dirty := q.dirty + 1
              poll := .loop cur (processed + 1) }
          else none
      | _ => none
  | .leave =>
      match q.poll with
      | .loop _ processed =>
          if processed = 0 then some { q with poll := .idle }
          else some { q with poll := .test }
      | _ => none
  | .test =>
      if q.poll = .test then
        if q.queueStopped then some { q with poll := .avail }
        else some { q with poll := .idle }
      else none
  | .avail =>
      if q.poll = .avail then
        if q.availDesc > txDescMinFree then some { q with poll := .clear }
        else some { q with poll := .idle }
      else none
  | .clear =>
      if q.poll = .clear then
        some { q with queueStopped := false, poll := .wake }
      else none
  | .wake =>
      if q.poll = .wake then
        some { q with netStopped := false, poll := .idle }
      else none

end BxRnic.Mac
