/-
`mac_isr`, `mac_tx_timer` and `mac_all_poll` (bx_mac_net.c), as the driver
is built: one legacy interrupt for everything (`RNIC_LEGACY_INT_EN`), and
`per_channel_irq` never set.

# Time

The handler is not atomic. Each of its reads and writes of a status
register is a step, and between any two of them the NIC may complete
descriptors and the poll, on another CPU, may move on. The poll is its
looks at the two rings and its `napi_complete_done`.

# The status registers

`DMA_CH_SR` is cleared by writing to it: a bit written as 1 goes down. A
completion on channel 0 that is to interrupt raises `TI` or `RI`. Which of
the bits of `DMA_ISR` are up when the handler reads it is up to the NIC.

# NAPI

`napi_schedule_prep` takes the poll if nobody has it and otherwise leaves
word that it was missed; `napi_complete_done` gives it back, unless it was
missed in the meantime, and then it runs again.
-/
import BxRnic.Lib.Word

namespace BxRnic.Mac

-- ========================================================== the registers

/-- The two rings of a channel. -/
inductive Dir
  | tx
  | rx
deriving DecidableEq

/-- `DMA_CH_SR_TI_POS` and `DMA_CH_SR_RI_POS` -/
def Dir.pos : Dir → Nat
  | .tx => 0
  | .rx => 6

/-- The channels `mac_isr` goes through. -/
def isrChannels : Nat := 7

/-- `DMA_CH_SR` of every channel. -/
abbrev StatusRegs := Nat → U32

/-- A write of `DMA_CH_SR`: what is written as 1 is cleared. -/
def StatusRegs.write (sr : StatusRegs) (i : Nat) (value : U32) :
    StatusRegs :=
  Function.update sr i (sr i &&& ~~~value)

/-- The NIC raises bits of `DMA_CH_SR`. -/
def StatusRegs.raise (sr : StatusRegs) (i : Nat) (bits : U32) :
    StatusRegs :=
  Function.update sr i (sr i ||| bits)

-- ================================================================ the state

/-- Where `mac_isr` is. -/
inductive IsrPc
  | idle
  /-- Bit `i` of `dma_isr` is tested next. -/
  | next (i : Nat) (dmaIsr : U32)
  /-- `dma_ch_isr` has been read from channel `i`. -/
  | ready (i : Nat) (dmaIsr dmaChIsr : U32)
  /-- `dma_ch_isr` is written to the status of `channel` next. -/
  | ack (i : Nat) (dmaIsr dmaChIsr : U32)
deriving DecidableEq

/-- Where `mac_all_poll` is. -/
inductive AllPollPc
  /-- The poll is not scheduled. -/
  | idle
  /-- `mac_tx_poll` comes next. -/
  | tx
  /-- `mac_rx_poll` comes next; whether `mac_tx_poll` came to the limit of
  what it reclaims at a time. -/
  | rx (limited : Bool)
  /-- Nothing was received in the last turn: `napi_complete_done` comes
  next. -/
  | complete
deriving DecidableEq

/-- What the handler, the poll and the NIC share. -/
structure Interrupts where
  sr : StatusRegs
  /-- Since this ring of channel 0 was last found with nothing completed
  in it, a completion has raised its interrupt. -/
  unseen : Dir → Bool
  isr : IsrPc
  poll : AllPollPc
  /-- `NAPI_STATE_MISSED` -/
  missed : Bool

/-- After `mac_start`: `mac_enable_dma_interrupts` has cleared the status
of the channels, and nothing has come in. -/
def Interrupts.started : Interrupts where
  sr _ := 0
  unseen _ := false
  isr := .idle
  poll := .idle
  missed := false

-- ================================================================ the steps

/-- `napi_schedule_prep`, and `__napi_schedule` if it took the poll. -/
def Interrupts.schedule (s : Interrupts) : Interrupts :=
  if s.poll = .idle then { s with poll := .tx } else { s with missed := true }

/-- Whether `TI` or `RI` is set in a status word. -/
def tiOrRi (dmaChIsr : U32) : Bool :=
  dmaChIsr.getLsbD Dir.tx.pos || dmaChIsr.getLsbD Dir.rx.pos

/-- The next access of `mac_isr`. `channel` is channel 0 whatever `i` is,
so that the last write of a turn goes to the status of channel 0; the
status of another channel is written before it. -/
def Interrupts.isrStep (s : Interrupts) : Interrupts :=
  match s.isr with
  | .idle => s
  | .next i dmaIsr =>
      if i < isrChannels then
        if dmaIsr.getLsbD i then
          { s with isr := .ready i dmaIsr (s.sr i) }
        else { s with isr := .next (i + 1) dmaIsr }
      -- the MMC counters are read here, if `DMA_ISR` says so
      else { s with isr := .idle }
  | .ready i dmaIsr dmaChIsr =>
      if i = 0 then
        let s := if tiOrRi dmaChIsr then s.schedule else s
        { s with isr := .ack i dmaIsr dmaChIsr }
      else
        { s with
          sr := s.sr.write i dmaChIsr
          isr := .ack i dmaIsr dmaChIsr }
  | .ack i dmaIsr dmaChIsr =>
      { s with
        sr := s.sr.write 0 dmaChIsr
        isr := .next (i + 1) dmaIsr }

/-- The next thing `mac_all_poll` does: `mac_tx_poll` comes to its limit
or to a descriptor the NIC has not completed; `mac_rx_poll` passes up
`count` packets. A turn in which packets were passed up is followed by
another, in this poll or, with the budget used up, in the next. -/
def Interrupts.pollStep (s : Interrupts) (limited : Bool) (count : Nat) :
    Interrupts :=
  match s.poll with
  | .idle => s
  | .tx =>
      { s with
        unseen := Function.update s.unseen .tx (limited && s.unseen .tx)
        poll := .rx limited }
  | .rx _ =>
      if count = 0 then
        { s with
          unseen := Function.update s.unseen .rx false
          poll := .complete }
      else { s with poll := .tx }
  | .complete =>
      if s.missed then { s with missed := false, poll := .tx }
      else { s with poll := .idle }

/-- What can happen next. -/
inductive IntrAct
  /-- The NIC completes a descriptor of channel 0 and raises `TI` or
  `RI`. -/
  | completed (d : Dir)
  /-- The NIC raises other bits of the status of channel `i`. -/
  | event (i : Nat) (bits : U32)
  /-- `mac_isr` is called, and reads `DMA_ISR`. -/
  | irq (dmaIsr : U32)
  /-- `mac_isr` moves on. -/
  | isr
  /-- `mac_tx_timer` -/
  | timer
  /-- `mac_all_poll` moves on. -/
  | poll (limited : Bool) (count : Nat)

/-- One step. A handler that is running is not called again. -/
def Interrupts.step (s : Interrupts) : IntrAct → Interrupts
  | .completed d =>
      { s with
        sr := s.sr.raise 0 (BitVec.twoPow 32 d.pos)
        unseen := Function.update s.unseen d true }
  | .event i bits => { s with sr := s.sr.raise i bits }
  | .irq dmaIsr =>
      if s.isr = .idle ∧ dmaIsr ≠ 0 then { s with isr := .next 0 dmaIsr }
      else s
  | .isr => s.isrStep
  | .timer => s.schedule
  | .poll limited count => s.pollStep limited count

-- ====================================================== the small lemmas

section Lemmas

variable (sr : StatusRegs) (s : Interrupts)

@[simp] theorem StatusRegs.write_same (i : Nat) (value : U32) :
    sr.write i value i = sr i &&& ~~~value := Function.update_self ..

theorem StatusRegs.write_other {i j : Nat} (h : j ≠ i) (value : U32) :
    sr.write i value j = sr j := Function.update_of_ne h _ _

@[simp] theorem StatusRegs.raise_same (i : Nat) (bits : U32) :
    sr.raise i bits i = sr i ||| bits := Function.update_self ..

theorem StatusRegs.raise_other {i j : Nat} (h : j ≠ i) (bits : U32) :
    sr.raise i bits j = sr j := Function.update_of_ne h _ _

/-- What is raised does not lower anything. -/
theorem StatusRegs.raise_up {i j k : Nat} (bits : U32)
    (h : (sr j).getLsbD k = true) :
    (sr.raise i bits j).getLsbD k = true := by
  rcases eq_or_ne j i with rfl | hne
  · simp [h]
  · rw [sr.raise_other hne]
    exact h

@[simp] theorem Interrupts.schedule_isr : s.schedule.isr = s.isr := by
  unfold Interrupts.schedule
  split
  · rfl
  · rfl

end Lemmas

end BxRnic.Mac
