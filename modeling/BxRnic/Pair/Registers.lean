/-
The MPB window under two mutexes: the driver's sequences run under
`dev->hw_lock`, those of the processes that use the library under the
mutex in shared memory. Each keeps the sequences of its own side apart;
nothing keeps the two sides apart.

What is exact is the general rule of windows: as long as no sequence is
begun while one of the other side is in progress, every access gets at
the register it names and every QP-list transaction is about its own
queue pair (`accesses_right`).
-/
import BxRnic.Lib.Run
import BxRnic.Kernel.Registers
import BxRnic.User.Registers

namespace BxRnic.Mpb

open Run Window

-- ============================================================ the parties

/-- Who uses the window: threads in the driver, and processes. -/
inductive Caller
  | kernel (thread : Nat)
  | user (process : Nat)
deriving DecidableEq

/-- The mutexes. -/
inductive Mutex
  /-- `dev->hw_lock` of the driver. -/
  | hwLock
  /-- The one in shared memory, `dev->hw_lock` of the library. -/
  | shared
deriving DecidableEq

/-- The mutex a party takes. -/
def mutexOf : Caller → Mutex
  | .kernel _ => .hwLock
  | .user _ => .shared

/-- What can happen. A thread in the driver does not end in the middle
of a sequence. -/
inductive MpbEvent
  | kernelCall (thread : Nat) (call : Kernel.Reg.Call)
  | userCall (process : Nat) (call : User.Reg.Call)
  | access (caller : Caller)
  | quit (process : Nat)
  | device (reg value : U32)

/-- The event at the window. -/
def MpbEvent.event : MpbEvent → Event Caller U32 U32
  | kernelCall thread call => .begin (.kernel thread) call.seq
  | userCall process call => .begin (.user process) call.seq
  | access caller => .access caller
  | quit process => .quit (.user process)
  | device reg value => .device reg value

/-- The registers and those who use them. -/
abbrev Device := World Caller Mutex U32 U32

/-- The state after an event. -/
def Device.step (w : Device) (e : MpbEvent) : Device :=
  World.step mutexOf QPLISTREADQPN w e.event

/-- Nobody uses the window. -/
def Device.idle (addr : U32) (regs : U32 → U32) : Device where
  addr := addr
  regs := regs
  holder := fun _ => none
  party := fun _ => ⟨.done, false, none⟩

-- ============================================== property and condition

/-- The access gets at the register its caller names; and one of a
QP-list transaction at the queue pair its caller has selected. -/
def MpbEvent.Right (w : Device) (e : MpbEvent) : Prop :=
  Event.Right mutexOf QPLISTREADQPN InQplist w e.event

/-- The other side's mutex. -/
def Mutex.other : Mutex → Mutex
  | .hwLock => .shared
  | .shared => .hwLock

/-- A caller that can take its mutex finds the other side's free. -/
def MpbEvent.Apart (w : Device) : MpbEvent → Prop
  | .kernelCall _ _ => w.holder .hwLock = none → w.holder .shared = none
  | .userCall _ _ => w.holder .shared = none → w.holder .hwLock = none
  | _ => True

instance (w : Device) : ∀ e : MpbEvent, Decidable (e.Apart w)
  | .kernelCall _ _ => inferInstanceAs (Decidable (_ → _))
  | .userCall _ _ => inferInstanceAs (Decidable (_ → _))
  | .access _ => isTrue trivial
  | .quit _ => isTrue trivial
  | .device _ _ => isTrue trivial

-- ================================================= selections are made

private theorem sel_out : ¬ InQplist QPLISTREADQPN := by decide

/-- `set_bits` of the low 24 bits stays below a power of two that the word
is below. -/
private theorem setBits_low_lt {data : U32} (offset : U32)
    (hdata : data.toNat < 2 ^ 27) :
    (Pcs.setBits data 23 0 offset).toNat < 2 ^ 27 := by
  have hmid : ((offset <<< 8) >>> 8).toNat < 2 ^ 27 := by
    rw [BitVec.toNat_ushiftRight, Nat.shiftRight_eq_div_pow]
    have hlt := (offset <<< 8).isLt
    omega
  have hhigh : ((data >>> 24) <<< 24).toNat < 2 ^ 27 := by
    rw [BitVec.toNat_shiftLeft, BitVec.toNat_ushiftRight,
      Nat.shiftRight_eq_div_pow, Nat.shiftLeft_eq]
    have hle := Nat.div_mul_le_self data.toNat (2 ^ 24)
    exact Nat.lt_of_le_of_lt (Nat.le_trans (Nat.mod_le _ _) hle) hdata
  unfold Pcs.setBits
  rw [BitVec.toNat_or, BitVec.toNat_or]
  exact Nat.or_lt_two_pow (Nat.or_lt_two_pow hhigh hmid) (Nat.two_pow_pos _)

/-- The registers of the packet buffer unit are not those of the QP
list. -/
theorem pbuReg_out (type part : BitVec 2) (offset : U32) :
    ¬ InQplist (Kernel.Reg.pbuReg type part offset) := by
  have hpart : ∀ type part : BitVec 2,
      (Pcs.setBits (Pcs.setBits 0 24 24
        (type.setWidth 32)) 26 25 (part.setWidth 32)).toNat < 2 ^ 27 := by
    decide +kernel
  have hlt := setBits_low_lt offset (hpart type part)
  have hbase : (0x10000000 : U32).toNat = 2 ^ 28 := by decide
  have hmask : WRITEQPLISTMASK.toNat = 0x403c := by decide
  rintro ⟨-, hle⟩
  unfold Kernel.Reg.pbuReg at hle
  rw [BitVec.toNat_add, hbase, hmask, Nat.mod_eq_of_lt (by omega)] at hle
  omega

/-- The sequences of the library select before they use the QP list. -/
theorem userCall_opens (call : User.Reg.Call) :
    call.seq.Opens QPLISTREADQPN InQplist false := by
  cases call with
  | ringSqHw qpn phyaddr => exact Prog.opens_select sel_out _ _
  | updateSqTail qpn => exact Prog.opens_select sel_out _ _
  | updateSqHead qpn => exact Prog.opens_select sel_out _ _
  | initSqPtr qpn => exact Prog.opens_select sel_out _ _
  | ringRqHw qpn phyaddr =>
      exact Prog.opens_writes (by simp; decide) trivial
  | updateRqTail qpn paL paH =>
      exact Prog.opens_writes (by simp; decide)
        (Prog.opens_reads (by simp; decide) trivial)

/-- What is done to the packet buffer unit does not concern the QP
list. -/
theorem pbuInitForRecvReq_opens (service : Kernel.Reg.ServiceType)
    (dstQp initPkey initQkey : U32) {next : Seq}
    (hnext : next.Opens QPLISTREADQPN InQplist false) :
    (Kernel.Reg.pbuInitForRecvReq service dstQp initPkey initQkey
      next).Opens QPLISTREADQPN InQplist false := by
  refine Prog.opens_write (by decide) _ ?_
  cases service with
  | rc =>
      refine Prog.opens_write (pbuReg_out _ _ _) _ ⟨?_, fun _ => ?_⟩
      · exact fun h => absurd h (pbuReg_out _ _ _)
      · refine Prog.opens_write (pbuReg_out _ _ _) _ ⟨?_, fun _ => hnext⟩
        exact fun h => absurd h (pbuReg_out _ _ _)
  | rd =>
      exact Prog.opens_write (pbuReg_out _ _ _) _
        (Prog.opens_write (pbuReg_out _ _ _) _
          (Prog.opens_write (pbuReg_out _ _ _) _ hnext))
  | ud =>
      exact Prog.opens_write (pbuReg_out _ _ _) _
        (Prog.opens_write (pbuReg_out _ _ _) _ hnext)

theorem pbuInitForRecvRsp_opens (service : Kernel.Reg.ServiceType)
    (srcQp initPkey : U32) {next : Seq}
    (hnext : next.Opens QPLISTREADQPN InQplist false) :
    (Kernel.Reg.pbuInitForRecvRsp service srcQp initPkey next).Opens
      QPLISTREADQPN InQplist false := by
  cases service with
  | rc =>
      refine Prog.opens_write (pbuReg_out _ _ _) _ ⟨?_, fun _ => hnext⟩
      exact fun h => absurd h (pbuReg_out _ _ _)
  | rd => exact Prog.opens_write (pbuReg_out _ _ _) _ hnext
  | ud => exact hnext

/-- So do those of the driver. -/
theorem kernelCall_opens (call : Kernel.Reg.Call) :
    call.seq.Opens QPLISTREADQPN InQplist false := by
  cases call with
  | ringSqHw qpn head entrySize maxCnt overhead =>
      cases overhead with
      | true => exact Prog.opens_select sel_out _ _
      | false => exact Prog.opens_select sel_out _ _
  | updateSqTail qpn => exact Prog.opens_select sel_out _ _
  | updateSqHead qpn => exact Prog.opens_select sel_out _ _
  | ringRqHw qpn phyaddr =>
      exact Prog.opens_writes (by simp; decide) trivial
  | updateRqTail qpn =>
      exact Prog.opens_writes (by simp; decide)
        (Prog.opens_reads (by simp; decide) trivial)
  | txcqHwwp qpn =>
      exact Prog.opens_write (by decide) _
        (Prog.opens_reads (by simp; decide) trivial)
  | rxcqHwwp qpn =>
      exact Prog.opens_write (by decide) _
        (Prog.opens_reads (by simp; decide) trivial)
  | xmitcqHwwp qpn =>
      exact Prog.opens_write (by decide) _
        (Prog.opens_reads (by simp; decide) trivial)
  | pollCqInfo => exact Prog.opens_reads (by simp; decide) trivial
  | mapQps lqp destqp service pkeyIndex qkey =>
      refine Prog.opens_writes (by simp; decide) ⟨by decide, ?_⟩
      cases service with
      | none => trivial
      | some service =>
          exact pbuInitForRecvReq_opens _ _ _ _
            (pbuInitForRecvRsp_opens _ _ _ trivial)
  | hwCreateQp qpn mem =>
      -- the selection is in the middle, after 18 writes elsewhere
      show (Kernel.Reg.hwCreateQp qpn mem).Opens _ _ _
      unfold Kernel.Reg.hwCreateQp
      rw [Prog.writes_append]
      exact Prog.opens_writes
        (by simp [Kernel.Reg.writeRcvq]; decide +kernel)
        (Prog.opens_select sel_out _ _)

-- ================================================================== runs

/-- All sequences that are begun make their selections. -/
theorem MpbEvent.opens (e : MpbEvent) :
    Event.Opens QPLISTREADQPN InQplist e.event := by
  cases e with
  | kernelCall thread call => exact kernelCall_opens call
  | userCall process call => exact userCall_opens call
  | access caller => trivial
  | quit process => trivial
  | device reg value => trivial

/-- With the other side's mutex free, both are. -/
theorem MpbEvent.Apart.alone {w : Device} {e : MpbEvent}
    (h : e.Apart w) : Event.Alone mutexOf w e.event := by
  cases e with
  | kernelCall thread call =>
      intro hfree l
      cases l with
      | hwLock => exact hfree
      | shared => exact h hfree
  | userCall process call =>
      intro hfree l
      cases l with
      | hwLock => exact h hfree
      | shared => exact hfree
  | access caller => trivial
  | quit process => trivial
  | device reg value => trivial

/-- Over every run, with any number of threads and processes, on which no
sequence is begun while one of the other side is in progress, the
accesses get at their registers and the transactions at their queue
pairs. -/
theorem accesses_right (addr : U32) (regs : U32 → U32)
    (events : List MpbEvent)
    (hapart : Each Device.step (fun w e => e.Apart w)
      (Device.idle addr regs) events) :
    Each Device.step (fun w e => e.Right w) (Device.idle addr regs)
      events := by
  refine hapart.each_of_inv (I := World.Inv mutexOf QPLISTREADQPN InQplist)
    ?_ (World.inv_of_free _ _ fun _ => rfl) ?_
  · exact fun w e hinv happ => hinv.step happ.alone e.opens
  · exact fun w e hinv _ => hinv.right e.event

/-- A process ends in the middle of a transaction, another one takes the
mutex over, and a thread of the driver comes after that. -/
theorem accesses_right_after_quit :
    let half (c : Caller) : MpbEvent := .access c
    let events : List MpbEvent :=
      [.userCall 0 (.ringSqHw 5 0x40)] ++ List.replicate 7 (half (.user 0))
        ++ [.quit 0, .userCall 1 (.updateSqTail 7)]
        ++ List.replicate 13 (half (.user 1))
        ++ [.kernelCall 0 (.ringSqHw 9 3 64 2048 true)]
        ++ List.replicate 20 (half (.kernel 0))
    Each Device.step (fun w e => e.Right w)
      (Device.idle 0 fun _ => 0) events := by
  intro half events
  exact accesses_right 0 _ events (by decide +kernel)

/-- A thread of the driver has written the address of `QPLISTREADQPN`; a
process writes that of `RCVQ_INF`, and the thread's data go there. -/
theorem data_goes_elsewhere :
    ¬ ∀ (addr : U32) (regs : U32 → U32) (events : List MpbEvent),
      Each Device.step (fun w e => e.Right w) (Device.idle addr regs)
        events := by
  intro h
  have hrun := h 0 (fun _ => 0)
    [.kernelCall 0 (.updateSqTail 5), .access (.kernel 0),
      .userCall 0 (.ringRqHw 7 0x40), .access (.user 0),
      .access (.kernel 0)]
  obtain ⟨-, -, -, -, hlast, -⟩ := hrun
  have haddr := (hlast rfl rfl QPLISTREADQPN rfl).1
  exact absurd haddr (by decide)

end BxRnic.Mpb
