/-
The registers of the queues decode to their memory: the pairs of words
that `bxroce_hw_create_qp` writes are the addresses of the queues, and the
first and the last byte of each ring of the completion queues; and the
write pointers the device hands back are turned into the right indices.

The device takes a pair when the register behind it is written
(`pairAt`). The length of a ring is added to the low word only, and what
makes that right is the alignment of the three rings together: all of
them lie in a block aligned to a power of two, so no carry is lost
(`Cq.Made.placed`).

# When

The size asked for is computed in 32 bits. As long as it does not wrap,
everything holds. If it does, the buffer is shorter than the rings
(`Cq.Made.lt_of_inside`), and a ring of length 0 has no last byte.
-/
import Mathlib.Order.CompletePartialOrder
import Mathlib.Order.Interval.Set.Disjoint
import Mathlib.Order.Nat
import BxRnic.Lib.Field
import BxRnic.Kernel.CreateQueues

namespace BxRnic.Kernel.Queues

open Mpb Window

-- ============================================================ the property

/-- The pair of words that two registers next to each other hold when
`op` is first written. -/
def pairAt (op reg : U32) (ws : List (U32 × U32)) : Option U64 :=
  (Prog.heldAt op ws reg).bind fun lo =>
    (Prog.heldAt op ws (reg + 0x4)).map fun hi => Halves.join 64 lo hi

/-- `len` bytes from `pa` on. -/
def ringBytes (pa : U64) (len : U32) : Set ℕ :=
  Set.Ico pa.toNat (pa.toNat + len.toNat)

/-- The registers show the first and the last byte of a ring. -/
structure RingShown (ws : List (U32 × U32)) (op base up : U32) (pa : U64)
    (len : U32) : Prop where
  first : ∃ a, pairAt op base ws = some a
    ∧ IsLeast (ringBytes pa len) a.toNat
  last : ∃ a, pairAt op up ws = some a
    ∧ IsGreatest (ringBytes pa len) a.toNat

/-- A write pointer to entry `k` is read as `k`; `hwwp` gives the index
and the address for the driver. -/
def IndexRight (hwwp : (U32 → U32) → U32 × U64) (wpt cqeCnt : U32)
    (pa va : U64) : Prop :=
  ∀ (regs : U32 → U32) (k : Nat), k < cqeCnt.toNat →
    regs wpt = Halves.low 32 (pa + BitVec.ofNat 64 (16 * k)) →
    regs (wpt + 0x4) = Halves.high 32 (pa + BitVec.ofNat 64 (16 * k)) →
    (hwwp regs).1.toNat = k ∧ (hwwp regs).2 = va + BitVec.ofNat 64 (16 * k)

/-- The buffer a completion queue was given. -/
def Cq.allocated (cq : Cq) : Set ℕ :=
  Set.Ico cq.txpa.toNat (cq.txpa.toNat + (totalen cq.len).toNat)

/-- The rings of a completion queue are apart and inside its buffer, and
their write pointers are read right. -/
structure Cq.RingsRight (cq : Cq) : Prop where
  txXmit : Disjoint (ringBytes cq.txpa cq.len) (ringBytes cq.xmitpa cq.len)
  txRx : Disjoint (ringBytes cq.txpa cq.len) (ringBytes cq.rxpa cq.len)
  xmitRx : Disjoint (ringBytes cq.xmitpa cq.len) (ringBytes cq.rxpa cq.len)
  inside : ringBytes cq.txpa cq.len ∪ ringBytes cq.xmitpa cq.len
    ∪ ringBytes cq.rxpa cq.len ⊆ cq.allocated
  txIndex : IndexRight
    (fun regs => ((txcqHwwp regs cq).1.txwp, (txcqHwwp regs cq).2))
    CQWRITEPTR cq.cqeCnt cq.txpa cq.txva
  rxIndex : IndexRight
    (fun regs => ((rxcqHwwp regs cq).1.rxwp, (rxcqHwwp regs cq).2))
    RxCQWPT cq.cqeCnt cq.rxpa cq.rxva
  xmitIndex : IndexRight
    (fun regs => ((xmitcqHwwp regs cq).1.xmitwp, (xmitcqHwwp regs cq).2))
    XmitCQWPT cq.cqeCnt cq.xmitpa cq.xmitva

/-- What `bxroce_hw_create_qp` writes for a queue pair with its memory and
its completion queues decodes to where they are. -/
structure QueuesShown (ws : List (U32 × U32)) (mem : Reg.QpMemory)
    (send recv : Cq) : Prop where
  rq : ∃ a, pairAt RCVQ_WRRD RCVQ_DI ws = some a ∧ a <<< 12 = mem.rqPa
  /-- The flag is all there is above the address. -/
  sq : ∃ a, pairAt QPLISTWRITEQPN RPFORQPLIST ws = some a
    ∧ Field.get a 0 52 <<< 12 = mem.sqPa ∧ Field.get a 52 12 = 1
  tx : RingShown ws CQESIZE CQQUEUEDOWN CQQUEUEUP send.txpa send.len
  xmit : RingShown ws XmitCQEOp XmitBaseAddrCQE XmitUpAddrCQE send.xmitpa
    send.len
  rx : RingShown ws RxCQEOp RxBaseAddrCQE RxUpAddrCQE recv.rxpa recv.len
  sendRings : send.RingsRight
  recvRings : recv.RingsRight

-- ============================================================= the buffers

section Buffers

variable {dma : CoherentDma} {call : Nat} {size pa : U64} {len : U32}

/-- A buffer is in pages. -/
theorem Coherent.page_dvd (h : Coherent size pa) : 4096 ∣ pa.toNat := by
  obtain ⟨order, -, hdvd⟩ := h.aligned
  exact (Nat.dvd_mul_right _ _).trans hdvd

/-- Inside a buffer nothing is carried into the high word. -/
theorem Coherent.mod_add_le (h : Coherent size pa) {n : Nat}
    (hn : n ≤ size.toNat) (hword : n ≤ 2 ^ 32) :
    pa.toNat % 2 ^ 32 + n ≤ 2 ^ 32 := by
  obtain ⟨order, hleast, hdvd⟩ := h.aligned
  have hpow : 4096 * 2 ^ order = 2 ^ (12 + order) := (pow_add 2 12 _).symm
  refine Halves.mod_add_le_of_block (hpow ▸ hdvd) ?_ hword
  exact hn.trans (hpow ▸ hleast.1)

/-- A buffer may be any aligned block that is long enough. -/
theorem Coherent.of_block (order : Nat) (horder : order ≤ 50)
    (hsize : size.toNat ≤ 4096 * 2 ^ order)
    (hpa : 4096 * 2 ^ order ∣ pa.toNat) : Coherent size pa := by
  have hpow : 4096 * 2 ^ order = 2 ^ (12 + order) := (pow_add 2 12 _).symm
  have hle : 2 ^ (12 + order) ≤ 2 ^ 62 :=
    Nat.pow_le_pow_right (by decide) (by omega)
  have hend := Halves.mod_add_le_of_dvd (Nat.two_pow_pos 64)
    (hpow ▸ Nat.pow_dvd_pow 2 (by omega : 12 + order ≤ 64)) hpa
  rw [Nat.mod_eq_of_lt pa.isLt] at hend
  have hex : ∃ k, size.toNat ≤ 4096 * 2 ^ k := ⟨order, hsize⟩
  refine ⟨by omega, by omega, Nat.find hex, Nat.isLeast_find hex, ?_⟩
  have hmin : Nat.find hex ≤ order := Nat.find_min' hex hsize
  exact (Nat.mul_dvd_mul_left _ (Nat.pow_dvd_pow 2 hmin)).trans hpa

/-- The size that is asked for: three times the length, cut to an
`int`. -/
theorem toNat_totalen (len : U32) :
    (totalen len).toNat = 3 * len.toNat % 2 ^ 32
      ∨ 2 ^ 63 ≤ (totalen len).toNat := by
  have hprod : (len * 3).toNat = 3 * len.toNat % 2 ^ 32 := by
    rw [BitVec.toNat_mul, Nat.mul_comm]
    rfl
  rw [totalen, BitVec.toNat_signExtend, BitVec.toNat_setWidth, hprod]
  by_cases hneg : (len * 3).msb = true
  · rw [if_pos hneg]
    right
    omega
  · rw [if_neg hneg]
    left
    omega

theorem le_totalen (h : 3 * len.toNat < 2 ^ 32) :
    3 * len.toNat ≤ (totalen len).toNat := by
  have htotal := toNat_totalen len
  omega

theorem toNat_add_len (h : pa.toNat + len.toNat < 2 ^ 64) :
    (pa + len.setWidth 64).toNat = pa.toNat + len.toNat := by
  have hlen := len.isLt
  rw [BitVec.toNat_add, BitVec.toNat_setWidth,
    Nat.mod_eq_of_lt (show len.toNat < 2 ^ 64 by omega),
    Nat.mod_eq_of_lt h]

/-- What `bxroce_hw_create_cq` leaves in a completion queue. -/
structure Cq.Made (cq : Cq) : Prop where
  coherent : Coherent (totalen cq.len) cq.txpa
  xmitpa : cq.xmitpa = cq.txpa + cq.len.setWidth 64
  rxpa : cq.rxpa = cq.xmitpa + cq.len.setWidth 64
  cqeSize : cq.cqeSize = 16
  cqeCnt : cq.cqeCnt = cq.len / 16

theorem hwCreateCq_made {maxCqe : U32} {cq : Cq}
    (h : hwCreateCq dma call maxCqe = some cq) :
    cq.Made ∧ cq.len = roundup (maxCqe * sizeofTxcqe) minQPageSize := by
  obtain ⟨⟨va, pa⟩, halloc, rfl⟩ := Option.map_eq_some_iff.1 h
  exact ⟨⟨dma.coherent halloc, rfl, rfl, rfl, rfl⟩, rfl⟩

variable {cq : Cq}

/-- Where the rings are, if the size does not wrap. -/
theorem Cq.Made.placed (h : cq.Made) (hlen : 3 * cq.len.toNat < 2 ^ 32) :
    cq.txpa.toNat % 2 ^ 32 + 3 * cq.len.toNat ≤ 2 ^ 32
      ∧ cq.xmitpa.toNat = cq.txpa.toNat + cq.len.toNat
      ∧ cq.rxpa.toNat = cq.txpa.toNat + 2 * cq.len.toNat := by
  have htotal := le_totalen hlen
  have hfits := h.coherent.fits
  have hpa := cq.txpa.isLt
  have hxmit : cq.xmitpa.toNat = cq.txpa.toNat + cq.len.toNat := by
    rw [h.xmitpa]
    exact toNat_add_len (by omega)
  refine ⟨h.coherent.mod_add_le htotal hlen.le, hxmit, ?_⟩
  rw [h.rxpa, toNat_add_len (by omega), hxmit]
  omega

end Buffers

-- =========================================================== the registers

section Registers

variable {qpn : U32} {mem : Reg.QpMemory} {answer : U32 → U32}

/-- The two words of an address, put together. -/
theorem join_words (pa : U64) :
    Halves.join 64 (Reg.lowWord pa) (Reg.highWord pa) = pa :=
  Halves.join_halves (w := 32) rfl pa

theorem toNat_lowWord (pa : U64) :
    (Reg.lowWord pa).toNat = pa.toNat % 2 ^ 32 :=
  Halves.toNat_low pa

theorem toNat_highWord (pa : U64) :
    (Reg.highWord pa).toNat = pa.toNat / 2 ^ 32 :=
  Halves.toNat_high (w := 32) (by decide) pa

theorem toNat_page (pa : U64) :
    (pa >>> 12).toNat = pa.toNat / 4096 := by
  rw [BitVec.toNat_ushiftRight, Nat.shiftRight_eq_div_pow]

/-- The pair for the receive queue is its page. -/
theorem rq_shown (h : 4096 ∣ mem.rqPa.toNat) :
    ∃ a, pairAt RCVQ_WRRD RCVQ_DI
        ((Reg.hwCreateQp qpn mem).written answer) = some a
      ∧ a <<< 12 = mem.rqPa := by
  refine ⟨Halves.join 64 (Reg.lowWord (mem.rqPa >>> 12))
    (Reg.highWord (mem.rqPa >>> 12)), rfl, ?_⟩
  rw [join_words]
  apply BitVec.eq_of_toNat_eq
  have hpage : mem.rqPa.toNat / 4096 * 2 ^ 12 = mem.rqPa.toNat :=
    Nat.div_mul_cancel h
  rw [BitVec.toNat_shiftLeft, toNat_page, Nat.shiftLeft_eq, hpage,
    Nat.mod_eq_of_lt mem.rqPa.isLt]

/-- The pair for the send queue is its page, below the flag. -/
theorem sq_shown (h : 4096 ∣ mem.sqPa.toNat) :
    ∃ a, pairAt QPLISTWRITEQPN RPFORQPLIST
        ((Reg.hwCreateQp qpn mem).written answer) = some a
      ∧ Field.get a 0 52 <<< 12 = mem.sqPa ∧ Field.get a 52 12 = 1 := by
  have hpa := mem.sqPa.isLt
  have hbit : (0x00100000 : U32).toNat = 2 ^ 20 := rfl
  -- the address leaves bit 20 of the high word free
  have hpair : (Halves.join 64 (Reg.lowWord (mem.sqPa >>> 12))
      (Reg.highWord (mem.sqPa >>> 12) + 0x00100000)).toNat
        = 2 ^ 52 + mem.sqPa.toNat / 4096 := by
    rw [Halves.toNat_join (by decide), BitVec.toNat_add, hbit,
      toNat_highWord, toNat_lowWord, toNat_page]
    omega
  refine ⟨Halves.join 64 (Reg.lowWord (mem.sqPa >>> 12))
    (Reg.highWord (mem.sqPa >>> 12) + 0x00100000), rfl, ?_, ?_⟩
  · apply BitVec.eq_of_toNat_eq
    rw [BitVec.toNat_shiftLeft, Field.toNat_get (by decide), hpair,
      Nat.shiftLeft_eq]
    omega
  · apply BitVec.eq_of_toNat_eq
    rw [Field.toNat_get (by decide), hpair]
    change _ = 1
    omega

/-- A ring none of whose bytes needs a carry is shown by its base and its
base with the length added to the low word. -/
theorem ringShown_of_pairs {ws : List (U32 × U32)} {op base up : U32}
    {pa : U64} {len : U32}
    (hbase : pairAt op base ws
      = some (Halves.join 64 (Reg.lowWord pa) (Reg.highWord pa)))
    (hup : pairAt op up ws = some
      (Halves.join 64 (Reg.lowWord pa + (len - 1)) (Reg.highWord pa)))
    (hpos : 0 < len.toNat)
    (hcarry : pa.toNat % 2 ^ 32 + len.toNat ≤ 2 ^ 32) :
    RingShown ws op base up pa len := by
  have hlen : (len - 1).toNat = len.toNat - 1 := by bv_omega
  have hlast : (Halves.join 64 (Reg.lowWord pa + (len - 1))
      (Reg.highWord pa)).toNat = pa.toNat + (len.toNat - 1) := by
    rw [← hlen]
    exact Halves.toNat_join_add (w := 32) rfl (by omega)
  refine ⟨⟨_, hbase, ?_⟩, ⟨_, hup, ?_⟩⟩
  · rw [join_words]
    refine ⟨⟨le_rfl, by omega⟩, fun b hb => hb.1⟩
  · rw [hlast]
    refine ⟨⟨by omega, by omega⟩, fun b hb => ?_⟩
    have hlt := hb.2
    omega

end Registers

-- ============================================================= the indices

/-- The address of an entry is turned into its index. -/
theorem hwIndex_entry {regs : U32 → U32} {wpt : U32} {pa : U64} {k : Nat}
    (hlow : regs wpt = Halves.low 32 (pa + BitVec.ofNat 64 (16 * k)))
    (hhigh : regs (wpt + 0x4)
      = Halves.high 32 (pa + BitVec.ofNat 64 (16 * k))) :
    hwIndex regs wpt pa 16 = BitVec.ofNat 32 k := by
  have hoff : pa + BitVec.ofNat 64 (16 * k) - pa
      = BitVec.ofNat 64 (16 * k) := by
    rw [BitVec.add_comm, BitVec.add_sub_cancel]
  rw [hwIndex, hlow, hhigh, Halves.join_halves (w := 32) rfl, hoff]
  apply BitVec.eq_of_toNat_eq
  rw [BitVec.toNat_setWidth, BitVec.toNat_udiv, BitVec.toNat_ofNat,
    BitVec.toNat_ofNat]
  change 16 * k % 2 ^ 64 / 16 % 2 ^ 32 = _
  omega

/-- The three functions are right about their rings. -/
theorem indexRight_of_hwIndex {hwwp : (U32 → U32) → U32 × U64}
    {wpt cqeCnt : U32} {pa va : U64} (hcnt : cqeCnt.toNat ≤ 2 ^ 28)
    (hhwwp : ∀ regs, hwwp regs = (hwIndex regs wpt pa 16,
      va + (hwIndex regs wpt pa 16 * 16).setWidth 64)) :
    IndexRight hwwp wpt cqeCnt pa va := by
  intro regs k hk hlow hhigh
  have hindex := hwIndex_entry hlow hhigh
  have hoff : (BitVec.ofNat 32 k * 16 : U32).setWidth 64
      = BitVec.ofNat 64 (16 * k) := by
    apply BitVec.eq_of_toNat_eq
    rw [BitVec.toNat_setWidth, BitVec.toNat_mul, BitVec.toNat_ofNat,
      BitVec.toNat_ofNat]
    change k % 2 ^ 32 * 16 % 2 ^ 32 % 2 ^ 64 = _
    omega
  rw [hhwwp regs, hindex, hoff]
  refine ⟨?_, rfl⟩
  rw [BitVec.toNat_ofNat]
  omega

-- =============================================================== the rings

/-- The rings of a completion queue are right if its size does not
wrap. -/
theorem Cq.Made.ringsRight {cq : Cq} (h : cq.Made)
    (hlen : 3 * cq.len.toNat < 2 ^ 32) : cq.RingsRight := by
  obtain ⟨-, hxmit, hrx⟩ := h.placed hlen
  have htotal := le_totalen hlen
  have hcnt : cq.cqeCnt.toNat ≤ 2 ^ 28 := by
    rw [h.cqeCnt, BitVec.toNat_udiv]
    change cq.len.toNat / 16 ≤ _
    omega
  have hindex {hwwp : (U32 → U32) → U32 × U64} {wpt : U32} {pa va : U64}
      (hhwwp : ∀ regs, hwwp regs = (hwIndex regs wpt pa cq.cqeSize,
        va + (hwIndex regs wpt pa cq.cqeSize
          * cq.cqeSize).setWidth 64)) :
      IndexRight hwwp wpt cq.cqeCnt pa va :=
    indexRight_of_hwIndex hcnt (h.cqeSize ▸ hhwwp)
  refine ⟨?_, ?_, ?_, ?_, hindex fun _ => rfl, hindex fun _ => rfl,
    hindex fun _ => rfl⟩
  · refine Set.Ico_disjoint_Ico.2 ?_
    omega
  · refine Set.Ico_disjoint_Ico.2 ?_
    omega
  · refine Set.Ico_disjoint_Ico.2 ?_
    omega
  · refine Set.union_subset (Set.union_subset ?_ ?_) ?_
    all_goals
      refine Set.Ico_subset_Ico ?_ ?_
      · omega
      · omega

/-- Rings inside their buffer: its size did not wrap. -/
theorem Cq.Made.lt_of_inside {cq : Cq} (h : cq.Made)
    (hpos : 0 < cq.len.toNat) (hright : cq.RingsRight) :
    3 * cq.len.toNat < 2 ^ 32 := by
  have hsize := h.coherent.size_lt
  have htotal := toNat_totalen cq.len
  have hlen := cq.len.isLt
  have hrx : cq.rxpa.toNat
      = (cq.txpa.toNat + 2 * cq.len.toNat) % 2 ^ 64 := by
    rw [h.rxpa, h.xmitpa, BitVec.toNat_add, BitVec.toNat_add,
      BitVec.toNat_setWidth]
    omega
  have hmem (x : ℕ) (hx : x ∈ ringBytes cq.rxpa cq.len) :
      x ∈ cq.allocated := hright.inside (Or.inr hx)
  -- the first and the last byte of the third ring
  have hfirst := hmem cq.rxpa.toNat ⟨le_rfl, by omega⟩
  have hlast := hmem (cq.rxpa.toNat + (cq.len.toNat - 1))
    ⟨by omega, by omega⟩
  have hge : cq.txpa.toNat ≤ cq.rxpa.toNat := hfirst.1
  have hend : cq.rxpa.toNat + (cq.len.toNat - 1)
      < cq.txpa.toNat + (totalen cq.len).toNat := hlast.2
  have hnowrap : cq.txpa.toNat + 2 * cq.len.toNat < 2 ^ 64 := by omega
  rw [Nat.mod_eq_of_lt hnowrap] at hrx
  omega

-- ============================================================= the theorem

variable {dma : CoherentDma} {callSend callRecv callQp : Nat}
variable {maxCqe maxQpWr maxRecvSge : U32} {send recv : Cq}
variable {mem : Reg.QpMemory}

/-- Where the memory of a queue pair comes from. -/
theorem qpMemory_eq_some
    (h : qpMemory dma callQp maxQpWr maxRecvSge send recv = some mem) :
    4096 ∣ mem.rqPa.toNat ∧ 4096 ∣ mem.sqPa.toNat
      ∧ mem.txPa = send.txpa ∧ mem.xmitPa = send.xmitpa
      ∧ mem.rxPa = recv.rxpa ∧ mem.cqLen = send.len := by
  obtain ⟨rq, hrq, h⟩ := Option.bind_eq_some_iff.1 h
  obtain ⟨sq, hsq, rfl⟩ := Option.map_eq_some_iff.1 h
  exact ⟨(dma.coherent hrq).page_dvd, (dma.coherent hsq).page_dvd, rfl,
    rfl, rfl, rfl⟩

/-- The registers show the queues exactly if there are rings and the size
of three of them does not wrap. -/
theorem queues_shown_iff
    (hsend : hwCreateCq dma callSend maxCqe = some send)
    (hrecv : hwCreateCq dma callRecv maxCqe = some recv)
    (hmem : qpMemory dma callQp maxQpWr maxRecvSge send recv = some mem)
    (qpn : U32) (answer : U32 → U32) :
    QueuesShown ((Reg.hwCreateQp qpn mem).written answer) mem send recv
      ↔ 0 < send.len.toNat ∧ 3 * send.len.toNat < 2 ^ 32 := by
  obtain ⟨hmade, hlen⟩ := hwCreateCq_made hsend
  obtain ⟨hmade', hlen'⟩ := hwCreateCq_made hrecv
  have hsame : recv.len = send.len := hlen'.trans hlen.symm
  obtain ⟨hrq, hsq, htx, hxmit, hrx, hcq⟩ := qpMemory_eq_some hmem
  constructor
  · intro h
    obtain ⟨a, -, hleast⟩ := h.tx.first
    have hin := hleast.1
    have hpos : 0 < send.len.toNat := by
      have hlo := hin.1
      have hhi := hin.2
      omega
    exact ⟨hpos, hmade.lt_of_inside hpos h.sendRings⟩
  · rintro ⟨hpos, hsize⟩
    have hsize' : 3 * recv.len.toNat < 2 ^ 32 := hsame ▸ hsize
    obtain ⟨hcarry, hxmitAt, -⟩ := hmade.placed hsize
    obtain ⟨hcarry', -, hrxAt⟩ := hmade'.placed hsize'
    refine ⟨rq_shown hrq, sq_shown hsq, ?_, ?_, ?_,
      hmade.ringsRight hsize, hmade'.ringsRight hsize'⟩
    · refine ringShown_of_pairs ?_ ?_ hpos (by omega)
      · rw [← htx]
        rfl
      · rw [← htx, ← hcq]
        rfl
    · refine ringShown_of_pairs ?_ ?_ hpos (by omega)
      · rw [← hxmit]
        rfl
      · rw [← hxmit, ← hcq]
        rfl
    · refine ringShown_of_pairs ?_ ?_ (hsame ▸ hpos) (by omega)
      · rw [← hrx]
        rfl
      · rw [← hrx, hsame, ← hcq]
        rfl

-- ============================================================ an allocator

/-- An allocator with eight places of half a GiB, above 2^44. -/
def placesDma : CoherentDma where
  alloc call size :=
    if size ≤ 0x20000000 ∧ call < 8 then
      let pa := 0x0010000040000000 + BitVec.ofNat 64 call * 0x20000000
      some (0xffff888000000000 + pa, pa)
    else none
  coherent {call size va pa} h := by
    split at h
    · next hsize =>
      obtain ⟨-, rfl⟩ := Prod.mk.inj (Option.some.inj h)
      have hcall := hsize.2
      have hle : size.toNat ≤ 0x20000000 := hsize.1
      refine Coherent.of_block 17 (by decide) hle ?_
      change 0x20000000 ∣ _
      bv_omega
    · next => cases h

/-- With the 256 entries that the driver asks for. -/
theorem queues_shown_iff_default :
    ∃ send recv mem,
      hwCreateCq placesDma 0 256 = some send
        ∧ hwCreateCq placesDma 1 256 = some recv
        ∧ qpMemory placesDma 2 1024 2 send recv = some mem
        ∧ QueuesShown ((Reg.hwCreateQp 5 mem).written fun _ => 0) mem send
            recv := by
  obtain ⟨send, hsend⟩ : ∃ send,
    hwCreateCq placesDma 0 256 = some send := ⟨_, rfl⟩
  obtain ⟨recv, hrecv⟩ : ∃ recv,
    hwCreateCq placesDma 1 256 = some recv := ⟨_, rfl⟩
  obtain ⟨mem, hmem⟩ : ∃ mem,
    qpMemory placesDma 2 1024 2 send recv = some mem := ⟨_, rfl⟩
  refine ⟨send, recv, mem, hsend, hrecv, hmem,
    (queues_shown_iff hsend hrecv hmem 5 fun _ => 0).2 ?_⟩
  rw [(hwCreateCq_made hsend).2]
  decide

/-- Rings of 1.5 GiB: the size asked for wraps to half a GiB, and they are
not inside the buffer. -/
theorem queues_not_shown_wrapped :
    ∃ send mem,
      hwCreateCq placesDma 0 0x6000000 = some send
        ∧ qpMemory placesDma 2 1024 2 send send = some mem
        ∧ ¬ QueuesShown ((Reg.hwCreateQp 5 mem).written fun _ => 0) mem
            send send := by
  obtain ⟨send, hsend⟩ : ∃ send,
    hwCreateCq placesDma 0 0x6000000 = some send := ⟨_, rfl⟩
  obtain ⟨mem, hmem⟩ : ∃ mem,
    qpMemory placesDma 2 1024 2 send send = some mem := ⟨_, rfl⟩
  obtain ⟨hmade, hlen⟩ := hwCreateCq_made hsend
  refine ⟨send, mem, hsend, hmem, fun h => ?_⟩
  have hpos : 0 < send.len.toNat := by
    rw [hlen]
    decide
  have hfits := hmade.lt_of_inside hpos h.sendRings
  rw [hlen] at hfits
  exact absurd hfits (by decide)

end BxRnic.Kernel.Queues
