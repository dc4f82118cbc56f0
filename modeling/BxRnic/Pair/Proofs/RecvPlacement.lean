/-
Where the entries of a posted receive go, in the driver and in the
library (`bxroce_build_rqsges`, `bxroce_ring_rq_hw` and
`bxroce_update_rq_head` of both).

Four expressions say where: the entries are stored straight on from the
head, the ids round the ring from it, the register is rung for the head
plus the number of elements, and the head goes round. They say the same
as long as the request ends at the end of the ring at the latest
(`placed_iff`, which both sides are an instance of).
-/
import BxRnic.User.Proofs.RecvCompletions
import BxRnic.User.Proofs.Progress
import BxRnic.Kernel.Proofs.Queues

namespace BxRnic

open SlotRing

-- ============================================================== the property

/-- `sizeof(struct bxroce_rqe)`, the entry size of both receive rings. -/
def sizeofRqe : Nat := 16

/-- The memory and the indices before and after an accepted receive. -/
structure Placement where
  maxCnt : Nat
  head : Nat
  wrId : U64
  /-- The entries the request's elements make. -/
  rqes : List Rqe
  va : Nat → Rqe
  va' : Nat → Rqe
  tbl' : Nat → U64
  newHead : Nat
  /-- What the register is rung with. -/
  phyaddr : Nat

/-- Element `i` is at the slot `(head + i) % max_cnt`, and so is its id;
no other slot is changed; the register takes the new head. -/
structure Placement.Right (p : Placement) : Prop where
  written : ∀ (i : Nat) (hi : i < p.rqes.length),
    p.va' ((p.head + i) % p.maxCnt) = p.rqes[i]
  recorded : ∀ i < p.rqes.length,
    p.tbl' ((p.head + i) % p.maxCnt) = p.wrId
  others : ∀ k ∉ slots p.maxCnt p.head p.rqes.length, p.va' k = p.va k
  rung : ∃ v, p.phyaddr = sizeofRqe * v ∧ v ≡ p.newHead [MOD p.maxCnt]
    ∧ p.phyaddr ≤ p.maxCnt * sizeofRqe

/-- The request ends by the end of the ring, and one without elements
finds the slot it clears clear. -/
def Placement.Fits (p : Placement) : Prop :=
  p.head + p.rqes.length ≤ p.maxCnt ∧ (p.rqes = [] → p.va p.head = .zero)

/-- What the code does with a receive. -/
structure Placement.Coded (p : Placement) (tbl : Nat → U64) : Prop where
  va' : p.va' = if p.rqes = [] then Function.update p.va p.head .zero
    else storeFrom p.va p.head p.rqes
  tbl' : p.tbl' = markRound p.maxCnt p.head p.wrId tbl 0 p.rqes.length
  newHead : p.newHead = (p.head + p.rqes.length) % p.maxCnt
  phyaddr : p.phyaddr = (p.head + p.rqes.length) * sizeofRqe

-- ============================================================= the condition

/-- The register takes a value within the ring iff the request ends
there. -/
private theorem rung_iff {p : Placement} {tbl : Nat → U64}
    (h : p.Coded tbl) :
    (∃ v, p.phyaddr = sizeofRqe * v ∧ v ≡ p.newHead [MOD p.maxCnt]
        ∧ p.phyaddr ≤ p.maxCnt * sizeofRqe)
      ↔ p.head + p.rqes.length ≤ p.maxCnt := by
  have hsize : 0 < sizeofRqe := by decide
  rw [h.phyaddr, h.newHead]
  constructor
  · rintro ⟨-, -, -, hle⟩
    exact Nat.le_of_mul_le_mul_right hle hsize
  · intro hle
    refine ⟨p.head + p.rqes.length, Nat.mul_comm _ _,
      (Nat.mod_modEq _ _).symm, Nat.mul_le_mul_right _ hle⟩

/-- The four expressions agree exactly on requests that fit. -/
theorem placed_iff {p : Placement} {tbl : Nat → U64}
    (h : p.Coded tbl) : p.Right ↔ p.Fits := by
  constructor
  · rintro ⟨-, -, hothers, hrung⟩
    refine ⟨(rung_iff h).1 hrung, fun hnil => ?_⟩
    have hslot := hothers p.head (by simp [hnil])
    rw [h.va', if_pos hnil, Function.update_self] at hslot
    exact hslot.symm
  · rintro ⟨hend, hzero⟩
    -- inside the ring going on and going round are the same
    have hplace : ∀ i < p.rqes.length,
        (p.head + i) % p.maxCnt = p.head + i :=
      fun i hi => Nat.mod_eq_of_lt (by omega)
    refine ⟨fun i hi => ?_, fun i hi => ?_, fun k hk => ?_,
      (rung_iff h).2 hend⟩
    · have hne : p.rqes ≠ [] := List.ne_nil_of_length_pos (by omega)
      rw [h.va', if_neg hne, hplace i hi]
      exact storeFrom_get hi
    · have hmark := @markRound_get p.maxCnt p.head p.rqes.length _ 0
        p.wrId tbl i hi
      rw [Nat.zero_add] at hmark
      rw [h.tbl', hmark]
    · by_cases hnil : p.rqes = []
      · rw [h.va', if_pos hnil]
        by_cases hslot : k = p.head
        · rw [hslot, Function.update_self, hzero hnil]
        · exact Function.update_of_ne hslot _ _
      · rw [h.va', if_neg hnil]
        by_cases hbefore : k < p.head
        · exact storeFrom_before hbefore
        by_cases hbehind : p.head + p.rqes.length ≤ k
        · exact storeFrom_behind hbehind
        -- between the two it is one of the request's own slots
        refine absurd (mem_slots.2 ⟨k - p.head, by omega, ?_⟩) hk
        rw [hplace _ (by omega)]
        omega

-- =============================================================== the library

namespace User

/-- A turn, as a placement. -/
def placement (mrList : List MrSgInfo) (qp : Qp) (regs : Regs)
    (wr : RecvWr) : Placement :=
  let out := postRecvTurn mrList qp regs wr
  { maxCnt := qp.rq.maxCnt
    head := qp.rq.head
    wrId := wr.wrId
    rqes := wr.sgList.map (recvRqe mrList)
    va := qp.rqVa
    va' := out.2.1.rqVa
    tbl' := out.2.1.rqeWrIdTbl
    newHead := out.2.1.rq.head
    phyaddr := out.2.2.rqWp * sizeofRqe }

theorem placement_coded {mrList : List MrSgInfo} {qp : Qp} {regs : Regs}
    {wr : RecvWr} (hhead : qp.rq.head < qp.rq.maxCnt)
    (h : (postRecvTurn mrList qp regs wr).1 = 0) :
    (placement mrList qp regs wr).Coded qp.rqeWrIdTbl := by
  have hout := postRecvTurn_accepted h
  cases hlist : wr.sgList with
  | nil =>
      have hbuild : buildRqsges mrList qp wr
          = { qp with rqVa := Function.update qp.rqVa qp.rq.head .zero } :=
        if_pos hlist
      have hnone : wr.numSge = 0 := by simp [hlist]
      rw [hbuild, updateRqHead, if_pos hnone] at hout
      constructor
      · simp [placement, hout, hlist]
      · simp [placement, hout, hlist, markRound]
      · simp [placement, hout, hlist, Nat.mod_eq_of_lt hhead]
      · simp [placement, hout, hlist, ringRqHw]
  | cons sge sgList =>
      have hne : wr.sgList ≠ [] := by simp [hlist]
      have hbuild : buildRqsges mrList qp wr
          = buildRqsgesLoop mrList wr qp 0 wr.sgList := if_neg hne
      have hsome : wr.numSge ≠ 0 := by simp [hlist]
      rw [hbuild, buildRqsgesLoop_eq, updateRqHead, if_neg hsome] at hout
      constructor
      · simp [placement, hout, hne]
      · simp [placement, hout]
      · simp [placement, hout]
      · simp [placement, hout, ringRqHw]

end User

-- ================================================================ the driver

namespace Kernel

/-- `phyaddr` in `bxroce_ring_rq_hw`, which goes to the register. -/
def rqPhyaddr (qp : Qp) (wr : RecvWr) : Nat :=
  (qp.rq.head + wr.numSge) * sizeofRqe

/-- A turn, as a placement. The doorbell is rung with the entries built
and the head not yet moved. -/
def placement (qp : Qp) (hw : Doorbell) (wr : RecvWr) : Placement :=
  let out := postRecvTurn qp hw wr
  { maxCnt := qp.rq.maxCnt
    head := qp.rq.head
    wrId := wr.wrId
    rqes := wr.sgList.map recvRqe
    va := qp.rqVa
    va' := out.2.1.rqVa
    tbl' := out.2.1.rqeWrIdTbl
    newHead := out.2.1.rq.head
    phyaddr := rqPhyaddr (buildRqsges qp wr) wr }

theorem placement_coded {qp : Qp} {hw : Doorbell} {wr : RecvWr}
    (hsize : qp.rq.maxCnt = maxRqe) (hhead : qp.rq.head < qp.rq.maxCnt)
    (h : (postRecvTurn qp hw wr).1 = 0) :
    (placement qp hw wr).Coded qp.rqeWrIdTbl := by
  have hout := postRecvTurn_accepted h
  have hmask : ∀ x : Nat, x &&& (qp.rq.maxCnt - 1) = x % qp.rq.maxCnt := by
    intro x
    rw [hsize]
    exact Nat.and_two_pow_sub_one_eq_mod x 8
  cases hlist : wr.sgList with
  | nil =>
      have hbuild : buildRqsges qp wr
          = { qp with rqVa := Function.update qp.rqVa qp.rq.head .zero } :=
        if_pos hlist
      have hnone : wr.numSge = 0 := by simp [hlist]
      rw [hbuild, updateRqHead, if_pos hnone] at hout
      constructor
      · simp [placement, hout, hlist]
      · simp [placement, hout, hlist, markRound]
      · simp [placement, hout, hlist, Nat.mod_eq_of_lt hhead]
      · simp [placement, hbuild, hlist, rqPhyaddr]
  | cons sge sgList =>
      have hne : wr.sgList ≠ [] := by simp [hlist]
      have hbuild : buildRqsges qp wr
          = buildRqsgesLoop wr qp 0 wr.sgList := if_neg hne
      have hsome : wr.numSge ≠ 0 := by simp [hlist]
      rw [hbuild, buildRqsgesLoop_eq, updateRqHead, if_neg hsome] at hout
      constructor
      · simp [placement, hout, hne]
      · simp [placement, hout]
      · simp [placement, hout, hmask]
      · simp [placement, hbuild, buildRqsgesLoop_eq, rqPhyaddr]

end Kernel

-- ================================================================ both sides

/-- For every head, on both sides, an accepted receive is placed as it
should be exactly when it fits. -/
theorem recv_placed_iff (mrList : List User.MrSgInfo) (qp : User.Qp)
    (regs : User.Regs) (wr : User.RecvWr) (kqp : Kernel.Qp) (hw : Doorbell)
    (kwr : Kernel.RecvWr) :
    (qp.rq.head < qp.rq.maxCnt →
      (User.postRecvTurn mrList qp regs wr).1 = 0 →
      ((User.placement mrList qp regs wr).Right
        ↔ (User.placement mrList qp regs wr).Fits))
    ∧ (kqp.rq.maxCnt = Kernel.maxRqe → kqp.rq.head < kqp.rq.maxCnt →
      (Kernel.postRecvTurn kqp hw kwr).1 = 0 →
      ((Kernel.placement kqp hw kwr).Right
        ↔ (Kernel.placement kqp hw kwr).Fits)) := by
  constructor
  · intro hhead h
    exact placed_iff (User.placement_coded hhead h)
  · intro hsize hhead h
    exact placed_iff (Kernel.placement_coded hsize hhead h)

-- =========================================================== two receives

/-- A library queue pair of 256 receive entries, in RTR, its ring drained
up to `head`. -/
def drainedAt (head : Nat) : User.Qp :=
  let qp := User.createQp
    { User.CreateQp.connected with
      numRqeAllocated := 256, numRqe_pos := by decide }
  { qp with
    qpState := .rtr
    rq := { qp.rq with head := head, tail := head, qpFoe := .empty } }

/-- A receive of two elements. -/
def twoElements : User.RecvWr := ⟨7, [⟨0x1000, 64, 1⟩, ⟨0x2000, 64, 1⟩]⟩

/-- The second element of a receive at the last slot goes behind the
ring, and the register is rung for a place behind it. -/
theorem second_element_behind_ring :
    let out := User.postRecvTurn [] (drainedAt 255) ⟨0, 0, 0⟩ twoElements
    let p := User.placement [] (drainedAt 255) ⟨0, 0, 0⟩ twoElements
    out.1 = 0 ∧ out.2.1.rqVa 256 = ⟨0, 64, 0x80000000⟩
      ∧ out.2.1.rqVa 0 = .zero ∧ p.phyaddr = 257 * sizeofRqe
      ∧ ¬ p.Right := by
  intro out p
  refine ⟨by decide +kernel, by decide +kernel, by decide +kernel,
    by decide +kernel, fun h => ?_⟩
  -- slot 0 is the second element's
  have hslot := h.written 1 (by decide +kernel)
  revert hslot
  decide +kernel

/-- At the start of the ring it fits, on both sides. -/
theorem recv_placed_at_start :
    (User.placement [] (drainedAt 0) ⟨0, 0, 0⟩ twoElements).Right
      ∧ (Kernel.placement (Kernel.Sys.start Kernel.sampleQp .rtr).qp ⟨0, 0⟩
          Kernel.sampleRecv).Right := by
  have hboth := recv_placed_iff [] (drainedAt 0) ⟨0, 0, 0⟩ twoElements
    (Kernel.Sys.start Kernel.sampleQp .rtr).qp ⟨0, 0⟩ Kernel.sampleRecv
  constructor
  · refine (hboth.1 (by decide +kernel) (by decide +kernel)).2 ?_
    exact ⟨by decide +kernel, fun h => absurd h (List.cons_ne_nil _ _)⟩
  · refine (hboth.2 rfl (by decide +kernel) (by decide +kernel)).2 ?_
    exact ⟨by decide +kernel, fun h => absurd h (List.cons_ne_nil _ _)⟩

end BxRnic
