/-
What building a request does to the driver's rings: which slots are
written, and where the head goes.

Every way through `bxroce_build_*` comes down to writing the entry at
the head (`Qp.putWqe`), moving the head on (`Qp.incSqHead`) and storing
ids. `Builds` is what they have in common; the lemmas follow the
functions from the entry up to the `switch` on the opcode.
-/
import BxRnic.Kernel.PostRecv

namespace BxRnic.Kernel

-- ============================================================ send entries

/-- At most `w` entries were built, on the send ring alone: from the head
on, which has moved on over some of them. -/
structure Builds (w : Nat) (qp qp' : Qp) : Prop where
  moved : ∃ k ≤ w,
    qp'.sq = { qp.sq with head := (qp.sq.head + k) % qp.sq.maxCnt }
      ∧ (qp'.overhead = true →
        qp.overhead = true ∨ qp.sq.maxCnt ≤ qp.sq.head + k)
  kept : ∀ i, (∀ m < w, (qp.sq.head + m) % qp.sq.maxCnt ≠ i) →
    qp'.sqVa i = qp.sqVa i
  rq : qp'.rq = qp.rq
  rqVa : qp'.rqVa = qp.rqVa

/-- The head is a slot of the ring. -/
def Qp.HeadIn (qp : Qp) : Prop := qp.sq.head < qp.sq.maxCnt

theorem Qp.HeadIn.ids {qp : Qp} (hin : qp.HeadIn) (tbl : Nat → WqeWrId) :
    Qp.HeadIn { qp with wqeWrIdTbl := tbl } :=
  hin

theorem Qp.HeadIn.put {qp : Qp} (hin : qp.HeadIn) (wqe : Wqe) :
    (qp.putWqe wqe).HeadIn :=
  hin

namespace Builds

variable {w : Nat} {qp qp' : Qp} {wqe : Wqe}

/-- Nothing was built. -/
theorem refl (hin : qp.HeadIn) : Builds w qp qp where
  moved := by
    refine ⟨0, Nat.zero_le w, ?_, Or.inl⟩
    rw [Nat.add_zero, Nat.mod_eq_of_lt hin]
  kept _ _ := rfl
  rq := rfl
  rqVa := rfl

theorem mono {v : Nat} (h : Builds v qp qp') (hvw : v ≤ w) :
    Builds w qp qp' where
  moved := by
    obtain ⟨k, hk, hsq, hover⟩ := h.moved
    exact ⟨k, Nat.le_trans hk hvw, hsq, hover⟩
  kept i hi := h.kept i fun m hm => hi m (Nat.lt_of_lt_of_le hm hvw)
  rq := h.rq
  rqVa := h.rqVa

/-- The ids do not matter. -/
theorem withIds {tbl : Nat → WqeWrId}
    (h : Builds w { qp with wqeWrIdTbl := tbl } qp') : Builds w qp qp' :=
  ⟨h.moved, h.kept, h.rq, h.rqVa⟩

theorem headIn (h : Builds w qp qp') (hin : qp.HeadIn) : qp'.HeadIn := by
  obtain ⟨k, -, hsq, -⟩ := h.moved
  unfold Qp.HeadIn
  rw [hsq]
  exact Nat.mod_lt _ (Nat.zero_lt_of_lt hin)

/-- The entry at the head was written, and then others from there on. -/
theorem afterPut (hin : qp.HeadIn) (hw : 0 < w)
    (h : Builds w (qp.putWqe wqe) qp') : Builds w qp qp' where
  moved := h.moved
  kept i hi := by
    have hhead := hi 0 hw
    rw [Nat.add_zero, Nat.mod_eq_of_lt hin] at hhead
    rw [h.kept i hi]
    exact Function.update_of_ne (Ne.symm hhead) _ _
  rq := h.rq
  rqVa := h.rqVa

/-- The entry at the head was written. -/
theorem put (hin : qp.HeadIn) (hw : 0 < w) (wqe : Wqe) :
    Builds w qp (qp.putWqe wqe) :=
  afterPut hin hw (refl hin)

/-- The head has moved on by one. -/
theorem inc : Builds 1 qp qp.incSqHead where
  moved := by
    refine ⟨1, Nat.le_refl 1, rfl, ?_⟩
    intro hover
    rcases (Bool.or_eq_true _ _).mp hover with hbefore | hend
    · exact Or.inl hbefore
    · exact Or.inr (Nat.le_of_eq (of_decide_eq_true hend).symm)
  kept _ _ := rfl
  rq := rfl
  rqVa := rfl

/-- An entry was built. -/
theorem entry (hin : qp.HeadIn) (wqe : Wqe) :
    Builds 1 qp (qp.putWqe wqe).incSqHead :=
  afterPut hin Nat.one_pos inc

/-- Entries were built behind each other. -/
theorem trans {a b : Nat} {qp'' : Qp} (h : Builds a qp qp')
    (h' : Builds b qp' qp'') : Builds (a + b) qp qp'' := by
  obtain ⟨k, hk, hsq, hover⟩ := h.moved
  obtain ⟨k', hk', hsq', hover'⟩ := h'.moved
  have hmax : qp'.sq.maxCnt = qp.sq.maxCnt := by rw [hsq]
  have hhead : qp'.sq.head = (qp.sq.head + k) % qp.sq.maxCnt := by
    rw [hsq]
  refine ⟨⟨k + k', Nat.add_le_add hk hk', ?_, ?_⟩, ?_, ?_, ?_⟩
  · rw [hsq', hhead, hmax, Nat.mod_add_mod, Nat.add_assoc, hsq]
  · intro hend
    rcases hover' hend with hbefore | hwrap
    · rcases hover hbefore with hbefore' | hwrap
      · exact Or.inl hbefore'
      · exact Or.inr (by omega)
    · have hle := Nat.mod_le (qp.sq.head + k) qp.sq.maxCnt
      rw [hmax, hhead] at hwrap
      exact Or.inr (by omega)
  · intro i hi
    rw [h'.kept i ?_, h.kept i fun m hm => hi m (by omega)]
    intro m hm
    rw [hhead, hmax, Nat.mod_add_mod, Nat.add_assoc]
    exact hi (k + m) (by omega)
  · rw [h'.rq, h.rq]
  · rw [h'.rqVa, h.rqVa]

end Builds

-- ================================================================ the loops

theorem buildSgesLoop_builds {prepare : Qp → Wqe → SendWr → Int × Qp × Wqe}
    (hprepare : TouchesIds prepare) (wr : SendWr) (sgList : List Sge) :
    ∀ {qp : Qp}, qp.HeadIn →
      Builds sgList.length qp (buildSgesLoop prepare wr qp sgList).2 := by
  induction sgList with
  | nil => exact fun hin => Builds.refl hin
  | cons sge sgList ih =>
      intro qp hin
      obtain ⟨tbl, hqp⟩ := hprepare qp .zero wr
      rw [buildSgesLoop]
      simp only [hqp, List.length_cons]
      split
      · exact (Builds.put (hin.ids tbl) (Nat.succ_pos _) _).withIds
      · rw [Nat.add_comm]
        have hentry := Builds.withIds (Builds.entry (hin.ids tbl)
          { (prepare qp .zero wr).2.2 with
            lkey := sge.lkey, localaddr := sge.addr
            dmalen := sge.length })
        exact hentry.trans (ih (hentry.headIn hin))

/-- How many entries a request may need. -/
def SendWr.width (wr : SendWr) : Nat := max 1 wr.numSge

theorem SendWr.width_pos (wr : SendWr) : 0 < wr.width :=
  Nat.le_max_left 1 _

theorem buildSgesWith_builds (imm : WrOpcode)
    {prepare : Qp → Wqe → SendWr → Int × Qp × Wqe}
    (hprepare : TouchesIds prepare) {qp : Qp} (hin : qp.HeadIn)
    (wr : SendWr) :
    Builds wr.width qp (buildSgesWith imm prepare qp wr).2 := by
  unfold buildSgesWith
  split
  · obtain ⟨tbl, hqp⟩ := hprepare qp (qp.sqVa qp.sq.head) wr
    simp only [hqp]
    exact (Builds.entry (hin.ids tbl) _).withIds.mono (Nat.le_max_left 1 _)
  · exact (buildSgesLoop_builds hprepare wr wr.sgList hin).mono
      (Nat.le_max_right 1 _)

theorem buildInlineSges_builds {qp : Qp} (hin : qp.HeadIn)
    (wr : SendWr) : Builds wr.width qp (buildInlineSges qp wr).2 := by
  unfold buildInlineSges
  split
  · exact Builds.put hin wr.width_pos _
  · exact buildSgesWith_builds _ prepareSendWqe_touchesIds hin wr

theorem buildwriteInlineSges_builds {qp : Qp} (hin : qp.HeadIn)
    (wr : SendWr) : Builds wr.width qp (buildwriteInlineSges qp wr).2 := by
  unfold buildwriteInlineSges
  split
  · exact Builds.put hin wr.width_pos _
  · exact buildSgesWith_builds _ prepareWriteWqe_touchesIds hin wr

/-- The whole of a request. -/
theorem buildWr_builds {qp : Qp} (hin : qp.HeadIn) (wr : SendWr) :
    Builds wr.width qp (buildWr qp wr).2 := by
  have hpos := wr.width_pos
  unfold buildWr
  cases wr.opcode with
  | sendWithImm =>
      exact (buildInlineSges_builds (hin.put _) wr).afterPut hin hpos
  | send => exact buildInlineSges_builds hin wr
  | sendWithInv =>
      exact (buildInlineSges_builds (hin.put _) wr).afterPut hin hpos
  | rdmaWriteWithImm =>
      exact (buildwriteInlineSges_builds (hin.put _) wr).afterPut hin
        hpos
  | rdmaWrite => exact buildwriteInlineSges_builds hin wr
  | rdmaRead => exact buildwriteInlineSges_builds hin wr
  | localInv => exact Builds.put hin hpos _
  | regMr => exact Builds.refl hin
  | other => exact Builds.refl hin

/-- A request the doorbell is not rung for has not moved the head over
the end of the ring. -/
theorem buildWr_overhead {qp : Qp} {wr : SendWr}
    (hnone : wr.numSge = 0 ∧ wr.opcode ≠ .rdmaWriteWithImm
      ∧ wr.opcode ≠ .sendWithImm) :
    (buildWr qp wr).2.overhead = qp.overhead := by
  obtain ⟨hlength, hwrite, hsend⟩ := hnone
  have hnil : wr.sgList = [] := List.length_eq_zero_iff.1 hlength
  have hinline (qp : Qp) :
      (buildInlineSges qp wr).2.overhead = qp.overhead := by
    unfold buildInlineSges buildSges buildSgesWith
    split
    · rfl
    · rw [if_neg fun h => hsend h.2, hnil]
      rfl
  have hwriteInline (qp : Qp) :
      (buildwriteInlineSges qp wr).2.overhead = qp.overhead := by
    unfold buildwriteInlineSges buildwriteSges buildSgesWith
    split
    · rfl
    · rw [if_neg fun h => hwrite h.2, hnil]
      rfl
  unfold buildWr
  cases hopcode : wr.opcode with
  | sendWithImm => exact absurd hopcode hsend
  | send => exact hinline qp
  | sendWithInv => exact hinline _
  | rdmaWriteWithImm => exact absurd hopcode hwrite
  | rdmaWrite => exact hwriteInline qp
  | rdmaRead => exact hwriteInline qp
  | localInv => rfl
  | regMr => rfl
  | other => rfl

-- ========================================================= receive entries

/-- The entries of a receive, built: they are on the receive ring, from
the head on. -/
structure RecvBuilds (w : Nat) (qp qp' : Qp) : Prop where
  rq : qp'.rq = qp.rq
  kept : ∀ i, (∀ m < w, qp.rq.head + m ≠ i) → qp'.rqVa i = qp.rqVa i
  sq : qp'.sq = qp.sq
  sqVa : qp'.sqVa = qp.sqVa
  overhead : qp'.overhead = qp.overhead

theorem buildRqsgesLoop_builds (wr : RecvWr) (sgList : List Sge) :
    ∀ (qp : Qp) (i : Nat),
      RecvBuilds (i + sgList.length) qp (buildRqsgesLoop wr qp i sgList) := by
  induction sgList with
  | nil => exact fun qp i => ⟨rfl, fun _ _ => rfl, rfl, rfl, rfl⟩
  | cons sge sgList ih =>
      intro qp i
      rw [buildRqsgesLoop, List.length_cons]
      have hrest := ih
        { qp with
          rqVa := Function.update qp.rqVa (qp.rq.head + i) (recvRqe sge)
          rqeWrIdTbl := Function.update qp.rqeWrIdTbl
            ((qp.rq.head + i) % qp.rq.maxCnt) wr.wrId } (i + 1)
      refine ⟨hrest.rq, fun j hj => ?_, hrest.sq, hrest.sqVa,
        hrest.overhead⟩
      rw [hrest.kept j fun m hm => hj m (by omega)]
      exact Function.update_of_ne (Ne.symm (hj i (by omega))) _ _

theorem buildRqsges_builds (qp : Qp) (wr : RecvWr) :
    RecvBuilds (max 1 wr.numSge) qp (buildRqsges qp wr) := by
  unfold buildRqsges
  split
  · refine ⟨rfl, fun i hi => ?_, rfl, rfl, rfl⟩
    exact Function.update_of_ne
      (Ne.symm (hi 0 (Nat.le_max_left 1 _))) _ _
  · have hloop := buildRqsgesLoop_builds wr wr.sgList qp 0
    rw [Nat.zero_add] at hloop
    exact ⟨hloop.rq,
      fun i hi => hloop.kept i fun m hm =>
        hi m (Nat.lt_of_lt_of_le hm (Nat.le_max_right 1 _)),
      hloop.sq, hloop.sqVa, hloop.overhead⟩

end BxRnic.Kernel
