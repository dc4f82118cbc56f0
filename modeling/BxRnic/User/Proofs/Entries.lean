/-
What building the entries of one request does to the queue pair.

Of all the state that `bxroce_build_sges` and `bxroce_buildwrite_sges`
touch, the completion path reads two things later: the send queue's
head, and the id table. `Qp.Sends` says what these two have become and
leaves the rest of what building changes (ring memory, the translated
address, a MAC address taken from an address handle) existential; the
lemmas below give it for every routine of the send path, so that no
later proof unfolds one of them.
-/
import BxRnic.User.PostSend

namespace BxRnic.User

-- ============================================================ the frame

/-- `qp'` is `qp` with the given send queue and id table, up to ring
memory and the address data of requests. -/
def Qp.Sends (qp : Qp) (sq : HwqInfo) (tbl : Nat → WqeWrId)
    (qp' : Qp) : Prop :=
  ∃ (sqVa : Nat → Wqe) (rdmaAddr : U64) (addrtbl : QpAddrtbl)
      (mac : Vector U8 6),
    qp' = { qp with
      sqVa := sqVa, rdmaAddr := rdmaAddr, addrtbl := addrtbl,
      attr := { qp.attr with macAddr := mac },
      sq := sq, wqeWrIdTbl := tbl }

namespace Qp.Sends

variable {qp qp' qp'' : Qp} {sq sq' : HwqInfo} {tbl tbl' : Nat → WqeWrId}

theorem refl (qp : Qp) : qp.Sends qp.sq qp.wqeWrIdTbl qp :=
  ⟨_, _, _, _, rfl⟩

theorem trans (h : qp.Sends sq tbl qp') (h' : qp'.Sends sq' tbl' qp'') :
    qp.Sends sq' tbl' qp'' := by
  obtain ⟨_, _, _, _, rfl⟩ := h
  obtain ⟨_, _, _, _, rfl⟩ := h'
  exact ⟨_, _, _, _, rfl⟩

theorem putWqe (qp : Qp) (wqe : Wqe) :
    qp.Sends qp.sq qp.wqeWrIdTbl (qp.putWqe wqe) :=
  ⟨_, _, _, _, rfl⟩

theorem sq_eq (h : qp.Sends sq tbl qp') : qp'.sq = sq := by
  obtain ⟨_, _, _, _, rfl⟩ := h
  rfl

theorem tbl_eq (h : qp.Sends sq tbl qp') : qp'.wqeWrIdTbl = tbl := by
  obtain ⟨_, _, _, _, rfl⟩ := h
  rfl

theorem qpType_eq (h : qp.Sends sq tbl qp') : qp'.qpType = qp.qpType := by
  obtain ⟨_, _, _, _, rfl⟩ := h
  rfl

theorem isSignaled_eq (h : qp.Sends sq tbl qp') (wr : SendWr) :
    wr.isSignaled qp' = wr.isSignaled qp := by
  obtain ⟨_, _, _, _, rfl⟩ := h
  rfl

theorem inlineRefused_eq (h : qp.Sends sq tbl qp') (wr : SendWr) :
    wr.inlineRefused qp' = wr.inlineRefused qp := by
  obtain ⟨_, _, _, _, rfl⟩ := h
  rfl

end Qp.Sends

-- ========================================================= the id table

/-- `sq.head`, moved on `k` times. -/
def HwqInfo.advance (q : HwqInfo) : Nat → HwqInfo
  | 0 => q
  | k + 1 => (hwqIncHead q).advance k

/-- The id table after `k` entries of a request, from `sq.head` on. -/
def recordSlots (q : HwqInfo) (id : WqeWrId) (tbl : Nat → WqeWrId) :
    Nat → Nat → WqeWrId
  | 0 => tbl
  | k + 1 =>
      recordSlots (hwqIncHead q) id (Function.update tbl q.head id) k

/-- What the id table says about a request. -/
def SendWr.wqeWrId (wr : SendWr) (qp : Qp) : WqeWrId :=
  ⟨wr.wrId, wr.isSignaled qp⟩

-- ========================================================== the entries

variable {refused : QpType → SendWr → Bool}
variable {prepare : Qp → Wqe → SendWr → Int × Qp × Wqe}

/-- A `prepare` that succeeds, its entry put in place. -/
theorem sends_of_records (hp : Prepares refused prepare) {qp : Qp}
    {wr : SendWr} (wqe wqe' : Wqe) (hr : refused qp.qpType wr = false) :
    qp.Sends qp.sq
      (Function.update qp.wqeWrIdTbl qp.sq.head (wr.wqeWrId qp))
      ((prepare qp wqe wr).2.1.putWqe wqe') := by
  obtain ⟨-, mac, hqp⟩ := hp.records qp wqe wr hr
  rw [hqp]
  exact ⟨_, _, _, _, rfl⟩

/-- Building all entries of a request. -/
theorem buildSgesLoop_built (hp : Prepares refused prepare)
    {imm : WrOpcode} {mrList : List MrSgInfo} {wr : SendWr}
    {sgList : List Sge} : ∀ {qp : Qp} {i : Nat},
      refused qp.qpType wr = false →
      (buildSgesLoop imm prepare mrList wr qp i sgList).1 = 0
        ∧ qp.Sends (qp.sq.advance sgList.length)
            (recordSlots qp.sq (wr.wqeWrId qp) qp.wqeWrIdTbl
              sgList.length)
            (buildSgesLoop imm prepare mrList wr qp i sgList).2 := by
  induction sgList with
  | nil => exact fun _ => ⟨rfl, Qp.Sends.refl _⟩
  | cons sge sgList ih =>
      intro qp i hr
      unfold buildSgesLoop
      obtain ⟨hstatus, -⟩ :=
        hp.records qp (startWqe imm mrList qp wr i sge) wr hr
      simp only [hstatus, ne_eq, not_true_eq_false, if_false]
      generalize hwqe : ({ (prepare qp (startWqe imm mrList qp wr i sge)
        wr).2.2 with lkey := sge.lkey, dmalen := sge.length } : Wqe) = wqe
      have hone := sends_of_records hp
        (startWqe imm mrList qp wr i sge) wqe hr
      -- the queue pair the rest of the list starts from
      have hnext : qp.Sends (hwqIncHead qp.sq)
          (Function.update qp.wqeWrIdTbl qp.sq.head (wr.wqeWrId qp))
          ((prepare qp (startWqe imm mrList qp wr i sge)
            wr).2.1.putWqe wqe).incSqHead := by
        obtain ⟨_, _, _, _, heq⟩ := hone
        rw [heq]
        exact ⟨_, _, _, _, rfl⟩
      have hid : wr.wqeWrId (((prepare qp (startWqe imm mrList qp wr i sge)
          wr).2.1.putWqe wqe).incSqHead) = wr.wqeWrId qp := by
        unfold SendWr.wqeWrId
        rw [hnext.isSignaled_eq]
      obtain ⟨hrest, hsends⟩ := ih (i := i + 1)
        (by rw [hnext.qpType_eq]; exact hr)
      rw [hnext.sq_eq, hnext.tbl_eq, hid] at hsends
      exact ⟨hrest, hnext.trans hsends⟩

/-- A refused request stops at its first entry. -/
theorem buildSgesLoop_refused (hp : Prepares refused prepare)
    {imm : WrOpcode} {mrList : List MrSgInfo} {qp : Qp} {wr : SendWr}
    {i : Nat} {sgList : List Sge} (hr : refused qp.qpType wr = true)
    (hne : sgList ≠ []) :
    (buildSgesLoop imm prepare mrList wr qp i sgList).1 = EINVAL
      ∧ qp.Sends qp.sq qp.wqeWrIdTbl
          (buildSgesLoop imm prepare mrList wr qp i sgList).2 := by
  cases sgList with
  | nil => exact absurd rfl hne
  | cons sge sgList =>
      obtain ⟨hstatus, hqp⟩ :=
        hp.fails qp (startWqe imm mrList qp wr i sge) wr hr
      have hnz : EINVAL ≠ 0 := by decide
      unfold buildSgesLoop
      simp only [hstatus, hnz, ne_eq, not_false_eq_true, if_true, hqp]
      exact ⟨trivial, Qp.Sends.putWqe _ _⟩

-- ========================================================= one request

/-- The entries a request takes: one for each element, and one for
immediate data on its own. -/
def entriesOf (imm : WrOpcode) (wr : SendWr) : Nat :=
  if wr.sgList = [] ∧ wr.opcode = imm then 1 else wr.numSge

/-- `bxroce_build_sges` and `bxroce_buildwrite_sges` on a request that
is not refused. -/
theorem buildSgesWith_built (hp : Prepares refused prepare)
    (imm : WrOpcode) (mrList : List MrSgInfo) {qp : Qp} {wr : SendWr}
    (hr : refused qp.qpType wr = false) :
    (buildSgesWith imm prepare mrList qp wr).1 = 0
      ∧ qp.Sends (qp.sq.advance (entriesOf imm wr))
          (recordSlots qp.sq (wr.wqeWrId qp) qp.wqeWrIdTbl
            (entriesOf imm wr))
          (buildSgesWith imm prepare mrList qp wr).2 := by
  unfold buildSgesWith entriesOf
  by_cases himm : wr.sgList = [] ∧ wr.opcode = imm
  · simp only [if_pos himm]
    obtain ⟨hstatus, -⟩ :=
      hp.records qp (qp.sqVa qp.sq.head) wr hr
    refine ⟨hstatus, ?_⟩
    obtain ⟨_, _, _, _, heq⟩ := sends_of_records hp
      (qp.sqVa qp.sq.head) (prepare qp (qp.sqVa qp.sq.head) wr).2.2 hr
    rw [heq]
    exact ⟨_, _, _, _, rfl⟩
  · simp only [if_neg himm]
    exact buildSgesLoop_built hp hr

/-- The same on a refused request that would have taken an entry: the
head moves on only when the entry was for immediate data. -/
theorem buildSgesWith_refused (hp : Prepares refused prepare)
    {imm : WrOpcode} (mrList : List MrSgInfo) {qp : Qp} {wr : SendWr}
    (hr : refused qp.qpType wr = true) (htakes : entriesOf imm wr ≠ 0) :
    (buildSgesWith imm prepare mrList qp wr).1 = EINVAL
      ∧ qp.Sends
          (if wr.sgList = [] then hwqIncHead qp.sq else qp.sq)
          qp.wqeWrIdTbl (buildSgesWith imm prepare mrList qp wr).2 := by
  unfold buildSgesWith
  unfold entriesOf at htakes
  by_cases himm : wr.sgList = [] ∧ wr.opcode = imm
  · simp only [if_pos himm, if_pos himm.1]
    obtain ⟨hstatus, hqp⟩ := hp.fails qp (qp.sqVa qp.sq.head) wr hr
    rw [hqp]
    exact ⟨hstatus, ⟨_, _, _, _, rfl⟩⟩
  · rw [if_neg himm] at htakes
    have hne : wr.sgList ≠ [] := fun h => htakes (by rw [SendWr.numSge, h]; rfl)
    simp only [if_neg himm, if_neg hne]
    exact buildSgesLoop_refused hp hr hne

/-- A request without entries is built without being looked at. -/
theorem buildSgesWith_none {imm : WrOpcode} {mrList : List MrSgInfo}
    {qp : Qp} {wr : SendWr} (htakes : entriesOf imm wr = 0) :
    buildSgesWith imm prepare mrList qp wr = (0, qp) := by
  unfold entriesOf at htakes
  unfold buildSgesWith
  by_cases himm : wr.sgList = [] ∧ wr.opcode = imm
  · rw [if_pos himm] at htakes
    cases htakes
  · rw [if_neg himm] at htakes ⊢
    rw [List.eq_nil_of_length_eq_zero htakes]
    rfl

end BxRnic.User
