/-
What building a request of the driver comes to: its status, where the
head goes, and what the first entry holds besides the header.

Whether the entries can be built is up to the type of the queue pair and
the opcode (`opcodeRefused`). A request with elements stops in front of
its first entry when they cannot; immediate data on its own is moved past
all the same.
-/
import BxRnic.Kernel.Proofs.Entries
import BxRnic.Lib.Ring

namespace BxRnic.Kernel

open Word SlotRing

-- ================================================================ refusals

/-- The refusals of `bxroce_build_wqe_opcode`. -/
def opcodeRefused (qpType : QpType) (opcode : WrOpcode) : Bool :=
  match transportCode qpType, operationCode opcode with
  | some qpType, some opcode => codesRefused qpType opcode
  | _, _ => true

theorem buildWqeOpcode_status (qp : Qp) (wqe : Wqe) (wr : SendWr) :
    (buildWqeOpcode qp wqe wr).1
      = if opcodeRefused qp.qpType wr.opcode then -EINVAL else 0 := by
  unfold buildWqeOpcode opcodeRefused
  cases transportCode qp.qpType with
  | none => rfl
  | some t =>
      cases operationCode wr.opcode with
      | none => rfl
      | some op =>
          dsimp only
          split
          · rfl
          · rfl

theorem buildWqeOpcode_body (qp : Qp) (wqe : Wqe) (wr : SendWr) :
    (buildWqeOpcode qp wqe wr).2.body = wqe.body := by
  unfold buildWqeOpcode
  split
  · split
    · rfl
    · rfl
  · rfl

/-- What the two `prepare` functions have in common: they fail on the
refused requests, touch the id table alone, and leave the body of the
entry. -/
structure Prepares (prepare : Qp → Wqe → SendWr → Int × Qp × Wqe) :
    Prop where
  status : ∀ (qp : Qp) (wqe : Wqe) (wr : SendWr),
    (prepare qp wqe wr).1
      = if opcodeRefused qp.qpType wr.opcode then -EINVAL else 0
  ids : TouchesIds prepare
  body : ∀ (qp : Qp) (wqe : Wqe) (wr : SendWr),
    (prepare qp wqe wr).2.2.body = wqe.body

/-- The entry with the number of the peer's queue pair, if there is
one. -/
private theorem destqp_body (qp : Qp) (wqe : Wqe) :
    (if qp.attr.destqp ≠ 0 then setRcwqeDestqp qp wqe else wqe).body
      = wqe.body := by
  split
  · rfl
  · rfl

private theorem einval_ne_zero : -EINVAL ≠ 0 := by decide

theorem prepareSendWqe_prepares : Prepares prepareSendWqe where
  ids := prepareSendWqe_touchesIds
  status qp wqe wr := by
    unfold prepareSendWqe
    generalize (if qp.qpType = .ud ∨ qp.qpType = .gsi then _ else _ : Wqe)
      = wqe
    have hstatus := buildWqeOpcode_status qp wqe wr
    by_cases hzero : (buildWqeOpcode qp wqe wr).1 = 0
    · simp only [hzero, ne_eq, not_true_eq_false, if_false] at hstatus ⊢
      exact hstatus
    · simp only [if_pos hzero]
      exact hstatus
  body qp wqe wr := by
    have hstart : (if qp.qpType = QpType.ud ∨ qp.qpType = QpType.gsi then
        { setWqeDestqp wr wqe with
          qkey :=
            if qp.qpType = QpType.gsi then qp.attr.qkey
            else wr.remoteQkey }
        else { wqe with qkey := qp.attr.qkey }).body = wqe.body := by
      split
      · rfl
      · rfl
    unfold prepareSendWqe
    dsimp only
    rw [← hstart]
    generalize (if qp.qpType = .ud ∨ qp.qpType = .gsi then _ else _ : Wqe)
      = wqe
    have hbody := buildWqeOpcode_body qp wqe wr
    split
    · exact hbody
    · exact (destqp_body qp _).trans hbody

theorem prepareWriteWqe_prepares : Prepares prepareWriteWqe where
  ids := prepareWriteWqe_touchesIds
  status qp wqe wr := by
    unfold prepareWriteWqe
    have hstatus := buildWqeOpcode_status qp wqe wr
    by_cases hzero : (buildWqeOpcode qp wqe wr).1 = 0
    · simp only [hzero, ne_eq, not_true_eq_false, if_false] at hstatus ⊢
      exact hstatus
    · simp only [if_pos hzero]
      rw [hstatus] at hzero
      rw [if_pos]
      by_contra hno
      exact hzero (if_neg hno)
  body qp wqe wr := by
    have hbody := buildWqeOpcode_body qp wqe wr
    unfold prepareWriteWqe
    dsimp only
    split
    · exact hbody
    · exact (destqp_body qp _).trans hbody

/-- A request that is not refused is recorded at the head. -/
def Records (prepare : Qp → Wqe → SendWr → Int × Qp × Wqe) : Prop :=
  ∀ (qp : Qp) (wqe : Wqe) (wr : SendWr),
    opcodeRefused qp.qpType wr.opcode = false →
    (prepare qp wqe wr).2.1 = recordWrId qp wr

theorem prepareSendWqe_records : Records prepareSendWqe := by
  intro qp wqe wr hr
  unfold prepareSendWqe
  generalize (if qp.qpType = .ud ∨ qp.qpType = .gsi then _ else _ : Wqe)
    = wqe
  have hstatus := buildWqeOpcode_status qp wqe wr
  rw [hr, if_neg Bool.false_ne_true] at hstatus
  simp only [hstatus, ne_eq, not_true_eq_false, if_false]

theorem prepareWriteWqe_records : Records prepareWriteWqe := by
  intro qp wqe wr hr
  unfold prepareWriteWqe
  have hstatus := buildWqeOpcode_status qp wqe wr
  rw [hr, if_neg Bool.false_ne_true] at hstatus
  simp only [hstatus, ne_eq, not_true_eq_false, if_false]

/-- The id that is recorded. -/
def SendWr.wqeWrId (wr : SendWr) (qp : Qp) : WqeWrId :=
  ⟨wr.wrId, wr.sendSignaled || decide (qp.attr.signaled ≠ 0)⟩

/-- The element of the entry in a slot of the send ring. -/
def Qp.segment (qp : Qp) (slot : Nat) : Sge :=
  ⟨(qp.sqVa slot).localaddr, (qp.sqVa slot).dmalen, (qp.sqVa slot).lkey⟩

theorem segment_putWqe (qp : Qp) (wqe : Wqe) :
    (qp.putWqe wqe).segment
      = Function.update qp.segment qp.sq.head
          ⟨wqe.localaddr, wqe.dmalen, wqe.lkey⟩ := by
  funext slot
  unfold Qp.segment Qp.putWqe
  by_cases hslot : slot = qp.sq.head
  · simp only [hslot, Function.update_self]
  · simp only [Function.update_of_ne hslot]

-- ================================================================ the loops

section Build

variable {prepare : Qp → Wqe → SendWr → Int × Qp × Wqe}

/-- The entry of an element, put in place, and the head moved on. -/
private def entered (prepare : Qp → Wqe → SendWr → Int × Qp × Wqe)
    (qp : Qp) (wr : SendWr) (sge : Sge) : Qp :=
  ((prepare qp .zero wr).2.1.putWqe
    { (prepare qp .zero wr).2.2 with
      lkey := sge.lkey, localaddr := sge.addr
      dmalen := sge.length }).incSqHead

/-- A list that is refused stops at its first element. -/
theorem buildSgesLoop_refused (hp : Prepares prepare) {qp : Qp}
    {wr : SendWr} (hr : opcodeRefused qp.qpType wr.opcode = true)
    (sge : Sge) (sgList : List Sge) :
    (buildSgesLoop prepare wr qp (sge :: sgList)).1 = -EINVAL
      ∧ (buildSgesLoop prepare wr qp (sge :: sgList)).2.sq = qp.sq := by
  have hstatus := hp.status qp .zero wr
  obtain ⟨tbl, hqp⟩ := hp.ids qp .zero wr
  rw [if_pos hr] at hstatus
  unfold buildSgesLoop
  simp only [hstatus, if_pos einval_ne_zero, hqp]
  exact ⟨trivial, rfl⟩

/-- A list that is not refused goes on behind its first element. -/
theorem buildSgesLoop_cons (hp : Prepares prepare) {qp : Qp}
    {wr : SendWr} (hr : opcodeRefused qp.qpType wr.opcode = false)
    (sge : Sge) (sgList : List Sge) :
    buildSgesLoop prepare wr qp (sge :: sgList)
      = buildSgesLoop prepare wr (entered prepare qp wr sge) sgList := by
  have hstatus := hp.status qp .zero wr
  rw [hr, if_neg Bool.false_ne_true] at hstatus
  rw [buildSgesLoop]
  simp only [hstatus, ne_eq, not_true_eq_false, if_false]
  rfl

private theorem entered_eq (hp : Prepares prepare) (qp : Qp) (wr : SendWr)
    (sge : Sge) :
    ∃ tbl, entered prepare qp wr sge
      = (Qp.putWqe { qp with wqeWrIdTbl := tbl }
          { (prepare qp .zero wr).2.2 with
            lkey := sge.lkey, localaddr := sge.addr
            dmalen := sge.length }).incSqHead := by
  obtain ⟨tbl, hqp⟩ := hp.ids qp .zero wr
  exact ⟨tbl, by unfold entered; rw [hqp]⟩

/-- A list that is not refused is built, and the head moves over it. -/
theorem buildSgesLoop_built (hp : Prepares prepare) {wr : SendWr}
    {sgList : List Sge} : ∀ {qp : Qp}, qp.HeadIn →
      opcodeRefused qp.qpType wr.opcode = false →
      (buildSgesLoop prepare wr qp sgList).1 = 0
        ∧ (buildSgesLoop prepare wr qp sgList).2.sq
          = { qp.sq with
              head := (qp.sq.head + sgList.length) % qp.sq.maxCnt } := by
  induction sgList with
  | nil =>
      intro qp hin _
      refine ⟨rfl, ?_⟩
      show qp.sq = { qp.sq with head := (qp.sq.head + 0) % qp.sq.maxCnt }
      rw [Nat.add_zero, Nat.mod_eq_of_lt hin]
  | cons sge sgList ih =>
      intro qp hin hr
      obtain ⟨tbl, heq⟩ := entered_eq hp qp wr sge
      rw [buildSgesLoop_cons hp hr, heq]
      generalize ({ (prepare qp .zero wr).2.2 with
        lkey := sge.lkey, localaddr := sge.addr
        dmalen := sge.length } : Wqe) = wqe
      obtain ⟨hstatus, hsq⟩ := @ih
        (Qp.putWqe { qp with wqeWrIdTbl := tbl } wqe).incSqHead
        (Nat.mod_lt _ (Nat.zero_lt_of_lt hin)) hr
      refine ⟨hstatus, hsq.trans ?_⟩
      show ({ qp.sq with
          head := ((qp.sq.head + 1) % qp.sq.maxCnt + sgList.length)
            % qp.sq.maxCnt } : HwqInfo) = _
      rw [Nat.mod_add_mod, List.length_cons, Nat.add_assoc,
        Nat.add_comm 1]

/-- The first entry holds the first element, and no immediate data. -/
theorem buildSgesLoop_first (hp : Prepares prepare) {qp : Qp}
    {wr : SendWr} (hin : qp.HeadIn)
    (hr : opcodeRefused qp.qpType wr.opcode = false) (sge : Sge)
    {sgList : List Sge} (hfit : sgList.length < qp.sq.maxCnt) :
    ((buildSgesLoop prepare wr qp (sge :: sgList)).2.sqVa
        qp.sq.head).body
      = ⟨0, sge.lkey, sge.length, sge.addr⟩ := by
  obtain ⟨tbl, heq⟩ := entered_eq hp qp wr sge
  have hbody := hp.body qp .zero wr
  rw [buildSgesLoop_cons hp hr, heq]
  -- what comes behind it is built elsewhere
  have hrest := @buildSgesLoop_builds prepare hp.ids wr sgList
    (Qp.putWqe { qp with wqeWrIdTbl := tbl }
      { (prepare qp .zero wr).2.2 with
        lkey := sge.lkey, localaddr := sge.addr
        dmalen := sge.length }).incSqHead
    (Nat.mod_lt _ (Nat.zero_lt_of_lt hin))
  have happart : ∀ m < sgList.length,
      ((qp.sq.head + 1) % qp.sq.maxCnt + m) % qp.sq.maxCnt
        ≠ qp.sq.head := by
    intro m hm heq'
    rw [SlotRing.next_pop] at heq'
    have hcases := SlotRing.next_cases (k := m + 1) hin (by omega)
    omega
  rw [hrest.kept qp.sq.head happart]
  show (Function.update qp.sqVa qp.sq.head _ qp.sq.head).body = _
  rw [Function.update_self]
  simp only [Wqe.body, Wqe.zero, WqeBody.mk.injEq] at hbody ⊢
  exact ⟨hbody.1, trivial, trivial, trivial⟩

/-- A list that is not refused is stored round the ring, with its id at
each of its slots. -/
theorem buildSgesLoop_stored (hp : Prepares prepare)
    (hrecords : Records prepare) {wr : SendWr} {sgList : List Sge} :
    ∀ {qp : Qp}, opcodeRefused qp.qpType wr.opcode = false →
      (buildSgesLoop prepare wr qp sgList).2.segment
          = storeRound qp.sq.maxCnt qp.segment qp.sq.head sgList
        ∧ (buildSgesLoop prepare wr qp sgList).2.wqeWrIdTbl
          = storeRound qp.sq.maxCnt qp.wqeWrIdTbl qp.sq.head
              (List.replicate sgList.length (wr.wqeWrId qp)) := by
  induction sgList with
  | nil => exact fun _ => ⟨rfl, rfl⟩
  | cons sge sgList ih =>
      intro qp hr
      have heq : entered prepare qp wr sge
          = ((recordWrId qp wr).putWqe
              { (prepare qp .zero wr).2.2 with
                lkey := sge.lkey, localaddr := sge.addr
                dmalen := sge.length }).incSqHead := by
        unfold entered
        rw [hrecords qp .zero wr hr]
      rw [buildSgesLoop_cons hp hr, heq]
      generalize hwqe : ({ (prepare qp .zero wr).2.2 with
        lkey := sge.lkey, localaddr := sge.addr
        dmalen := sge.length } : Wqe) = wqe
      have hsegment : (⟨wqe.localaddr, wqe.dmalen, wqe.lkey⟩ : Sge)
          = sge := by
        rw [← hwqe]
      obtain ⟨hmem, htbl⟩ :=
        @ih ((recordWrId qp wr).putWqe wqe).incSqHead hr
      refine ⟨hmem.trans ?_, htbl⟩
      show storeRound qp.sq.maxCnt ((recordWrId qp wr).putWqe wqe).segment
        _ sgList = _
      rw [segment_putWqe, hsegment]
      rfl

-- ============================================================ one request

/-- The queue, its head moved on over `k` entries. -/
def HwqInfo.advance (q : HwqInfo) (k : Nat) : HwqInfo :=
  { q with head := (q.head + k) % q.maxCnt }

/-- A request without elements or immediate data is built without being
looked at. -/
theorem buildSgesWith_none {imm : WrOpcode} {qp : Qp} {wr : SendWr}
    (hnil : wr.sgList = []) (himm : wr.opcode ≠ imm) :
    buildSgesWith imm prepare qp wr = (0, qp) := by
  unfold buildSgesWith
  rw [if_neg fun h => himm h.2, hnil]
  rfl

/-- Immediate data on its own moves the head, whatever `prepare` says,
and leaves the body of the entry. -/
theorem buildSgesWith_bare (hp : Prepares prepare) {imm : WrOpcode}
    {wr : SendWr} (hnil : wr.sgList = []) (himm : wr.opcode = imm)
    (qp : Qp) :
    (buildSgesWith imm prepare qp wr).1
        = (if opcodeRefused qp.qpType wr.opcode then -EINVAL else 0)
      ∧ (buildSgesWith imm prepare qp wr).2.sq = qp.sq.advance 1
      ∧ ((buildSgesWith imm prepare qp wr).2.sqVa qp.sq.head).body
        = (qp.sqVa qp.sq.head).body := by
  have hstatus := hp.status qp (qp.sqVa qp.sq.head) wr
  have hbody := hp.body qp (qp.sqVa qp.sq.head) wr
  obtain ⟨tbl, hqp⟩ := hp.ids qp (qp.sqVa qp.sq.head) wr
  unfold buildSgesWith
  rw [if_pos ⟨hnil, himm⟩]
  dsimp only
  rw [hqp]
  refine ⟨hstatus, rfl, ?_⟩
  rw [← hbody]
  exact congrArg Wqe.body (Function.update_self _ _ _)

/-- Elements that are refused. -/
theorem buildSgesWith_refused (hp : Prepares prepare) (imm : WrOpcode)
    {wr : SendWr} {qp : Qp} (hne : wr.sgList ≠ [])
    (hr : opcodeRefused qp.qpType wr.opcode = true) :
    (buildSgesWith imm prepare qp wr).1 = -EINVAL
      ∧ (buildSgesWith imm prepare qp wr).2.sq = qp.sq := by
  unfold buildSgesWith
  rw [if_neg fun h => hne h.1]
  cases hlist : wr.sgList with
  | nil => exact absurd hlist hne
  | cons sge sgList => exact buildSgesLoop_refused hp hr sge sgList

/-- Elements that are built. -/
theorem buildSgesWith_built (hp : Prepares prepare) (imm : WrOpcode)
    {wr : SendWr} {qp : Qp} (hin : qp.HeadIn) {sge : Sge}
    {sgList : List Sge} (hlist : wr.sgList = sge :: sgList)
    (hfit : sgList.length < qp.sq.maxCnt)
    (hr : opcodeRefused qp.qpType wr.opcode = false) :
    (buildSgesWith imm prepare qp wr).1 = 0
      ∧ (buildSgesWith imm prepare qp wr).2.sq = qp.sq.advance wr.numSge
      ∧ ((buildSgesWith imm prepare qp wr).2.sqVa qp.sq.head).body
        = ⟨0, sge.lkey, sge.length, sge.addr⟩ := by
  unfold buildSgesWith SendWr.numSge
  rw [if_neg (by simp [hlist]), hlist]
  obtain ⟨hstatus, hsq⟩ :=
    @buildSgesLoop_built prepare hp wr (sge :: sgList) qp hin hr
  exact ⟨hstatus, hsq, buildSgesLoop_first hp hin hr sge hfit⟩

end Build

-- ============================================================ the dispatch

/-- The request is one that queue entries are built for. -/
def SendWr.isBuilt (wr : SendWr) : Bool :=
  match wr.opcode with
  | .localInv => false
  | .regMr => false
  | .other => false
  | _ => true

/-- The request goes through the RDMA routines. -/
def SendWr.isRdma (wr : SendWr) : Bool :=
  match wr.opcode with
  | .rdmaWrite => true
  | .rdmaWriteWithImm => true
  | .rdmaRead => true
  | _ => false

/-- The opcode whose immediate data the routine has an entry for. -/
def SendWr.immOpcode (wr : SendWr) : WrOpcode :=
  if wr.isRdma then .rdmaWriteWithImm else .sendWithImm

/-- The request carries immediate data. -/
def SendWr.hasImm (wr : SendWr) : Bool :=
  decide (wr.opcode = .sendWithImm ∨ wr.opcode = .rdmaWriteWithImm)

/-- The status of the entries is handed on by `bxroce_build_write`
alone. -/
def SendWr.handsOn (wr : SendWr) : Bool :=
  decide (wr.opcode = .rdmaWrite ∨ wr.opcode = .rdmaWriteWithImm)

theorem SendWr.hasImm_iff {wr : SendWr} :
    wr.hasImm = true ↔ wr.opcode = wr.immOpcode := by
  unfold SendWr.hasImm SendWr.immOpcode SendWr.isRdma
  cases wr.opcode with
  | rdmaWrite => simp
  | rdmaWriteWithImm => simp
  | send => simp
  | sendWithImm => simp
  | rdmaRead => simp
  | sendWithInv => simp
  | localInv => simp
  | regMr => simp
  | other => simp

/-- The routine a request goes through, from the entry at the head on:
what it builds with, and where from. -/
structure Routine (qp : Qp) (wr : SendWr)
    (prepare : Qp → Wqe → SendWr → Int × Qp × Wqe) (qp₀ : Qp) : Prop where
  prepares : Prepares prepare
  records : Records prepare
  sq : qp₀.sq = qp.sq
  qpType : qp₀.qpType = qp.qpType
  attr : qp₀.attr = qp.attr
  /-- The entry at the head has taken the immediate data. -/
  first : wr.hasImm = true →
    (qp₀.sqVa qp.sq.head).body = ⟨be32toh wr.ex, 0, 0, 0⟩
  built : (buildWr qp wr).2
    = (buildSgesWith wr.immOpcode prepare qp₀ wr).2
  status : (buildWr qp wr).1
    = if wr.handsOn then (buildSgesWith wr.immOpcode prepare qp₀ wr).1
      else 0

/-- A request that is not turned down for being inline. -/
theorem buildWr_routine {qp : Qp} {wr : SendWr}
    (hbuilt : wr.isBuilt = true)
    (hinline : wr.inlineRefused qp = false) :
    ∃ prepare qp₀, Routine qp wr prepare qp₀ := by
  have hsend : ∀ qp₀ : Qp, qp₀.qpType = qp.qpType →
      buildSend qp₀ wr
        = (0, (buildSgesWith .sendWithImm prepareSendWqe qp₀ wr).2) := by
    intro qp₀ htype
    have hin : ¬ wr.inlineRefused qp₀ = true := by
      unfold SendWr.inlineRefused at hinline ⊢
      rw [htype, hinline]
      exact Bool.false_ne_true
    unfold buildSend buildInlineSges
    rw [if_neg hin]
    rfl
  have hwrite : ∀ qp₀ : Qp, qp₀.qpType = qp.qpType →
      buildwriteInlineSges qp₀ wr
        = buildSgesWith .rdmaWriteWithImm prepareWriteWqe qp₀ wr := by
    intro qp₀ htype
    have hin : ¬ wr.inlineRefused qp₀ = true := by
      unfold SendWr.inlineRefused at hinline ⊢
      rw [htype, hinline]
      exact Bool.false_ne_true
    unfold buildwriteInlineSges
    rw [if_neg hin]
    rfl
  have hfirst : ∀ wqe : Wqe,
      ((qp.putWqe wqe).sqVa qp.sq.head).body = wqe.body :=
    fun wqe => congrArg Wqe.body (Function.update_self _ _ _)
  have hsendPut : ∀ wqe : Wqe, _ :=
    fun wqe => hsend (qp.putWqe wqe) rfl
  have hwritePut : ∀ wqe : Wqe, _ :=
    fun wqe => hwrite (qp.putWqe wqe) rfl
  unfold SendWr.isBuilt at hbuilt
  cases hop : wr.opcode with
  | localInv => simp [hop] at hbuilt
  | regMr => simp [hop] at hbuilt
  | other => simp [hop] at hbuilt
  | send =>
      refine ⟨prepareSendWqe, qp, prepareSendWqe_prepares,
        prepareSendWqe_records, rfl, rfl, rfl, ?_, ?_, ?_⟩
      · simp [SendWr.hasImm, hop]
      · simp [buildWr, hop, hsend, SendWr.immOpcode, SendWr.isRdma]
      · simp [buildWr, hop, hsend, SendWr.handsOn]
  | sendWithImm =>
      refine ⟨prepareSendWqe,
        qp.putWqe { Wqe.zero with immdt := be32toh wr.ex },
        prepareSendWqe_prepares, prepareSendWqe_records, rfl, rfl, rfl,
        fun _ => hfirst _, ?_, ?_⟩
      · simp only [buildWr, hop, SendWr.immOpcode, SendWr.isRdma]
        rw [hsendPut]
        rfl
      · simp only [buildWr, hop, SendWr.handsOn]
        rw [hsendPut]
        simp
  | sendWithInv =>
      refine ⟨prepareSendWqe, qp.putWqe { Wqe.zero with lkey := wr.ex },
        prepareSendWqe_prepares, prepareSendWqe_records, rfl, rfl, rfl,
        ?_, ?_, ?_⟩
      · simp [SendWr.hasImm, hop]
      · simp only [buildWr, hop, SendWr.immOpcode, SendWr.isRdma]
        rw [hsendPut]
        rfl
      · simp only [buildWr, hop, SendWr.handsOn]
        rw [hsendPut]
        simp
  | rdmaWriteWithImm =>
      refine ⟨prepareWriteWqe,
        qp.putWqe { Wqe.zero with immdt := be32toh wr.ex },
        prepareWriteWqe_prepares, prepareWriteWqe_records, rfl, rfl, rfl,
        fun _ => hfirst _, ?_, ?_⟩
      · simp only [buildWr, buildWrite, hop, SendWr.immOpcode,
          SendWr.isRdma]
        rw [hwritePut]
        rfl
      · simp only [buildWr, buildWrite, hop, SendWr.handsOn,
          SendWr.immOpcode, SendWr.isRdma]
        rw [hwritePut]
        simp
  | rdmaWrite =>
      refine ⟨prepareWriteWqe, qp, prepareWriteWqe_prepares,
        prepareWriteWqe_records, rfl, rfl, rfl, ?_, ?_, ?_⟩
      · simp [SendWr.hasImm, hop]
      · simp [buildWr, buildWrite, hop, hwrite, SendWr.immOpcode,
          SendWr.isRdma]
      · simp [buildWr, buildWrite, hop, hwrite, SendWr.handsOn,
          SendWr.immOpcode, SendWr.isRdma]
  | rdmaRead =>
      refine ⟨prepareWriteWqe, qp, prepareWriteWqe_prepares,
        prepareWriteWqe_records, rfl, rfl, rfl, ?_, ?_, ?_⟩
      · simp [SendWr.hasImm, hop]
      · simp [buildWr, buildRead, hop, hwrite, SendWr.immOpcode,
          SendWr.isRdma]
      · simp [buildWr, hop, SendWr.handsOn]

end BxRnic.Kernel
