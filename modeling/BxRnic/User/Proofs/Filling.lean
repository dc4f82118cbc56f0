/-
What the entries of a request hold besides the header, in the library:
immediate data, keys, lengths and local addresses.

`SendWr.bodies` lists them as the code fills them in, from the request
and the regions alone; `buildWr_bodies` says that they are what the ring
holds behind the old head once the request is built.
-/
import BxRnic.User.Proofs.SendTurn
import BxRnic.Lib.Ring

namespace BxRnic.User

open Word SlotRing

-- ================================================================ the bodies

/-- The bodies of the entries in the send ring. -/
def Qp.bodies (qp : Qp) (slot : Nat) : WqeBody := (qp.sqVa slot).body

theorem bodies_putWqe (qp : Qp) (wqe : Wqe) :
    (qp.putWqe wqe).bodies
      = Function.update qp.bodies qp.sq.head wqe.body := by
  funext slot
  show (Function.update qp.sqVa qp.sq.head wqe slot).body = _
  by_cases hslot : slot = qp.sq.head
  · subst hslot
    rw [Function.update_self, Function.update_self]
  · rw [Function.update_of_ne hslot, Function.update_of_ne hslot]
    rfl

/-- The body of an element's entry that starts out as `start`. -/
def Sge.body (mrList : List MrSgInfo) (start : WqeBody) (sge : Sge) :
    WqeBody where
  immdt := start.immdt
  lkey := sge.lkey
  dmalen := sge.length
  localaddr := (localDmaAddr mrList sge.addr).getD start.localaddr

/-- The bodies of a list of elements, all but the first of which start
out as zeroes. -/
def elementBodies (mrList : List MrSgInfo) (first : WqeBody) :
    List Sge → List WqeBody
  | [] => []
  | sge :: sgList =>
      sge.body mrList first :: sgList.map (Sge.body mrList .zero)

theorem elementBodies_zero (mrList : List MrSgInfo) (sgList : List Sge) :
    elementBodies mrList .zero sgList
      = sgList.map (Sge.body mrList .zero) := by
  cases sgList with
  | nil => rfl
  | cons sge sgList => rfl

@[simp] theorem length_elementBodies (mrList : List MrSgInfo)
    (first : WqeBody) (sgList : List Sge) :
    (elementBodies mrList first sgList).length = sgList.length := by
  cases sgList with
  | nil => rfl
  | cons sge sgList => simp [elementBodies]

/-- What the first entry of a request starts out as. -/
def SendWr.startBody (wr : SendWr) : WqeBody :=
  match wr.opcode with
  | .sendWithImm => { WqeBody.zero with immdt := be32toh wr.immData }
  | .rdmaWriteWithImm => { WqeBody.zero with immdt := be32toh wr.immData }
  | _ => .zero

/-- The request carries immediate data. -/
def SendWr.hasImm (wr : SendWr) : Bool :=
  decide (wr.opcode = .sendWithImm ∨ wr.opcode = .rdmaWriteWithImm)

/-- The bodies of the entries of a request. -/
def SendWr.bodies (mrList : List MrSgInfo) (wr : SendWr) :
    List WqeBody :=
  if wr.sgList = [] ∧ wr.hasImm then [wr.startBody]
  else elementBodies mrList wr.startBody wr.sgList

-- ================================================================ the builds

/-- The entry of an element, with everything but its header filled in. -/
theorem startWqe_body (imm : WrOpcode) (mrList : List MrSgInfo) (qp : Qp)
    (wr : SendWr) (i : Nat) (sge : Sge) :
    { (startWqe imm mrList qp wr i sge).body with
        lkey := sge.lkey, dmalen := sge.length }
      = sge.body mrList
          (if wr.opcode = imm ∧ i = 0 then qp.bodies qp.sq.head
            else .zero) := by
  unfold startWqe Sge.body
  have hstart : (if wr.opcode = imm ∧ i = 0 then qp.sqVa qp.sq.head
        else Wqe.zero).body
      = if wr.opcode = imm ∧ i = 0 then qp.bodies qp.sq.head
        else WqeBody.zero := by
    split
    · rfl
    · rfl
  rw [← hstart]
  generalize (if wr.opcode = imm ∧ i = 0 then qp.sqVa qp.sq.head
    else Wqe.zero) = wqe
  cases localDmaAddr mrList sge.addr with
  | none => rfl
  | some localaddr => rfl

section Build

variable {refused : QpType → SendWr → Bool}
variable {prepare : Qp → Wqe → SendWr → Int × Qp × Wqe}

/-- The loop stores one body behind the other. -/
theorem buildSgesLoop_bodies (hp : Prepares refused prepare)
    (hkeeps : KeepsBody prepare) {imm : WrOpcode}
    {mrList : List MrSgInfo} {wr : SendWr} {sgList : List Sge} :
    ∀ {qp : Qp} {i : Nat}, refused qp.qpType wr = false →
      qp.sq.head + sgList.length < qp.sq.maxCnt →
      (buildSgesLoop imm prepare mrList wr qp i sgList).2.bodies
        = storeFrom qp.bodies qp.sq.head
            (elementBodies mrList
              (if wr.opcode = imm ∧ i = 0 then qp.bodies qp.sq.head
                else .zero) sgList) := by
  induction sgList with
  | nil => exact fun _ _ => rfl
  | cons sge sgList ih =>
      intro qp i hr hroom
      rw [List.length_cons] at hroom
      obtain ⟨hsq, hva, htype⟩ :=
        hp.frame qp (startWqe imm mrList qp wr i sge) wr
      have hstatus :=
        (hp.records qp (startWqe imm mrList qp wr i sge) wr hr).1
      have hbody := hkeeps qp (startWqe imm mrList qp wr i sge) wr
      unfold buildSgesLoop
      simp only [hstatus, ne_eq, not_true_eq_false, if_false]
      generalize prepare qp (startWqe imm mrList qp wr i sge) wr = r
        at hsq hva htype hbody
      obtain ⟨_, qp₁, wqe⟩ := r
      dsimp only at hsq hva htype hbody ⊢
      -- the element's entry, put in place
      have hput : ({ wqe with
            lkey := sge.lkey, dmalen := sge.length } : Wqe).body
          = sge.body mrList
              (if wr.opcode = imm ∧ i = 0 then qp.bodies qp.sq.head
                else .zero) := by
        rw [← startWqe_body, ← hbody]
        rfl
      generalize ({ wqe with
        lkey := sge.lkey, dmalen := sge.length } : Wqe) = wqe' at hput
      have hhead : (qp₁.putWqe wqe').incSqHead.sq.head
          = qp.sq.head + 1 := by
        show (qp₁.sq.head + 1) % qp₁.sq.maxCnt = qp.sq.head + 1
        rw [hsq]
        exact Nat.mod_eq_of_lt (by omega)
      have hcnt : (qp₁.putWqe wqe').incSqHead.sq.maxCnt
          = qp.sq.maxCnt := by
        show qp₁.sq.maxCnt = qp.sq.maxCnt
        rw [hsq]
      have hbodies : (qp₁.putWqe wqe').incSqHead.bodies
          = Function.update qp.bodies qp.sq.head wqe'.body := by
        have hold : qp₁.bodies = qp.bodies := by
          unfold Qp.bodies
          rw [hva]
        show (qp₁.putWqe wqe').bodies = _
        rw [bodies_putWqe, hold, hsq]
      have hrest := @ih (qp₁.putWqe wqe').incSqHead (i + 1)
        (by rw [← hr, ← htype]; rfl)
        (by rw [hhead, hcnt]; omega)
      rw [if_neg (by omega), elementBodies_zero, hhead, hbodies,
        hput] at hrest
      exact hrest

/-- The bodies `bxroce_build_sges` and `bxroce_buildwrite_sges` store,
`first` being what is in the entry at the head. -/
def bodiesWith (imm : WrOpcode) (mrList : List MrSgInfo)
    (first : WqeBody) (wr : SendWr) : List WqeBody :=
  if wr.sgList = [] ∧ wr.opcode = imm then [first]
  else elementBodies mrList (if wr.opcode = imm then first else .zero)
    wr.sgList

theorem length_bodiesWith (imm : WrOpcode) (mrList : List MrSgInfo)
    (first : WqeBody) (wr : SendWr) :
    (bodiesWith imm mrList first wr).length = entriesOf imm wr := by
  unfold bodiesWith entriesOf
  split
  · rfl
  · rw [length_elementBodies]

theorem buildSgesWith_bodies (hp : Prepares refused prepare)
    (hkeeps : KeepsBody prepare) (imm : WrOpcode)
    (mrList : List MrSgInfo) {qp : Qp} {wr : SendWr}
    (hr : refused qp.qpType wr = true → entriesOf imm wr = 0)
    (hroom : qp.sq.head + entriesOf imm wr < qp.sq.maxCnt) :
    (buildSgesWith imm prepare mrList qp wr).2.bodies
      = storeFrom qp.bodies qp.sq.head
          (bodiesWith imm mrList (qp.bodies qp.sq.head) wr) := by
  by_cases hzero : entriesOf imm wr = 0
  · rw [buildSgesWith_none hzero, List.eq_nil_of_length_eq_zero
      ((length_bodiesWith imm mrList (qp.bodies qp.sq.head) wr).trans
        hzero)]
    rfl
  have hok : refused qp.qpType wr = false := by
    cases hrefused : refused qp.qpType wr with
    | true => exact absurd (hr hrefused) hzero
    | false => rfl
  unfold entriesOf at hroom
  unfold buildSgesWith bodiesWith
  by_cases himm : wr.sgList = [] ∧ wr.opcode = imm
  · simp only [if_pos himm]
    obtain ⟨hsq, hva, -⟩ := hp.frame qp (qp.sqVa qp.sq.head) wr
    have hbody := hkeeps qp (qp.sqVa qp.sq.head) wr
    generalize prepare qp (qp.sqVa qp.sq.head) wr = r at hsq hva hbody
    obtain ⟨_, qp₁, wqe⟩ := r
    dsimp only at hsq hva hbody ⊢
    have hold : qp₁.bodies = qp.bodies := by
      unfold Qp.bodies
      rw [hva]
    show (qp₁.putWqe wqe).bodies = _
    rw [bodies_putWqe, hold, hsq, hbody]
    rfl
  · rw [if_neg himm] at hroom ⊢
    rw [if_neg himm, buildSgesLoop_bodies hp hkeeps hok hroom]
    simp only [and_true]

end Build

-- ============================================================== the requests

theorem length_bodies (mrList : List MrSgInfo) (wr : SendWr) :
    (wr.bodies mrList).length
      = if wr.sgList = [] ∧ wr.hasImm then 1 else wr.numSge := by
  unfold SendWr.bodies
  split
  · rfl
  · rw [length_elementBodies]

/-- What a send stores, when the entry at its head holds its immediate
data, if it has any. -/
theorem bodiesWith_eq {imm : WrOpcode} {mrList : List MrSgInfo}
    {first : WqeBody} {wr : SendWr}
    (himm : wr.hasImm = true ↔ wr.opcode = imm)
    (hfirst : wr.opcode = imm → first = wr.startBody) :
    bodiesWith imm mrList first wr = wr.bodies mrList := by
  unfold bodiesWith SendWr.bodies
  by_cases hop : wr.opcode = imm
  · simp only [hop, himm.2 hop, and_true, if_true, hfirst hop]
  · have hzero : wr.startBody = .zero := by
      unfold SendWr.hasImm at himm
      unfold SendWr.startBody
      cases hopcode : wr.opcode with
      | sendWithImm => exact absurd (himm.1 (by simp [hopcode])) hop
      | rdmaWriteWithImm => exact absurd (himm.1 (by simp [hopcode])) hop
      | rdmaWrite => rfl
      | send => rfl
      | rdmaRead => rfl
      | sendWithInv => rfl
      | other => rfl
    simp only [hop, mt himm.1 hop, and_false, Bool.false_eq_true,
      if_false, hzero]

/-- The entries of the request are behind the old head. -/
def Qp.Filled (qp : Qp) (mrList : List MrSgInfo) (wr : SendWr)
    (qp' : Qp) : Prop :=
  ∀ (k : Nat) (hk : k < (wr.bodies mrList).length),
    qp'.bodies (qp.sq.head + k) = (wr.bodies mrList)[k]

/-- The exchange with the server changes the remembered translation and
nothing else. -/
theorem exchangeDmaaddrinfo_eq (qp : Qp) (wr : SendWr)
    (reply : Option SgPhyInfo) :
    ∃ tbl, (exchangeDmaaddrinfo qp wr reply).2
      = { qp with addrtbl := tbl } := by
  unfold exchangeDmaaddrinfo
  cases reply with
  | none => exact ⟨qp.addrtbl, rfl⟩
  | some sginfo =>
      dsimp only
      split
      · exact ⟨qp.addrtbl, rfl⟩
      · exact ⟨_, rfl⟩

/-- A write whose address is translated goes on to its entries. -/
theorem buildWrite_eq (mrList : List MrSgInfo) {qp : Qp} {wr : SendWr}
    {reply : Option SgPhyInfo} (h : wr.Translated qp reply) :
    ∃ addr tbl, buildWrite mrList qp wr reply
      = buildwriteInlineSges mrList
          { qp with rdmaAddr := addr, addrtbl := tbl } wr := by
  unfold buildWrite
  by_cases hcovers : qp.addrtbl.covers wr.remoteAddr
  · simp only [if_pos hcovers]
    exact ⟨_, qp.addrtbl, rfl⟩
  · obtain ⟨tbl, htbl⟩ := exchangeDmaaddrinfo_eq qp wr reply
    have hstatus : (exchangeDmaaddrinfo qp wr reply).1 = 0 :=
      (exchangeDmaaddrinfo_keeps qp wr reply).2.2
        (h.resolve_left hcovers)
    simp only [if_neg hcovers, hstatus, htbl, ne_eq, not_true_eq_false,
      if_false]
    exact ⟨_, tbl, rfl⟩

/-- So does every read. -/
theorem buildRead_eq (mrList : List MrSgInfo) (qp : Qp) (wr : SendWr)
    (reply : Option SgPhyInfo) :
    ∃ addr tbl, buildRead mrList qp wr reply
      = (buildwriteInlineSges mrList
          { qp with rdmaAddr := addr, addrtbl := tbl } wr).2 := by
  unfold buildRead
  by_cases hcovers : qp.addrtbl.covers wr.remoteAddr
  · simp only [if_pos hcovers]
    exact ⟨_, qp.addrtbl, rfl⟩
  · obtain ⟨tbl, htbl⟩ := exchangeDmaaddrinfo_eq qp wr reply
    simp only [if_neg hcovers, htbl]
    exact ⟨_, tbl, rfl⟩

/-- The sends. -/
theorem buildSend_filled {mrList : List MrSgInfo} {qp : Qp} {wr : SendWr}
    (hok : ¬ wr.Unbuildable .sendWithImm sendRefused qp)
    (himm : wr.hasImm = true ↔ wr.opcode = .sendWithImm)
    (hfirst : wr.opcode = .sendWithImm →
      qp.bodies qp.sq.head = wr.startBody)
    (hroom : qp.sq.head + entriesOf .sendWithImm wr < qp.sq.maxCnt) :
    qp.Filled mrList wr (buildSend mrList qp wr).2 := by
  have hinline : ¬ wr.inlineRefused qp = true := fun h => hok (Or.inl h)
  have hrefused : sendRefused qp.qpType wr = true →
      entriesOf .sendWithImm wr = 0 := by
    intro hr
    by_contra hne
    exact hok (Or.inr ⟨hr, hne⟩)
  intro k hk
  unfold buildSend buildInlineSges buildSges
  rw [if_neg hinline, buildSgesWith_bodies prepareSendWqe_prepares
    prepareSendWqe_keepsBody .sendWithImm mrList hrefused hroom,
    bodiesWith_eq himm hfirst]
  exact storeFrom_get hk

/-- The RDMA requests. -/
theorem buildwriteInline_filled {mrList : List MrSgInfo} {qp : Qp}
    {wr : SendWr}
    (hok : ¬ wr.Unbuildable .rdmaWriteWithImm writeRefused qp)
    (himm : wr.hasImm = true ↔ wr.opcode = .rdmaWriteWithImm)
    (hfirst : wr.opcode = .rdmaWriteWithImm →
      qp.bodies qp.sq.head = wr.startBody)
    (hroom : qp.sq.head + entriesOf .rdmaWriteWithImm wr
      < qp.sq.maxCnt) :
    qp.Filled mrList wr (buildwriteInlineSges mrList qp wr).2 := by
  have hinline : ¬ wr.inlineRefused qp = true := fun h => hok (Or.inl h)
  have hrefused : writeRefused qp.qpType wr = true →
      entriesOf .rdmaWriteWithImm wr = 0 := by
    intro hr
    by_contra hne
    exact hok (Or.inr ⟨hr, hne⟩)
  intro k hk
  unfold buildwriteInlineSges buildwriteSges
  rw [if_neg hinline, buildSgesWith_bodies prepareWriteWqe_prepares
    prepareWriteWqe_keepsBody .rdmaWriteWithImm mrList hrefused hroom,
    bodiesWith_eq himm hfirst]
  exact storeFrom_get hk

/-- The entries of a request are built. A read is accepted even when they
are not. -/
def SendWr.Buildable (wr : SendWr) (qp : Qp)
    (reply : Option SgPhyInfo) : Prop :=
  ¬ wr.Fails qp reply
    ∧ (wr.opcode = .rdmaRead →
      ¬ wr.Unbuildable .rdmaWriteWithImm writeRefused qp)

instance (wr : SendWr) (qp : Qp) (reply : Option SgPhyInfo) :
    Decidable (wr.Buildable qp reply) :=
  inferInstanceAs (Decidable (_ ∧ (_ → _)))

/-- As many entries as bodies. -/
theorem SendWr.Buildable.length_bodies {wr : SendWr} {qp : Qp}
    {reply : Option SgPhyInfo} (h : wr.Buildable qp reply)
    (mrList : List MrSgInfo) :
    (wr.bodies mrList).length = wr.entries qp := by
  obtain ⟨hok, hread⟩ := h
  rw [User.length_bodies]
  unfold SendWr.entries entriesOf SendWr.hasImm
  cases hop : wr.opcode with
  | sendWithImm => simp
  | rdmaWriteWithImm => simp
  | rdmaRead =>
      simp only [if_neg (hread hop)]
      simp
  | rdmaWrite => simp
  | send => simp
  | sendWithInv => simp
  | other => simp

/-- A read whose entries cannot be built takes none. -/
theorem SendWr.entries_of_not_buildable {wr : SendWr} {qp : Qp}
    {reply : Option SgPhyInfo} (hok : ¬ wr.Fails qp reply)
    (h : ¬ wr.Buildable qp reply) : wr.entries qp = 0 := by
  have hread : wr.opcode = .rdmaRead
      ∧ wr.Unbuildable .rdmaWriteWithImm writeRefused qp := by
    by_contra hnot
    exact h ⟨hok, fun hop hunbuildable => hnot ⟨hop, hunbuildable⟩⟩
  unfold SendWr.entries
  rw [hread.1]
  exact if_pos hread.2

/-- The `switch` on the opcode. -/
theorem buildWr_filled {mrList : List MrSgInfo} {qp : Qp} {wr : SendWr}
    {reply : Option SgPhyInfo} (h : wr.Buildable qp reply)
    (hroom : qp.sq.head + wr.entries qp < qp.sq.maxCnt) :
    qp.Filled mrList wr (buildWr mrList qp wr reply).2 := by
  obtain ⟨hok, hread⟩ := h
  -- the entry at the head takes the immediate data
  have hfirst : ∀ immdt : U32,
      wr.startBody = { WqeBody.zero with immdt := immdt } →
      (qp.putWqe { Wqe.zero with immdt := immdt }).bodies qp.sq.head
        = wr.startBody := by
    intro immdt hstart
    rw [bodies_putWqe, hstart]
    exact Function.update_self _ _ _
  unfold SendWr.entries at hroom
  unfold SendWr.Fails at hok
  unfold buildWr
  cases hop : wr.opcode with
  | other => simp [hop] at hok
  | send =>
      simp only [hop] at hok hroom ⊢
      exact buildSend_filled hok (by simp [SendWr.hasImm, hop])
        (by simp [hop]) hroom
  | sendWithInv =>
      simp only [hop] at hok hroom ⊢
      exact @buildSend_filled mrList (qp.putWqe _) wr hok
        (by simp [SendWr.hasImm, hop]) (by simp [hop]) hroom
  | sendWithImm =>
      simp only [hop] at hok hroom ⊢
      exact @buildSend_filled mrList (qp.putWqe _) wr hok
        (by simp [SendWr.hasImm, hop])
        (fun _ => hfirst _ (by simp [SendWr.startBody, hop])) hroom
  | rdmaWriteWithImm =>
      simp only [hop] at hok hroom ⊢
      rw [not_or, not_not] at hok
      obtain ⟨addr, tbl, heq⟩ := @buildWrite_eq mrList
        (qp.putWqe { Wqe.zero with immdt := be32toh wr.immData }) wr
        reply hok.1
      rw [heq]
      exact @buildwriteInline_filled mrList
        { qp.putWqe { Wqe.zero with immdt := be32toh wr.immData } with
          rdmaAddr := addr, addrtbl := tbl } wr hok.2
        (by simp [SendWr.hasImm, hop])
        (fun _ => hfirst _ (by simp [SendWr.startBody, hop])) hroom
  | rdmaWrite =>
      simp only [hop] at hok hroom ⊢
      rw [not_or, not_not] at hok
      obtain ⟨addr, tbl, heq⟩ := buildWrite_eq mrList hok.1
      rw [heq]
      exact @buildwriteInline_filled mrList
        { qp with rdmaAddr := addr, addrtbl := tbl } wr hok.2
        (by simp [SendWr.hasImm, hop]) (by simp [hop]) hroom
  | rdmaRead =>
      have hbuilt := hread hop
      simp only [hop, if_neg hbuilt] at hroom ⊢
      have hnum : entriesOf .rdmaWriteWithImm wr = wr.numSge := by
        unfold entriesOf
        rw [if_neg (by simp [hop])]
      obtain ⟨addr, tbl, heq⟩ := buildRead_eq mrList qp wr reply
      rw [heq]
      exact @buildwriteInline_filled mrList
        { qp with rdmaAddr := addr, addrtbl := tbl } wr hbuilt
        (by simp [SendWr.hasImm, hop]) (by simp [hop])
        (by rw [hnum]; exact hroom)

end BxRnic.User
