/-
Immediate data and keys to invalidate: whether they are in the first
entry of a request when the doorbell is rung, in the library and in the
driver, and whether the two put the same there.

Both store the value in the entry at the head and then build the entries
of the elements, the first of which is that entry. What comes of the
value depends on who clears the entry, and when.

- The library does not clear the first entry of a request with immediate
  data. It clears that of one with a key, and overwrites the key with
  the element's.
- The driver clears every entry of an element.
- A request without elements is not cleared on either side, but there is
  an entry for it only when it carries immediate data.
-/
import BxRnic.User.Proofs.Filling
import BxRnic.User.Proofs.Progress
import BxRnic.Kernel.Proofs.Filling
import BxRnic.Kernel.Proofs.Queues

namespace BxRnic

open Run Word

-- ================================================================ the library

namespace User

/-- The request carries immediate data or a key to invalidate. -/
def SendWr.Immediate (wr : SendWr) : Prop :=
  wr.opcode = .sendWithImm ∨ wr.opcode = .rdmaWriteWithImm
    ∨ wr.opcode = .sendWithInv

/-- The value is in the entry. The key to invalidate and the immediate
data share their place in the request. -/
def SendWr.Carried (wr : SendWr) (wqe : Wqe) : Prop :=
  if wr.opcode = .sendWithInv then wqe.lkey = wr.immData
  else wqe.immdt = be32toh wr.immData

/-- What a turn left: there is an entry for the request, the doorbell is
rung for it, and it has the value. -/
structure SendWr.Conveyed (wr : SendWr) (qp : Qp)
    (r : Turn × Qp × Regs) : Prop where
  built : r.2.1.sq.head ≠ qp.sq.head
  rung : r.2.2.sqWp = r.2.1.sq.head
  carried : wr.Carried (r.2.1.sqVa qp.sq.head)

/-- The condition: a key to invalidate is that of the first element. -/
def SendWr.KeyFirst (wr : SendWr) : Prop :=
  wr.opcode = .sendWithInv →
    wr.sgList.head?.map Sge.lkey = some wr.immData

instance (wr : SendWr) : Decidable wr.Immediate :=
  inferInstanceAs (Decidable (_ ∨ _ ∨ _))

instance (wr : SendWr) : Decidable wr.KeyFirst :=
  inferInstanceAs (Decidable (_ → _))

/-- A request of these kinds is not a read. -/
theorem SendWr.Immediate.not_read {wr : SendWr} (h : wr.Immediate) :
    wr.opcode ≠ .rdmaRead := by
  rcases h with h | h | h
  · simp [h]
  · simp [h]
  · simp [h]

/-- The first entry of an accepted request. -/
theorem first_body {qp : Qp} {wr : SendWr} {reply : Option SgPhyInfo}
    (hroomy : qp.sq.Roomy) (hread : wr.opcode ≠ .rdmaRead)
    (hready : wr.Ready qp) (hok : ¬ wr.Fails qp reply)
    (mrList : List MrSgInfo) (regs : Regs)
    (hpos : 0 < (wr.bodies mrList).length) :
    ((postSendTurn mrList qp regs wr reply).2.1.sqVa qp.sq.head).body
      = (wr.bodies mrList)[0] := by
  have hbuildable : wr.Buildable qp reply :=
    ⟨hok, fun h => absurd h hread⟩
  rw [postSendTurn_ready_qp hready]
  exact buildWr_filled hbuildable (hready.room hroomy) 0 hpos

/-- The first entry keeps the immediate data it starts out with. -/
theorem SendWr.bodies_immdt (wr : SendWr) (mrList : List MrSgInfo)
    (hpos : 0 < (wr.bodies mrList).length) :
    (wr.bodies mrList)[0].immdt = wr.startBody.immdt := by
  cases hlist : wr.sgList with
  | nil =>
      cases himm : wr.hasImm with
      | true => simp [SendWr.bodies, hlist, himm]
      | false => simp [length_bodies, hlist, himm, SendWr.numSge] at hpos
  | cons sge sgList =>
      simp [SendWr.bodies, hlist, elementBodies, Sge.body]

/-- What that is. -/
theorem SendWr.Immediate.startBody {wr : SendWr} (h : wr.Immediate) :
    wr.startBody.immdt
      = if wr.opcode = .sendWithInv then 0 else be32toh wr.immData := by
  unfold SendWr.startBody
  rcases h with hop | hop | hop
  · simp [hop]
  · simp [hop]
  · simp [hop, WqeBody.zero]

/-- It ends up with the key of the first element. -/
theorem SendWr.bodies_lkey {wr : SendWr} {sge : Sge} {sgList : List Sge}
    (hlist : wr.sgList = sge :: sgList) (mrList : List MrSgInfo)
    (hpos : 0 < (wr.bodies mrList).length) :
    (wr.bodies mrList)[0].lkey = sge.lkey := by
  simp [SendWr.bodies, hlist, elementBodies, Sge.body]

/-- The value is in the first entry just when the condition holds. -/
theorem SendWr.carried_iff {wr : SendWr} (himm : wr.Immediate)
    {mrList : List MrSgInfo} (hpos : 0 < (wr.bodies mrList).length)
    {wqe : Wqe} (hwqe : wqe.body = (wr.bodies mrList)[0]) :
    wr.Carried wqe ↔ wr.KeyFirst := by
  have himmdt : wqe.immdt = (wr.bodies mrList)[0].immdt :=
    congrArg WqeBody.immdt hwqe
  have hlkey : wqe.lkey = (wr.bodies mrList)[0].lkey :=
    congrArg WqeBody.lkey hwqe
  unfold SendWr.Carried SendWr.KeyFirst
  by_cases hinv : wr.opcode = .sendWithInv
  · rw [if_pos hinv]
    cases hlist : wr.sgList with
    | nil =>
        have hlength := length_bodies mrList wr
        rw [hlist] at hlength
        simp [SendWr.hasImm, hinv, SendWr.numSge, hlist] at hlength
        simp [hlength] at hpos
    | cons sge sgList =>
        rw [hlkey, SendWr.bodies_lkey hlist]
        simp [hinv]
  · rw [if_neg hinv, himmdt, wr.bodies_immdt, himm.startBody,
      if_neg hinv]
    simp [hinv]

/-- The library conveys every immediate datum, and a key just when the
first element has it. -/
theorem conveyed_iff {mrList : List MrSgInfo} {qp : Qp} {regs : Regs}
    {wr : SendWr} {reply : Option SgPhyInfo} (hroomy : qp.sq.Roomy)
    (himm : wr.Immediate)
    (hnext : (postSendTurn mrList qp regs wr reply).1 = .next) :
    wr.Conveyed qp (postSendTurn mrList qp regs wr reply)
      ↔ wr.KeyFirst := by
  have hturn := postSendTurn_cases mrList qp regs wr reply
  have hread := himm.not_read
  have hfirst := fun (hready : wr.Ready qp) (hok : ¬ wr.Fails qp reply) =>
    first_body hroomy hread hready hok mrList regs
  have hlength := fun (hok : ¬ wr.Fails qp reply) =>
    @SendWr.Buildable.length_bodies wr qp reply
      ⟨hok, fun h => absurd h hread⟩ mrList
  generalize postSendTurn mrList qp regs wr reply = r
    at hturn hnext hfirst
  cases hturn with
  | again _ => cases hnext
  | stop _ _ => cases hnext
  | next hready hok htakes =>
      have hcount := hlength hok
      have hhead := congrArg HwqInfo.head htakes.sq_eq
      rw [HwqInfo.advance_eq (hready.room hroomy)] at hhead
      dsimp only at hhead
      by_cases hzero : wr.entries qp = 0
      · -- nothing was built, and nothing was to be conveyed
        have hnone : wr.sgList = [] ∧ wr.opcode = .sendWithInv := by
          rw [hzero, length_bodies] at hcount
          split at hcount
          · cases hcount
          · rename_i hbare
            have hnil := List.eq_nil_of_length_eq_zero hcount
            refine ⟨hnil, ?_⟩
            rcases himm with h | h | h
            · exact absurd ⟨hnil, by simp [SendWr.hasImm, h]⟩ hbare
            · exact absurd ⟨hnil, by simp [SendWr.hasImm, h]⟩ hbare
            · exact h
        refine iff_of_false (fun h => h.built ?_) fun h => ?_
        · rw [hhead, hzero, Nat.add_zero]
        · have hkey := h hnone.2
          rw [hnone.1] at hkey
          cases hkey
      · have hpos : 0 < (wr.bodies mrList).length := by omega
        have hrung : ¬ (wr.numSge = 0 ∧ wr.opcode ≠ .rdmaWriteWithImm
            ∧ wr.opcode ≠ .sendWithImm) :=
          fun h => hzero (wr.entries_of_not_rung qp h)
        rw [← SendWr.carried_iff himm hpos (hfirst hready hok hpos)]
        refine ⟨fun h => h.carried, fun h => ⟨?_, ?_, h⟩⟩
        · rw [hhead]
          omega
        · unfold ringSqHw
          rw [if_neg hrung]

/-- The immediate data in the first entry of a request that has one. -/
theorem first_immdt {mrList : List MrSgInfo} {qp : Qp} {regs : Regs}
    {wr : SendWr} {reply : Option SgPhyInfo} (hroomy : qp.sq.Roomy)
    (himm : wr.Immediate)
    (hnext : (postSendTurn mrList qp regs wr reply).1 = .next)
    (hmoved : (postSendTurn mrList qp regs wr reply).2.1.sq.head
      ≠ qp.sq.head) :
    ((postSendTurn mrList qp regs wr reply).2.1.sqVa qp.sq.head).immdt
      = if wr.opcode = .sendWithInv then 0 else be32toh wr.immData := by
  have hturn := postSendTurn_cases mrList qp regs wr reply
  have hread := himm.not_read
  have hfirst := fun (hready : wr.Ready qp) (hok : ¬ wr.Fails qp reply) =>
    first_body hroomy hread hready hok mrList regs
  have hlength := fun (hok : ¬ wr.Fails qp reply) =>
    @SendWr.Buildable.length_bodies wr qp reply
      ⟨hok, fun h => absurd h hread⟩ mrList
  generalize postSendTurn mrList qp regs wr reply = r
    at hturn hnext hfirst hmoved
  cases hturn with
  | again _ => cases hnext
  | stop _ _ => cases hnext
  | next hready hok htakes =>
      have hpos : 0 < (wr.bodies mrList).length := by
        rw [hlength hok]
        apply Nat.pos_of_ne_zero
        intro hzero
        apply hmoved
        rw [htakes.sq_eq, hzero]
        rfl
      rw [← himm.startBody, ← wr.bodies_immdt mrList hpos]
      exact congrArg WqeBody.immdt (hfirst hready hok hpos)

end User

-- ================================================================= the driver

namespace Kernel

/-- The request carries immediate data or a key to invalidate. -/
def SendWr.Immediate (wr : SendWr) : Prop :=
  wr.opcode = .sendWithImm ∨ wr.opcode = .rdmaWriteWithImm
    ∨ wr.opcode = .sendWithInv

/-- The value is in the entry. -/
def SendWr.Carried (wr : SendWr) (wqe : Wqe) : Prop :=
  if wr.opcode = .sendWithInv then wqe.lkey = wr.ex
  else wqe.immdt = be32toh wr.ex

/-- There is an entry for the request, the doorbell is rung for it, and
it has the value. -/
structure SendWr.Conveyed (wr : SendWr) (qp : Qp) (hw : Doorbell) :
    Prop where
  built : (buildWr qp wr).2.sq.head ≠ qp.sq.head
  rung : (postSendTurn qp hw wr).2.2.wp qp.sq.maxCnt
    = (buildWr qp wr).2.sq.head
  carried : wr.Carried ((postSendTurn qp hw wr).2.1.sqVa qp.sq.head)

/-- The condition. The type of the queue pair matters, since a send that
it refuses is rung for all the same. -/
def SendWr.Survives (wr : SendWr) (qp : Qp) : Prop :=
  if wr.opcode = .sendWithInv then
    opcodeRefused qp.qpType wr.opcode = false
      ∧ wr.sgList.head?.map Sge.lkey = some wr.ex
  else
    wr.sgList = []
      ∨ opcodeRefused qp.qpType wr.opcode = false ∧ wr.ex = 0

instance (wr : SendWr) : Decidable wr.Immediate :=
  inferInstanceAs (Decidable (_ ∨ _ ∨ _))

instance (wr : SendWr) (qp : Qp) : Decidable (wr.Survives qp) := by
  unfold SendWr.Survives
  split
  · exact inferInstanceAs (Decidable (_ ∧ _))
  · exact inferInstanceAs (Decidable (_ ∨ _))

/-- The head is a slot of the ring, and a list of elements is shorter
than the ring. -/
structure HwqInfo.Fits (q : HwqInfo) : Prop where
  head_lt : q.head < q.maxCnt
  sges_lt : q.maxSges + 1 < q.maxCnt

/-- An accepted request has passed the tests and was built. -/
theorem postSendTurn_accepted {qp : Qp} {hw : Doorbell} {wr : SendWr}
    (h : (postSendTurn qp hw wr).1 = 0) :
    wr.Admitted qp ∧ (buildWr qp wr).1 = 0
      ∧ (postSendTurn qp hw wr).2
        = (updateSqHead (ringSqHw (buildWr qp wr).2 hw wr).1
            (ringSqHw (buildWr qp wr).2 hw wr).2,
          (ringSqHw (buildWr qp wr).2 hw wr).2) := by
  rcases postSendTurn_cases qp hw wr with ⟨hne, -⟩ | ⟨-, hne, -⟩
    | ⟨hadmitted, -, hturn⟩
  · exact absurd h hne
  · exact absurd h hne
  refine ⟨hadmitted, ?_, hturn⟩
  obtain ⟨hud, hfree, hsges, hroom⟩ := hadmitted
  have hfoe : checkFoe wr.numSge (hwqFreeCnt qp.sq) = 0 := by
    unfold checkFoe
    rw [if_neg (by omega)]
  unfold postSendTurn at h
  rw [if_neg hud] at h
  simp only [if_neg (show ¬ (hwqFreeCnt qp.sq = 0
    ∨ wr.numSge > qp.sq.maxSges) by omega), hfoe, ne_eq,
    not_true_eq_false, if_false] at h
  by_contra hstatus
  simp only [if_pos hstatus] at h
  exact hstatus h

/-- A request of these kinds that is inline is not accepted. -/
theorem SendWr.Immediate.not_inline {wr : SendWr} (himm : wr.Immediate)
    {qp : Qp} (h : (buildWr qp wr).1 = 0) :
    wr.isBuilt = true ∧ wr.inlineRefused qp = false := by
  have hne : -EINVAL ≠ 0 := by decide
  cases hinline : wr.inlineRefused qp with
  | false =>
      refine ⟨?_, rfl⟩
      unfold SendWr.isBuilt
      rcases himm with hop | hop | hop
      · rw [hop]
      · rw [hop]
      · rw [hop]
  | true =>
      have hin : ∀ wqe : Wqe,
          wr.inlineRefused (qp.putWqe wqe) = true := fun _ => hinline
      unfold buildWr at h
      rcases himm with hop | hop | hop
      · simp only [hop, buildSend, buildInlineSges, if_pos (hin _)] at h
        exact absurd h hne
      · simp only [hop, buildWrite, buildwriteInlineSges,
          if_pos (hin _)] at h
        exact absurd h hne
      · simp only [hop, buildSend, buildInlineSges, if_pos (hin _)] at h
        exact absurd h hne

/-- The doorbell is rung for the head. -/
theorem ringSqHw_wp {qp : Qp} (hw : Doorbell) {wr : SendWr}
    (hin : qp.sq.head < qp.sq.maxCnt)
    (hrung : ¬ (wr.numSge = 0 ∧ wr.opcode ≠ .rdmaWriteWithImm
      ∧ wr.opcode ≠ .sendWithImm)) :
    (ringSqHw qp hw wr).2.wp qp.sq.maxCnt = qp.sq.head := by
  unfold ringSqHw
  rw [if_neg hrung]
  exact (Doorbell.wp_ring (Nat.zero_lt_of_lt hin)).trans
    (Nat.mod_eq_of_lt hin)

/-- What is conveyed is what building leaves in the first entry, if it
leaves one. -/
theorem SendWr.conveyed_iff_built {qp : Qp} {hw : Doorbell} {wr : SendWr}
    (hfits : qp.sq.Fits) (himm : wr.Immediate)
    (hok : (postSendTurn qp hw wr).1 = 0) :
    wr.Conveyed qp hw
      ↔ (buildWr qp wr).2.sq.head ≠ qp.sq.head
        ∧ wr.Carried ((buildWr qp wr).2.sqVa qp.sq.head) := by
  obtain ⟨-, hstatus, hturn⟩ := postSendTurn_accepted hok
  have hbuilds := buildWr_builds hfits.head_lt wr
  have hin := hbuilds.headIn hfits.head_lt
  have hcnt : (buildWr qp wr).2.sq.maxCnt = qp.sq.maxCnt := by
    obtain ⟨k, -, hsq, -⟩ := hbuilds.moved
    rw [hsq]
  have hva : (postSendTurn qp hw wr).2.1.sqVa
      = (buildWr qp wr).2.sqVa := by
    rw [hturn]
    exact (ringSqHw_keeps (buildWr qp wr).2 hw wr).2.1
  constructor
  · intro h
    refine ⟨h.built, ?_⟩
    rw [← hva]
    exact h.carried
  · rintro ⟨hmoved, hcarried⟩
    refine ⟨hmoved, ?_, by rw [hva]; exact hcarried⟩
    -- a request that is not rung has moved nothing
    have hrung : ¬ (wr.numSge = 0 ∧ wr.opcode ≠ .rdmaWriteWithImm
        ∧ wr.opcode ≠ .sendWithImm) := by
      rintro ⟨hnum, hwrite, hsend⟩
      obtain ⟨hbuilt, hinline⟩ := himm.not_inline hstatus
      obtain ⟨prepare, qp₀, hroutine⟩ := buildWr_routine hbuilt hinline
      refine hmoved ?_
      rw [hroutine.built, buildSgesWith_none
        (List.eq_nil_of_length_eq_zero hnum), hroutine.sq]
      rw [Ne, ← SendWr.hasImm_iff]
      simp [SendWr.hasImm, hwrite, hsend]
    rw [hturn, ← hcnt]
    exact ringSqHw_wp hw hin hrung

/-- The driver conveys immediate data on its own, zeroes, and a key that
the first element has, and nothing else. -/
theorem conveyed_iff {qp : Qp} {hw : Doorbell} {wr : SendWr}
    (hfits : qp.sq.Fits) (himm : wr.Immediate)
    (hok : (postSendTurn qp hw wr).1 = 0) :
    wr.Conveyed qp hw ↔ wr.Survives qp := by
  rw [SendWr.conveyed_iff_built hfits himm hok]
  obtain ⟨hadmitted, hstatus, -⟩ := postSendTurn_accepted hok
  obtain ⟨hbuilt, hinline⟩ := himm.not_inline hstatus
  obtain ⟨prepare, qp₀, hroutine⟩ := buildWr_routine hbuilt hinline
  have hhead := hfits.head_lt
  have hshort := hfits.sges_lt
  have hin : qp₀.HeadIn := by
    unfold Qp.HeadIn
    rw [hroutine.sq]
    exact hhead
  -- the head moves when it moves by less than a round
  have hmoves : ∀ {k : Nat}, 0 < k → k < qp.sq.maxCnt →
      (qp.sq.advance k).head ≠ qp.sq.head := by
    intro k hpos hlt heq
    rcases (SlotRing.next_eq_iff hhead (Nat.le_of_lt hlt)).1 heq with h | h
    · omega
    · omega
  rw [hroutine.built]
  unfold SendWr.Survives SendWr.Carried
  cases hlist : wr.sgList with
  | nil =>
      by_cases hinv : wr.opcode = .sendWithInv
      · -- no entry for it
        have himm' : wr.opcode ≠ wr.immOpcode := by
          simp [SendWr.immOpcode, SendWr.isRdma, hinv]
        rw [buildSgesWith_none hlist himm', hroutine.sq]
        simp [hinv]
      · have himm' : wr.hasImm = true := by
          unfold SendWr.hasImm
          rcases himm with h | h | h
          · simp [h]
          · simp [h]
          · exact absurd h hinv
        obtain ⟨-, hsq, hbody⟩ := buildSgesWith_bare hroutine.prepares
          hlist (SendWr.hasImm_iff.1 himm') qp₀
        rw [hroutine.sq] at hsq hbody
        have himmdt := congrArg WqeBody.immdt
          (hbody.trans (hroutine.first himm'))
        rw [if_neg hinv, hsq, if_neg hinv]
        refine iff_of_true ⟨?_, himmdt⟩ (Or.inl rfl)
        exact hmoves Nat.one_pos (by omega)
  | cons sge sgList =>
      have hne : wr.sgList ≠ [] := by simp [hlist]
      have hnum : wr.numSge = sgList.length + 1 := by
        rw [SendWr.numSge, hlist]
        rfl
      have hsges := hadmitted.2.2.1
      cases hr : opcodeRefused qp.qpType wr.opcode with
      | true =>
          obtain ⟨-, hsq⟩ := buildSgesWith_refused hroutine.prepares
            wr.immOpcode hne (by rw [hroutine.qpType]; exact hr)
          rw [hsq, hroutine.sq]
          simp
      | false =>
          obtain ⟨-, hsq, hbody⟩ := buildSgesWith_built
            hroutine.prepares wr.immOpcode hin hlist
            (by rw [hroutine.sq]; omega)
            (by rw [hroutine.qpType]; exact hr)
          rw [hroutine.sq] at hsq hbody
          have himmdt := congrArg WqeBody.immdt hbody
          have hlkey := congrArg WqeBody.lkey hbody
          simp only [Wqe.body] at himmdt hlkey
          rw [hsq, himmdt, hlkey]
          have hbuilt' := hmoves (k := wr.numSge) (by omega) (by omega)
          by_cases hinv : wr.opcode = .sendWithInv
          · simp [hinv, hbuilt']
          · have hzero : (0 : U32) = be32toh wr.ex ↔ wr.ex = 0 :=
              eq_comm.trans be32toh_eq_zero
            simp only [if_neg hinv, hzero]
            simp [hbuilt']

/-- The immediate data in the first entry of a request that has one. -/
theorem first_immdt {qp : Qp} {hw : Doorbell} {wr : SendWr}
    (hfits : qp.sq.Fits) (himm : wr.Immediate)
    (hok : (postSendTurn qp hw wr).1 = 0)
    (hmoved : (buildWr qp wr).2.sq.head ≠ qp.sq.head) :
    ((postSendTurn qp hw wr).2.1.sqVa qp.sq.head).immdt
      = if wr.sgList = [] ∧ wr.opcode ≠ .sendWithInv then
          be32toh wr.ex
        else 0 := by
  obtain ⟨hadmitted, hstatus, hturn⟩ := postSendTurn_accepted hok
  obtain ⟨hbuilt, hinline⟩ := himm.not_inline hstatus
  obtain ⟨prepare, qp₀, hroutine⟩ := buildWr_routine hbuilt hinline
  have hhead := hfits.head_lt
  have hshort := hfits.sges_lt
  have hin : qp₀.HeadIn := by
    unfold Qp.HeadIn
    rw [hroutine.sq]
    exact hhead
  have hva : (postSendTurn qp hw wr).2.1.sqVa
      = (buildWr qp wr).2.sqVa := by
    rw [hturn]
    exact (ringSqHw_keeps (buildWr qp wr).2 hw wr).2.1
  rw [hroutine.built] at hmoved
  rw [hva, hroutine.built]
  cases hlist : wr.sgList with
  | nil =>
      by_cases himm' : wr.opcode = wr.immOpcode
      · obtain ⟨-, -, hbody⟩ :=
          buildSgesWith_bare hroutine.prepares hlist himm' qp₀
        rw [hroutine.sq] at hbody
        have hinv : wr.opcode ≠ .sendWithInv := by
          rw [himm']
          unfold SendWr.immOpcode
          split
          · simp
          · simp
        rw [if_pos ⟨rfl, hinv⟩]
        exact congrArg WqeBody.immdt
          (hbody.trans (hroutine.first (SendWr.hasImm_iff.2 himm')))
      · rw [buildSgesWith_none hlist himm', hroutine.sq] at hmoved
        exact absurd rfl hmoved
  | cons sge sgList =>
      have hne : wr.sgList ≠ [] := by simp [hlist]
      have hnum : wr.numSge = sgList.length + 1 := by
        rw [SendWr.numSge, hlist]
        rfl
      have hsges := hadmitted.2.2.1
      rw [if_neg fun h => List.cons_ne_nil sge sgList h.1]
      cases hr : opcodeRefused qp₀.qpType wr.opcode with
      | true =>
          obtain ⟨-, hsq⟩ := buildSgesWith_refused hroutine.prepares
            wr.immOpcode hne hr
          rw [hsq, hroutine.sq] at hmoved
          exact absurd rfl hmoved
      | false =>
          obtain ⟨-, -, hbody⟩ := buildSgesWith_built
            hroutine.prepares wr.immOpcode hin hlist
            (by rw [hroutine.sq]; omega) hr
          rw [hroutine.sq] at hbody
          exact congrArg WqeBody.immdt hbody

-- ================================================================= its runs

/-- Building and posting keep the sizes of the send ring. -/
theorem HwqInfo.Fits.postSendTurn {qp : Qp} (h : qp.sq.Fits)
    (hw : Doorbell) (wr : SendWr) :
    (postSendTurn qp hw wr).2.1.sq.Fits := by
  have hbuilds := buildWr_builds h.head_lt wr
  have hin := hbuilds.headIn h.head_lt
  obtain ⟨k, -, hsq, -⟩ := hbuilds.moved
  have hbuilt : (buildWr qp wr).2.sq.Fits := by
    refine ⟨hin, ?_⟩
    rw [hsq]
    exact h.sges_lt
  rcases postSendTurn_cases qp hw wr with ⟨-, hturn⟩ | ⟨-, -, hturn⟩
    | ⟨-, -, hturn⟩
  · rw [hturn]
    exact h
  · rw [hturn]
    exact hbuilt
  · rw [hturn]
    have hrung : (ringSqHw (buildWr qp wr).2 hw wr).1.sq
        = (buildWr qp wr).2.sq := by
      unfold ringSqHw
      split
      · rfl
      · rfl
    -- the head is read back from the register
    refine ⟨?_, ?_⟩
    · show (ringSqHw (buildWr qp wr).2 hw wr).2.wp
        (ringSqHw (buildWr qp wr).2 hw wr).1.sq.maxCnt
          < (ringSqHw (buildWr qp wr).2 hw wr).1.sq.maxCnt
      rw [hrung]
      exact Nat.mod_lt _ (Nat.zero_lt_of_lt hin)
    · show (ringSqHw (buildWr qp wr).2 hw wr).1.sq.maxSges + 1
        < (ringSqHw (buildWr qp wr).2 hw wr).1.sq.maxCnt
      rw [hrung]
      exact hbuilt.sges_lt

/-- Posting a receive leaves the send ring. -/
theorem postRecvTurn_sq (qp : Qp) (hw : Doorbell) (wr : RecvWr) :
    (postRecvTurn qp hw wr).2.1.sq = qp.sq := by
  rcases postRecvTurn_cases qp hw wr with hturn | ⟨-, hturn⟩
  · rw [hturn]
  · rw [hturn]
    exact (updateRqHead_keeps _ wr).2.1.trans
      (buildRqsges_builds qp wr).sq

theorem Sys.step_fits (s : Sys) (e : SysEvent) (h : s.qp.sq.Fits) :
    (s.step e).qp.sq.Fits := by
  cases e with
  | postSend wrs =>
      show (if _ then s.postSend wrs else s).qp.sq.Fits
      split
      · exact ⟨h.head_lt, h.sges_lt⟩
      · exact h
  | sendTurn =>
      show s.sendTurn.qp.sq.Fits
      unfold Sys.sendTurn
      cases s.sending with
      | nil => exact h
      | cons wr wrs => exact h.postSendTurn s.sqHw wr
  | postRecv wrs =>
      show (if _ then s.postRecv wrs else s).qp.sq.Fits
      split
      · exact ⟨h.head_lt, h.sges_lt⟩
      · exact h
  | recvTurn =>
      show s.recvTurn.qp.sq.Fits
      unfold Sys.recvTurn
      cases s.receiving with
      | nil => exact h
      | cons wr wrs =>
          have hsq := postRecvTurn_sq s.qp s.rqHw wr
          show (postRecvTurn s.qp s.rqHw wr).2.1.sq.Fits
          rw [hsq]
          exact h
  | sqConsume => exact h
  | rqConsume => exact h

theorem Sys.exec_fits (qp : Qp) (qpState : QpState)
    (hsges : qp.sq.maxSges + 1 < maxQpWr * maxSge)
    (events : List SysEvent) :
    (exec Sys.step (Sys.start qp qpState) events).qp.sq.Fits :=
  exec_inv (I := fun s => s.qp.sq.Fits) Sys.step_fits
    (s := Sys.start qp qpState) ⟨Nat.succ_pos 2047, hsges⟩ events

end Kernel

-- ==================================================================== both

/-- What the kernel calls the operation. -/
def kernelOpcode : User.WrOpcode → Kernel.WrOpcode
  | .rdmaWrite => .rdmaWrite
  | .rdmaWriteWithImm => .rdmaWriteWithImm
  | .send => .send
  | .sendWithImm => .sendWithImm
  | .rdmaRead => .rdmaRead
  | .sendWithInv => .sendWithInv
  | .other => .other

/-- The same request, posted through the library and in the kernel. -/
structure SameRequest (u : User.SendWr) (k : Kernel.SendWr) : Prop where
  opcode : k.opcode = kernelOpcode u.opcode
  sgList : k.sgList
    = u.sgList.map fun sge => ⟨sge.addr, sge.length, sge.lkey⟩
  value : k.ex = u.immData

theorem SameRequest.immediate {u : User.SendWr} {k : Kernel.SendWr}
    (h : SameRequest u k) (himm : u.Immediate) : k.Immediate := by
  unfold Kernel.SendWr.Immediate
  rw [h.opcode]
  rcases himm with hop | hop | hop
  · rw [hop]
    exact Or.inl rfl
  · rw [hop]
    exact Or.inr (Or.inl rfl)
  · rw [hop]
    exact Or.inr (Or.inr rfl)

/-- Both implementations conveyed to the same place the same immediate
data, where both have built an entry. -/
def SameImmdt (mrList : List User.MrSgInfo) (reply : Option User.SgPhyInfo)
    (u : User.Sys) (k : Kernel.Sys) (uwr : User.SendWr)
    (kwr : Kernel.SendWr) : Prop :=
  ((User.postSendTurn mrList u.qp u.regs uwr reply).2.1.sqVa
      u.qp.sq.head).immdt
    = ((Kernel.postSendTurn k.qp k.sqHw kwr).2.1.sqVa
        k.qp.sq.head).immdt

/-- The two agree on requests with keys, without elements, or with
nothing in the immediate data. -/
theorem sameImmdt_iff {mrList : List User.MrSgInfo}
    {reply : Option User.SgPhyInfo} {u : User.Sys} {k : Kernel.Sys}
    {uwr : User.SendWr} {kwr : Kernel.SendWr} (hroomy : u.qp.sq.Roomy)
    (hfits : k.qp.sq.Fits) (hsame : SameRequest uwr kwr)
    (himm : uwr.Immediate)
    (hnext : (User.postSendTurn mrList u.qp u.regs uwr reply).1 = .next)
    (hok : (Kernel.postSendTurn k.qp k.sqHw kwr).1 = 0)
    (hmoved : (User.postSendTurn mrList u.qp u.regs uwr reply).2.1.sq.head
      ≠ u.qp.sq.head)
    (hbuilt : (Kernel.buildWr k.qp kwr).2.sq.head ≠ k.qp.sq.head) :
    SameImmdt mrList reply u k uwr kwr
      ↔ uwr.opcode = .sendWithInv ∨ uwr.sgList = []
        ∨ uwr.immData = 0 := by
  have hnil : kwr.sgList = [] ↔ uwr.sgList = [] := by
    rw [hsame.sgList, List.map_eq_nil_iff]
  have hkey : kwr.opcode = .sendWithInv ↔ uwr.opcode = .sendWithInv := by
    rw [hsame.opcode]
    cases uwr.opcode with
    | rdmaWrite => simp [kernelOpcode]
    | rdmaWriteWithImm => simp [kernelOpcode]
    | send => simp [kernelOpcode]
    | sendWithImm => simp [kernelOpcode]
    | rdmaRead => simp [kernelOpcode]
    | sendWithInv => simp [kernelOpcode]
    | other => simp [kernelOpcode]
  have hkernel :=
    Kernel.first_immdt hfits (hsame.immediate himm) hok hbuilt
  unfold SameImmdt
  rw [User.first_immdt hroomy himm hnext hmoved, hkernel, hsame.value]
  simp only [hnil, ne_eq, hkey]
  by_cases hinv : uwr.opcode = .sendWithInv
  · simp [hinv]
  · by_cases hempty : uwr.sgList = []
    · simp [hinv, hempty]
    · have hzero : be32toh uwr.immData = 0 ↔ uwr.immData = 0 :=
        be32toh_eq_zero
      simpa [hinv, hempty] using hzero

-- ============================================================== the result

/-- Over all runs of a queue pair of the library and of one of the
driver: what conveys the value of an accepted request, on either side,
and when the two have the same immediate data in their first entries. -/
theorem immediate_conveyed_iff (c : User.CreateQp) (uState : QpState)
    (attr : QpChangeInfo) (hroom : c.maxSendSge + 1 < c.numWqeAllocated)
    (uEvents : List User.SysEvent) (kqp : Kernel.Qp) (kState : QpState)
    (hsges : kqp.sq.maxSges + 1 < Kernel.maxQpWr * Kernel.maxSge)
    (kEvents : List Kernel.SysEvent) :
    let u := exec User.Sys.step (User.Sys.start c uState attr) uEvents
    let k := exec Kernel.Sys.step (Kernel.Sys.start kqp kState) kEvents
    (∀ mrList reply (wr : User.SendWr), wr.Immediate →
      (User.postSendTurn mrList u.qp u.regs wr reply).1 = .next →
      (wr.Conveyed u.qp (User.postSendTurn mrList u.qp u.regs wr reply)
        ↔ wr.KeyFirst))
    ∧ (∀ wr : Kernel.SendWr, wr.Immediate →
      (Kernel.postSendTurn k.qp k.sqHw wr).1 = 0 →
      (wr.Conveyed k.qp k.sqHw ↔ wr.Survives k.qp))
    ∧ ∀ mrList reply uwr kwr, SameRequest uwr kwr → uwr.Immediate →
      (User.postSendTurn mrList u.qp u.regs uwr reply).1 = .next →
      (Kernel.postSendTurn k.qp k.sqHw kwr).1 = 0 →
      (User.postSendTurn mrList u.qp u.regs uwr reply).2.1.sq.head
        ≠ u.qp.sq.head →
      (Kernel.buildWr k.qp kwr).2.sq.head ≠ k.qp.sq.head →
      (SameImmdt mrList reply u k uwr kwr
        ↔ uwr.opcode = .sendWithInv ∨ uwr.sgList = []
          ∨ uwr.immData = 0) := by
  intro u k
  have hroomy : u.qp.sq.Roomy :=
    exec_inv (I := fun s : User.Sys => s.qp.sq.Roomy) User.Sys.step_roomy
      (User.Sys.start_roomy c uState attr hroom) uEvents
  have hfits : k.qp.sq.Fits :=
    Kernel.Sys.exec_fits kqp kState hsges kEvents
  refine ⟨fun mrList reply wr himm hnext => ?_,
    fun wr himm hok => Kernel.conveyed_iff hfits himm hok, ?_⟩
  · exact User.conveyed_iff hroomy himm hnext
  · intro mrList reply uwr kwr hsame himm hnext hok hmoved hbuilt
    exact sameImmdt_iff hroomy hfits hsame himm hnext hok hmoved hbuilt

/-- A send of one element with immediate data, in the library: the value
is conveyed. -/
theorem library_conveys_seven :
    let wr : User.SendWr :=
      { User.SendWr.nothing with
        opcode := .sendWithImm, sgList := [⟨0x4000, 64, 1⟩]
        immData := 7 }
    let u := User.Sys.start .connected .rts (User.QpChangeInfo.initial 0)
    wr.Conveyed u.qp (User.postSendTurn [] u.qp u.regs wr none) := by
  intro wr u
  exact ((immediate_conveyed_iff .connected .rts _ (by decide) []
    Kernel.sampleQp .rts (by decide) []).1 [] none wr (Or.inl rfl)
    (by decide +kernel)).2 (by decide)

/-- The same in the driver: the entry is rung with zeroes for it. -/
theorem driver_clears_seven :
    let wr : Kernel.SendWr :=
      { wrId := 7, sgList := [⟨0x4000, 64, 1⟩], opcode := .sendWithImm
        sendSignaled := true, sendInline := false, ex := 7
        remoteAddr := 0, rkey := 0, remoteQpn := 0, remoteQkey := 0 }
    let k := Kernel.Sys.start Kernel.sampleQp .rts
    (Kernel.postSendTurn k.qp k.sqHw wr).1 = 0
      ∧ (Kernel.postSendTurn k.qp k.sqHw wr).2.2.posted = 1
      ∧ ((Kernel.postSendTurn k.qp k.sqHw wr).2.1.sqVa 0).immdt = 0
      ∧ ¬ wr.Conveyed k.qp k.sqHw := by
  intro wr k
  have himmdt :
      ((Kernel.postSendTurn k.qp k.sqHw wr).2.1.sqVa 0).immdt = 0 := by
    decide +kernel
  refine ⟨by decide +kernel, by decide +kernel, himmdt, fun h => ?_⟩
  have hcarried : ((Kernel.postSendTurn k.qp k.sqHw wr).2.1.sqVa
      0).immdt = be32toh 7 := h.carried
  rw [himmdt] at hcarried
  exact absurd hcarried (by decide)

end BxRnic
