/-
The DMA addresses of the library's queue entries against the tables of
segments that registered regions come with.

A region's table goes through its bytes in order, the first segment
beginning at the in-page offset (`Kernel.shiftFirst`, as in the results
about registration). What the code makes of an address is the start of
the first segment plus the way to the address, in the first region of the
list that the address is in or at the end of. It looks neither at the
length of the element nor at the other segments, and an address in no
region leaves the entry with address 0.

`Sge.Lands` says when that is right all the same; the three copies of the
lookup (sends, RDMA requests, receives) have it in common.
-/
import BxRnic.Pair.Proofs.RegMr
import BxRnic.Pair.Proofs.RecvPlacement
import BxRnic.User.Proofs.Filling
import BxRnic.User.Proofs.Progress
import BxRnic.User.Proofs.RecvCompletions

namespace BxRnic.User

open Run Extent SlotRing

-- ================================================================= the regions

/-- A registered region with its table, as `dev->mr_list` has it. The
kernel turns down regions that run past the end of the address space. -/
structure Mr where
  iova : U64
  length : U32
  offset : U32
  sginfo : List SgPhyInfo
  noWrap : iova.toNat + length.toNat < 2 ^ 64

/-- What a lookup reads of it. A table of no elements is zeroed
memory. -/
def Mr.info (mr : Mr) : MrSgInfo where
  iova := mr.iova
  length := mr.length
  offset := mr.offset
  phyaddr := (mr.sginfo.head?.map SgPhyInfo.phyaddr).getD 0

/-- The memory a segment stands for. -/
def SgPhyInfo.extent (sg : SgPhyInfo) : Extent 64 :=
  ⟨sg.phyaddr, sg.size.toNat⟩

/-- The physical address of the region's byte `d`, as the table has
it. -/
def Mr.phys (mr : Mr) (d : Nat) : Option U64 :=
  (bytes (Kernel.shiftFirst mr.offset.toNat
    (mr.sginfo.map SgPhyInfo.extent)))[d]?

/-- The element's bytes are bytes of the region. -/
def Mr.Covers (mr : Mr) (sge : Sge) : Prop :=
  mr.iova.toNat ≤ sge.addr.toNat
    ∧ sge.addr.toNat + sge.length.toNat
      ≤ mr.iova.toNat + mr.length.toNat

/-- How far into the region the element begins. -/
def Mr.distance (mr : Mr) (sge : Sge) : Nat :=
  sge.addr.toNat - mr.iova.toNat

/-- The element's bytes lie one behind the other from `addr` on, by the
region's table. -/
def Mr.LiesAt (mr : Mr) (sge : Sge) (addr : U64) : Prop :=
  ∀ d < sge.length.toNat,
    mr.phys (mr.distance sge + d) = some (addr + BitVec.ofNat 64 d)

/-- Some region covers the element. -/
def Sge.Covered (sge : Sge) (mrs : List Mr) : Prop :=
  ∃ mr ∈ mrs, mr.Covers sge

-- ================================================================ the property

/-- An entry of this address and length reads or writes the element's
bytes. -/
def Sge.Described (sge : Sge) (mrs : List Mr) (addr : U64) (len : U32) :
    Prop :=
  len = sge.length ∧ ∃ mr ∈ mrs, mr.Covers sge ∧ mr.LiesAt sge addr

/-- The entries of the request, from the old head to the new, describe
its elements; and with an element that no region covers the request is
not accepted, and nothing is rung. -/
structure SendTranslated (mrs : List Mr) (qp : Qp) (regs : Regs)
    (wr : SendWr) (r : Turn × Qp × Regs) : Prop where
  described : r.1 = .next → ∀ (k : Nat) (hk : k < wr.numSge),
    qp.sq.head + k < r.2.1.sq.head →
    (wr.sgList[k]).Described mrs
      (r.2.1.sqVa (qp.sq.head + k)).localaddr
      (r.2.1.sqVa (qp.sq.head + k)).dmalen
  refused : (∃ sge ∈ wr.sgList, ¬ sge.Covered mrs) →
    r.1 ≠ .next ∧ ∀ status, r.1 = .stop status → r.2.2 = regs

/-- The same for receives. -/
structure RecvTranslated (mrs : List Mr) (qp : Qp) (regs : Regs)
    (wr : RecvWr) (r : Int × Qp × Regs) : Prop where
  described : r.1 = 0 → ∀ (k : Nat) (hk : k < wr.numSge),
    (wr.sgList[k]).Described mrs
      (r.2.1.rqVa (qp.rq.head + k)).descbaseaddr
      (r.2.1.rqVa (qp.rq.head + k)).dmalen
  refused : (∃ sge ∈ wr.sgList, ¬ sge.Covered mrs) →
    r.1 ≠ 0 ∧ r.2.2 = regs

-- =============================================================== the condition

/-- The region the lookup stops at: the address is in it, or at its
end. -/
def Mr.Meets (mr : Mr) (addr : U64) : Prop :=
  mr.iova.toNat ≤ addr.toNat
    ∧ addr.toNat ≤ mr.iova.toNat + mr.length.toNat

instance (mr : Mr) (addr : U64) : Decidable (mr.Meets addr) :=
  inferInstanceAs (Decidable (_ ∧ _))

/-- Where an address of the region would be if the first segment went
on. -/
def Mr.straight (mr : Mr) (sge : Sge) : U64 :=
  mr.info.phyaddr + BitVec.ofNat 64 mr.offset.toNat
    + BitVec.ofNat 64 (mr.distance sge)

/-- A region covers the element, and by its table the bytes lie one
behind the other where they would be if the first segment of the region
met first went on. -/
def Sge.Lands (sge : Sge) (mrs : List Mr) : Prop :=
  ∃ met, mrs.find? (fun mr => decide (mr.Meets sge.addr)) = some met
    ∧ ∃ mr ∈ mrs, mr.Covers sge ∧ mr.LiesAt sge (met.straight sge)

-- ================================================================ the lookup

theorem Mr.Covers.meets {mr : Mr} {sge : Sge} (h : mr.Covers sge) :
    mr.Meets sge.addr :=
  ⟨h.1, Nat.le_trans (Nat.le_add_right _ _) h.2⟩

/-- The test of the lookup. -/
theorem Mr.meets_iff (mr : Mr) (addr : U64) :
    mr.Meets addr ↔ mr.info.iova ≤ addr
      ∧ addr ≤ mr.info.iova + mr.info.length.setWidth 64 := by
  have hlen := mr.length.isLt
  have hwrap := mr.noWrap
  have hend : (mr.iova + mr.length.setWidth 64 : U64).toNat
      = mr.iova.toNat + mr.length.toNat := by
    rw [BitVec.toNat_add, BitVec.toNat_setWidth]
    omega
  unfold Mr.Meets Mr.info
  rw [BitVec.le_def, BitVec.le_def, hend]

/-- The lookup goes by the region met first. -/
theorem localDmaAddr_eq (mrs : List Mr) (sge : Sge) :
    localDmaAddr (mrs.map Mr.info) sge.addr
      = (mrs.find? fun mr => decide (mr.Meets sge.addr)).map
          fun mr => mr.straight sge := by
  induction mrs with
  | nil => rfl
  | cons mr mrs ih =>
      have htest := mr.meets_iff sge.addr
      unfold localDmaAddr at ih ⊢
      rw [List.map_cons, List.find?_cons, List.find?_cons]
      by_cases hmeets : mr.Meets sge.addr
      · rw [decide_eq_true hmeets, decide_eq_true (htest.1 hmeets)]
        have hdistance : sge.addr - mr.info.iova
            = BitVec.ofNat 64 (mr.distance sge) := by
          have hle := hmeets.1
          have haddr := sge.addr.isLt
          have hiova := mr.iova.isLt
          apply BitVec.eq_of_toNat_eq
          show (sge.addr - mr.iova).toNat
            = (BitVec.ofNat 64 (sge.addr.toNat - mr.iova.toNat)).toNat
          rw [BitVec.toNat_sub, BitVec.toNat_ofNat]
          omega
        have hoffset : (mr.info.offset.setWidth 64 : U64)
            = BitVec.ofNat 64 mr.offset.toNat :=
          (BitVec.ofNat_toNat 64 mr.offset).symm
        show some (mr.info.phyaddr + (sge.addr - mr.info.iova)
          + mr.info.offset.setWidth 64) = some (mr.straight sge)
        unfold Mr.straight
        rw [hdistance, hoffset, BitVec.add_assoc, BitVec.add_assoc,
          BitVec.add_comm (BitVec.ofNat 64 (mr.distance sge))]
      · rw [decide_eq_false hmeets, decide_eq_false (mt htest.2 hmeets)]
        exact ih

/-- An entry with the address looked up describes the element just when
the condition holds. -/
theorem Sge.described_iff (sge : Sge) (mrs : List Mr) :
    sge.Described mrs
        ((localDmaAddr (mrs.map Mr.info) sge.addr).getD 0) sge.length
      ↔ sge.Lands mrs := by
  rw [localDmaAddr_eq]
  unfold Sge.Described Sge.Lands
  cases hfind : mrs.find? fun mr => decide (mr.Meets sge.addr) with
  | none =>
      have hnot := List.find?_eq_none.1 hfind
      constructor
      · intro ⟨_, mr, hmr, hcovers, _⟩
        exact absurd (decide_eq_true hcovers.meets) (hnot mr hmr)
      · intro ⟨met, hmet, _⟩
        cases hmet
  | some met => simp

theorem Sge.Lands.covered {sge : Sge} {mrs : List Mr}
    (h : sge.Lands mrs) : sge.Covered mrs := by
  obtain ⟨_, _, mr, hmr, hcovers, _⟩ := h
  exact ⟨mr, hmr, hcovers⟩

-- ================================================================ the sends

/-- The body of an element's entry holds its length, and the address
looked up. -/
theorem elementBodies_get {mrList : List MrSgInfo} {first : WqeBody}
    (hfirst : first.localaddr = 0) {sgList : List Sge} {k : Nat}
    (hk : k < sgList.length)
    (hk' : k < (elementBodies mrList first sgList).length) :
    (elementBodies mrList first sgList)[k].localaddr
        = (localDmaAddr mrList (sgList[k]).addr).getD 0
      ∧ (elementBodies mrList first sgList)[k].dmalen
        = (sgList[k]).length := by
  cases sgList with
  | nil => cases hk
  | cons sge sgList =>
      cases k with
      | zero => simp [elementBodies, Sge.body, hfirst]
      | succ k => simp [elementBodies, Sge.body, WqeBody.zero]

theorem bodies_get {mrList : List MrSgInfo} {wr : SendWr} {k : Nat}
    (hk : k < wr.numSge) (hk' : k < (wr.bodies mrList).length) :
    (wr.bodies mrList)[k].localaddr
        = (localDmaAddr mrList (wr.sgList[k]).addr).getD 0
      ∧ (wr.bodies mrList)[k].dmalen = (wr.sgList[k]).length := by
  have hstart : wr.startBody.localaddr = 0 := by
    unfold SendWr.startBody
    split
    · rfl
    · rfl
    · rfl
  have hne : wr.sgList ≠ [] := by
    intro hnil
    rw [SendWr.numSge, hnil] at hk
    cases hk
  have hbodies : wr.bodies mrList
      = elementBodies mrList wr.startBody wr.sgList := by
    unfold SendWr.bodies
    rw [if_neg fun h => hne h.1]
  simp only [hbodies]
  exact elementBodies_get hstart hk _

/-- The entry of an element of a request that is built. -/
theorem postSendTurn_entry (mrList : List MrSgInfo) {qp : Qp}
    (regs : Regs) {wr : SendWr} {reply : Option SgPhyInfo}
    (hroomy : qp.sq.Roomy) (hready : wr.Ready qp)
    (h : wr.Buildable qp reply) {k : Nat} (hk : k < wr.numSge) :
    let qp' := (postSendTurn mrList qp regs wr reply).2.1
    (qp'.sqVa (qp.sq.head + k)).localaddr
        = (localDmaAddr mrList (wr.sgList[k]).addr).getD 0
      ∧ (qp'.sqVa (qp.sq.head + k)).dmalen = (wr.sgList[k]).length := by
  intro qp'
  have hlength : k < (wr.bodies mrList).length := by
    rw [length_bodies]
    split
    · rename_i hnil
      rw [SendWr.numSge, hnil.1] at hk
      cases hk
    · exact hk
  have hbody : qp'.bodies (qp.sq.head + k) = (wr.bodies mrList)[k] := by
    show (postSendTurn mrList qp regs wr reply).2.1.bodies _ = _
    rw [postSendTurn_ready_qp hready]
    exact buildWr_filled h (hready.room hroomy) k hlength
  obtain ⟨haddr, hlen⟩ := bodies_get hk hlength
  exact ⟨(congrArg WqeBody.localaddr hbody).trans haddr,
    (congrArg WqeBody.dmalen hbody).trans hlen⟩

/-- The head after a request that was accepted. -/
theorem postSendTurn_head (mrList : List MrSgInfo) {qp : Qp}
    (regs : Regs) {wr : SendWr} {reply : Option SgPhyInfo}
    (hroomy : qp.sq.Roomy) (hready : wr.Ready qp)
    (hok : ¬ wr.Fails qp reply) :
    (postSendTurn mrList qp regs wr reply).2.1.sq.head
      = qp.sq.head + wr.entries qp := by
  have hnext := postSendTurn_accepts hready hok mrList regs
  have hturn := postSendTurn_cases mrList qp regs wr reply
  generalize postSendTurn mrList qp regs wr reply = r at hturn hnext
  cases hturn with
  | again _ => cases hnext
  | stop _ _ => cases hnext
  | next _ _ htakes =>
      have hhead := congrArg HwqInfo.head htakes.sq_eq
      rwa [HwqInfo.advance_eq (hready.room hroomy)] at hhead

/-- The condition on a send. A read is accepted even when its entries
cannot be built, and then there is nothing to land. -/
def SendWr.Lands (wr : SendWr) (mrs : List Mr) (qp : Qp)
    (reply : Option SgPhyInfo) : Prop :=
  wr.Ready qp → ¬ wr.Fails qp reply → ∀ sge ∈ wr.sgList,
    sge.Covered mrs ∧ (wr.Buildable qp reply → sge.Lands mrs)

/-- Sends and RDMA requests. -/
theorem sendTranslated_iff (mrs : List Mr) {qp : Qp} (regs : Regs)
    (wr : SendWr) (reply : Option SgPhyInfo) (hroomy : qp.sq.Roomy) :
    SendTranslated mrs qp regs wr
        (postSendTurn (mrs.map Mr.info) qp regs wr reply)
      ↔ wr.Lands mrs qp reply := by
  by_cases haccepted : wr.Ready qp ∧ ¬ wr.Fails qp reply
  · obtain ⟨hready, hok⟩ := haccepted
    have hnext := postSendTurn_accepts hready hok (mrs.map Mr.info) regs
    have hhead := postSendTurn_head (mrs.map Mr.info) regs hroomy hready
      hok
    have hentry := fun (h : wr.Buildable qp reply) (k : Nat) =>
      @postSendTurn_entry (mrs.map Mr.info) qp regs wr reply hroomy
        hready h k
    constructor
    · intro h _ _ sge hmem
      have hcovered : sge.Covered mrs := by
        by_contra hnot
        exact (h.refused ⟨sge, hmem, hnot⟩).1 hnext
      refine ⟨hcovered, fun hbuildable => ?_⟩
      obtain ⟨k, hk, rfl⟩ := List.getElem_of_mem hmem
      have hentries : wr.entries qp = wr.numSge := by
        rw [← hbuildable.length_bodies (mrs.map Mr.info), length_bodies,
          if_neg]
        intro hnil
        rw [hnil.1] at hk
        cases hk
      have hbelow : qp.sq.head + k < qp.sq.head + wr.numSge :=
        Nat.add_lt_add_left hk qp.sq.head
      have hdescribed := h.described hnext k hk
        (by rw [hhead, hentries]; exact hbelow)
      obtain ⟨haddr, hlen⟩ := hentry hbuildable k hk
      rw [haddr, hlen] at hdescribed
      exact (Sge.described_iff _ mrs).1 hdescribed
    · intro h
      have hlands := h hready hok
      refine ⟨fun _ k hk hbelow => ?_, fun ⟨sge, hmem, hnot⟩ => ?_⟩
      · have hbuildable : wr.Buildable qp reply := by
          by_contra hnot
          rw [hhead, wr.entries_of_not_buildable hok hnot] at hbelow
          omega
        obtain ⟨haddr, hlen⟩ := hentry hbuildable k hk
        rw [haddr, hlen]
        exact (Sge.described_iff _ mrs).2
          ((hlands _ (List.getElem_mem hk)).2 hbuildable)
      · exact absurd (hlands sge hmem).1 hnot
  · have hrefused : (postSendTurn (mrs.map Mr.info) qp regs wr reply).1
        ≠ .next := by
      have hturn :=
        postSendTurn_cases (mrs.map Mr.info) qp regs wr reply
      generalize postSendTurn (mrs.map Mr.info) qp regs wr reply = r
        at hturn
      cases hturn with
      | next hready hok _ => exact absurd ⟨hready, hok⟩ haccepted
      | again _ => exact Turn.noConfusion
      | stop _ _ => exact Turn.noConfusion
    refine iff_of_true ⟨fun hnext => absurd hnext hrefused,
      fun _ => ⟨hrefused, fun _ => postSendTurn_stop⟩⟩ ?_
    exact fun hready hok => absurd ⟨hready, hok⟩ haccepted

-- ============================================================== the receives

/-- The condition on a receive. -/
def RecvWr.Lands (wr : RecvWr) (mrs : List Mr) (qp : Qp) : Prop :=
  wr.Accepted qp → ∀ sge ∈ wr.sgList, sge.Lands mrs

/-- The entry of an element of an accepted receive. -/
theorem postRecvTurn_entry (mrList : List MrSgInfo) {qp : Qp}
    (regs : Regs) {wr : RecvWr} (h : wr.Accepted qp) {k : Nat}
    (hk : k < wr.numSge) :
    (postRecvTurn mrList qp regs wr).2.1.rqVa (qp.rq.head + k)
      = recvRqe mrList (wr.sgList[k]) := by
  have hne : wr.sgList ≠ [] := by
    intro hnil
    rw [RecvWr.numSge, hnil] at hk
    cases hk
  rw [postRecvTurn_accepted (postRecvTurn_ok mrList regs h)]
  have hhead : ∀ qp' : Qp, (updateRqHead qp' wr).rqVa = qp'.rqVa := by
    intro qp'
    unfold updateRqHead
    split
    · rfl
    · rfl
  show (updateRqHead (buildRqsges mrList qp wr) wr).rqVa _ = _
  rw [hhead, buildRqsges, if_neg hne, buildRqsgesLoop_eq]
  have hk' : k < (wr.sgList.map (recvRqe mrList)).length := by
    rw [List.length_map]
    exact hk
  exact (storeFrom_get hk').trans (List.getElem_map _)

theorem recvTranslated_iff (mrs : List Mr) (qp : Qp) (regs : Regs)
    (wr : RecvWr) :
    RecvTranslated mrs qp regs wr
        (postRecvTurn (mrs.map Mr.info) qp regs wr)
      ↔ wr.Lands mrs qp := by
  by_cases haccepted : wr.Accepted qp
  · have hok := postRecvTurn_ok (mrs.map Mr.info) regs haccepted
    have hentry := fun (k : Nat) =>
      @postRecvTurn_entry (mrs.map Mr.info) qp regs wr haccepted k
    constructor
    · intro h _ sge hmem
      obtain ⟨k, hk, rfl⟩ := List.getElem_of_mem hmem
      have hdescribed := h.described hok k hk
      rw [hentry k hk] at hdescribed
      exact (Sge.described_iff _ mrs).1 hdescribed
    · intro h
      have hlands := h haccepted
      refine ⟨fun _ k hk => ?_, fun ⟨sge, hmem, hnot⟩ => ?_⟩
      · rw [hentry k hk]
        exact (Sge.described_iff _ mrs).2
          (hlands _ (List.getElem_mem hk))
      · exact absurd (hlands sge hmem).covered hnot
  · obtain ⟨hrefused, hkept⟩ :=
      postRecvTurn_refused (mrs.map Mr.info) qp regs haccepted
    refine iff_of_true ⟨fun hok => absurd hok hrefused,
      fun _ => ⟨hrefused, by rw [hkept]⟩⟩ ?_
    exact fun h => absurd h haccepted

-- ============================================================== the result

/-- Over every run of a queue pair and for every list of regions: the
entries of a request describe its elements just when the elements
land. -/
theorem translated_iff (c : CreateQp) (qpState : QpState)
    (attr : QpChangeInfo) (hroom : c.maxSendSge + 1 < c.numWqeAllocated)
    (events : List SysEvent) (mrs : List Mr) :
    let s := exec Sys.step (Sys.start c qpState attr) events
    (∀ (wr : SendWr) (reply : Option SgPhyInfo),
      SendTranslated mrs s.qp s.regs wr
          (postSendTurn (mrs.map Mr.info) s.qp s.regs wr reply)
        ↔ wr.Lands mrs s.qp reply)
    ∧ ∀ wr : RecvWr,
      RecvTranslated mrs s.qp s.regs wr
          (postRecvTurn (mrs.map Mr.info) s.qp s.regs wr)
        ↔ wr.Lands mrs s.qp := by
  intro s
  have hroomy : s.qp.sq.Roomy :=
    exec_inv (I := fun s : Sys => s.qp.sq.Roomy) Sys.step_roomy
      (Sys.start_roomy c qpState attr hroom) events
  refine ⟨fun wr reply => ?_, fun wr => ?_⟩
  · exact sendTranslated_iff mrs s.regs wr reply hroomy
  · exact recvTranslated_iff mrs s.qp s.regs wr

/-- An element in the first segment of the region it is met in lands. -/
theorem Sge.lands_of_first {sge : Sge} {mrs : List Mr} {met : Mr}
    (hmet : mrs.find? (fun mr => decide (mr.Meets sge.addr)) = some met)
    (hcovers : met.Covers sge) {sg : SgPhyInfo} {sgs : List SgPhyInfo}
    (htable : met.sginfo = sg :: sgs)
    (hfirst : met.distance sge + sge.length.toNat ≤ sg.size.toNat) :
    sge.Lands mrs := by
  refine ⟨met, hmet, met, List.mem_of_find?_eq_some hmet, hcovers, ?_⟩
  intro d hd
  have hlt : met.distance sge + d
      < (run (sg.phyaddr + BitVec.ofNat 64 met.offset.toNat)
          sg.size.toNat).length := by
    rw [length_run]
    omega
  have hstart : met.info.phyaddr = sg.phyaddr := by
    simp [Mr.info, htable]
  unfold Mr.phys Mr.straight
  rw [htable, List.map_cons]
  show (run (sg.phyaddr + BitVec.ofNat 64 met.offset.toNat)
    sg.size.toNat ++ _)[met.distance sge + d]? = _
  rw [List.getElem?_append_left hlt, List.getElem?_eq_getElem hlt,
    hstart, BitVec.add_assoc, ← BitVec.ofNat_add]
  simp [run]

/-- A page, registered from its byte 0x40 on. -/
def Mr.page : Mr where
  iova := 0x10040
  length := 0x800
  offset := 0x40
  sginfo := [⟨0x7000000, 0x800⟩]
  noWrap := by decide

/-- A send from inside the page. -/
theorem page_translated :
    let sge : Sge := ⟨0x10100, 64, 1⟩
    let wr : SendWr := { SendWr.nothing with sgList := [sge] }
    let s := Sys.start .connected .rts (QpChangeInfo.initial 0)
    SendTranslated [.page] s.qp s.regs wr
      (postSendTurn [Mr.page.info] s.qp s.regs wr none) := by
  intro sge wr s
  refine ((translated_iff .connected .rts _ (by decide) []
    [.page]).1 wr none).2 fun _ _ sge' hmem => ?_
  obtain rfl : sge' = sge := List.mem_singleton.1 hmem
  have hmet : [Mr.page].find? (fun mr => decide (mr.Meets sge.addr))
      = some .page := List.find?_cons_of_pos (by decide)
  have hlands : sge.Lands [.page] :=
    Sge.lands_of_first hmet (by unfold Mr.Covers; decide) rfl
      (by decide)
  exact ⟨hlands.covered, fun _ => hlands⟩

/-- A send from an address that was never registered: it is accepted, and
the entry that is rung reads from address 0. -/
theorem unregistered_sent :
    let wr : SendWr :=
      { SendWr.nothing with sgList := [⟨0x4000, 64, 1⟩] }
    let s := Sys.start .connected .rts (QpChangeInfo.initial 0)
    let r := postSendTurn [] s.qp s.regs wr none
    r.1 = .next ∧ r.2.2.sqWp = 1 ∧ (r.2.1.sqVa 0).localaddr = 0
      ∧ (r.2.1.sqVa 0).dmalen = 64
      ∧ ¬ SendTranslated [] s.qp s.regs wr r := by
  intro wr s r
  have hnext : r.1 = .next := by decide +kernel
  refine ⟨hnext, by decide +kernel, by decide +kernel,
    by decide +kernel, fun h => ?_⟩
  refine (h.refused ⟨⟨0x4000, 64, 1⟩, List.mem_singleton.2 rfl, ?_⟩).1
    hnext
  intro ⟨mr, hmr, _⟩
  cases hmr

end BxRnic.User
