/-
The remembered translation against the server's: whether an RDMA post
that goes ahead uses the address the server would give for it at that
moment, and whether a hit answers for a region the request may use.

# The regions

The server loses track of what is registered (Exchange/Proofs/Registry),
so a run keeps the regions beside it, as its requests make and remove
them (`Site`). A hit has to answer for one of these, under the request's
own key and with the address inside it.

# Hits

A hit asks nobody. It answers with the address the remembered interval
gives, so it is right exactly when the server still has a region for the
request's own key over that address, and that region is displaced from
virtual to DMA addresses by as much as the remembered interval is
(`SameDisplacement`), and when there is such a region among those that
are registered. Neither the key nor the region the interval came from
enters the test.

# Misses

A miss that the server answers is right. A write whose exchange fails
stops; a read goes on with whatever `addrtbl` held before, which is
right only if that happens to be the answer.

The table's first contents are arbitrary in everything that follows.
-/
import BxRnic.Exchange.Proofs.Registry
import BxRnic.User.Remote
import BxRnic.User.Lifecycle
import BxRnic.User.Proofs.Entries
import BxRnic.Lib.Run
import Mathlib.Tactic.Ring

namespace BxRnic.User

open Word Run
open Exchange (Server MrPhyInfo Registry.after readMatches)

-- ========================================================== the property

/-- A queue pair and the server, and the regions that were registered and
have not been removed. -/
structure Site where
  peer : Peer
  regions : List MrPhyInfo

/-- One step of a run. -/
def Site.step (s : Site) (e : Event) : Site where
  peer := s.peer.step e
  regions :=
    match e with
    | .request req => Registry.after s.regions req.vaddr
    | .post _ => s.regions

/-- A region that is registered under the request's own key, has the
address inside and the property. -/
def Site.Registered (s : Site) (wr : SendWr) (good : MrPhyInfo → Prop) :
    Prop :=
  ∃ mr ∈ s.regions, mr.rkey = wr.rkey
    ∧ mr.vaddr ≤ wr.remoteAddr
    ∧ wr.remoteAddr - mr.vaddr < mr.len.setWidth 64
    ∧ good mr

/-- The entries of an RDMA request can be built. -/
def SendWr.writeBuilds (wr : SendWr) (qp : Qp) : Bool :=
  !wr.inlineRefused qp && !writeRefused qp.qpType wr

/-- A post that goes ahead uses the server's translation of its own key
and address, in the queue pair and in every entry it builds; and if
nobody was asked, the address is that of its byte in a region that is
registered under its key. -/
def Agrees (s : Site) : Event → Prop
  | .request _ => True
  | .post p =>
      let out := s.peer.post p
      out.1 = 0 →
        translate s.peer.world.srv p.wr.rkey p.wr.remoteAddr
            = some out.2.rdmaAddr
          ∧ (p.wr.writeBuilds s.peer.qp = true →
            ∀ k < entriesOf .rdmaWriteWithImm p.wr,
              (out.2.sqVa (s.peer.qp.sq.advance k).head).destaddr
                = out.2.rdmaAddr)
          ∧ (s.peer.qp.addrtbl.covers p.wr.remoteAddr →
            s.Registered p.wr fun mr =>
              out.2.rdmaAddr = mr.phyaddr + (p.wr.remoteAddr - mr.vaddr))

-- ========================================================= the condition

/-- How far an interval moves the address: the distance between its two
bases, less 4 GiB from an offset of 2 GiB on. -/
def displacement (dmaaddr vaddr addr : U64) : U64 :=
  dmaaddr - vaddr
    - if 2 ^ 31 ≤ (addr - vaddr).toNat then 0x100000000#64 else 0#64

/-- The remembered interval and the region move the address by the same
amount. -/
def SameDisplacement (tbl : QpAddrtbl) (mr : MrPhyInfo) (addr : U64) :
    Prop :=
  displacement tbl.dmaaddr tbl.vaddr addr
    = displacement mr.phyaddr mr.vaddr addr

/-- The server has a region for the request, and it has the property. -/
def Peer.RegionWith (s : Peer) (wr : SendWr) (good : MrPhyInfo → Prop) :
    Prop :=
  ∃ i, s.world.srv.scan (readMatches wr.rkey wr.remoteAddr) = some i
    ∧ good (s.world.srv.mrPool i)

/-- The entries of a write cannot be built, so that it does not go
ahead. -/
def writeStops (qp : Qp) (wr : SendWr) : Prop :=
  wr.inlineRefused qp = true
    ∨ writeRefused qp.qpType wr = true ∧ entriesOf .rdmaWriteWithImm wr ≠ 0

/-- The condition on a post and the state it meets. -/
def PostOk (s : Site) (p : Post) : Prop :=
  let tbl := s.peer.qp.addrtbl
  let addr := p.wr.remoteAddr
  if tbl.covers addr then
    p.op = .write ∧ writeStops s.peer.qp p.wr
      ∨ (s.peer.RegionWith p.wr fun mr => SameDisplacement tbl mr addr)
        ∧ s.Registered p.wr fun mr =>
          displacement tbl.dmaaddr tbl.vaddr addr = mr.phyaddr - mr.vaddr
  else
    p.op = .write
      ∨ s.peer.RegionWith p.wr fun mr =>
        p.connected = true ∧ displacement mr.phyaddr mr.vaddr addr ≠ 0
          -- the exchange fails, and the table happens to be right
          ∨ displacement mr.phyaddr mr.vaddr addr = tbl.dmaaddr - addr

/-- The condition on an event. -/
def EventOk (s : Site) : Event → Prop
  | .request _ => True
  | .post p => PostOk s p

-- ============================================================ the offsets

/-- An address inside an interval is less than 4 GiB from its base. -/
theorem offset_lt {vaddr addr : U64} {len : U32}
    (hlow : vaddr ≤ addr) (hhigh : addr ≤ vaddr + len.setWidth 64) :
    (addr - vaddr).toNat < 2 ^ 32 := by
  have hlen := len.isLt
  rw [BitVec.le_def] at hlow hhigh
  rw [BitVec.toNat_add, BitVec.toNat_setWidth] at hhigh
  rw [BitVec.toNat_sub]
  omega

/-- Where an interval puts an address inside it. -/
theorem add_intOffset {dmaaddr vaddr addr : U64}
    (h : (addr - vaddr).toNat < 2 ^ 32) :
    dmaaddr + intOffset (addr - vaddr)
      = addr + displacement dmaaddr vaddr addr := by
  rw [intOffset_eq h, displacement]
  ring

/-- Where a region over the address puts it. -/
private theorem regionDma_eq {mr : MrPhyInfo} {rkey : U32} {addr : U64}
    (hmr : readMatches rkey addr mr = true) :
    regionDma mr addr = addr + displacement mr.phyaddr mr.vaddr addr := by
  obtain ⟨-, hlow, hhigh⟩ := of_decide_eq_true hmr
  rw [regionDma, add_intOffset (offset_lt hlow hhigh)]

/-- The remembered interval and a region over the address agree on it
iff they move it by the same amount. -/
private theorem regionDma_eq_iff {tbl : QpAddrtbl} {mr : MrPhyInfo}
    {rkey : U32} {addr : U64} (hcov : tbl.covers addr)
    (hmr : readMatches rkey addr mr = true) :
    regionDma mr addr = tbl.dmaAddr addr ↔ SameDisplacement tbl mr addr := by
  rw [regionDma_eq hmr, QpAddrtbl.dmaAddr,
    add_intOffset (offset_lt hcov.1 hcov.2), add_right_inj,
    SameDisplacement, eq_comm]

/-- The remembered interval puts the address where a region that is
registered has it iff it moves it by the same amount. -/
private theorem registered_iff {s : Site} {wr : SendWr} {tbl : QpAddrtbl}
    (hcov : tbl.covers wr.remoteAddr) :
    (s.Registered wr fun mr => tbl.dmaAddr wr.remoteAddr
        = mr.phyaddr + (wr.remoteAddr - mr.vaddr))
      ↔ s.Registered wr fun mr =>
        displacement tbl.dmaaddr tbl.vaddr wr.remoteAddr
          = mr.phyaddr - mr.vaddr := by
  have hmoves : ∀ mr : MrPhyInfo,
      mr.phyaddr + (wr.remoteAddr - mr.vaddr)
        = wr.remoteAddr + (mr.phyaddr - mr.vaddr) := fun mr => by ring
  unfold Site.Registered
  simp only [hmoves, QpAddrtbl.dmaAddr,
    add_intOffset (offset_lt hcov.1 hcov.2), add_right_inj]

/-- The condition on a miss, by the addresses the server would give. -/
private theorem miss_iff {s : Peer} {wr : SendWr} {connected : Bool}
    {stale : U64} :
    (s.RegionWith wr fun mr =>
        connected = true
            ∧ displacement mr.phyaddr mr.vaddr wr.remoteAddr ≠ 0
          ∨ displacement mr.phyaddr mr.vaddr wr.remoteAddr
            = stale - wr.remoteAddr)
      ↔ connected = true
          ∧ (s.RegionWith wr
            fun mr => regionDma mr wr.remoteAddr ≠ wr.remoteAddr)
        ∨ s.RegionWith wr fun mr => regionDma mr wr.remoteAddr = stale := by
  have hmoves : ∀ {i : Nat}, s.world.srv.scan
      (readMatches wr.rkey wr.remoteAddr) = some i →
      regionDma (s.world.srv.mrPool i) wr.remoteAddr = wr.remoteAddr
        + displacement (s.world.srv.mrPool i).phyaddr
          (s.world.srv.mrPool i).vaddr wr.remoteAddr := fun hi =>
    regionDma_eq (Exchange.Server.scan_eq_some.1 hi).1
  constructor
  · rintro ⟨i, hi, ⟨hconn, hne⟩ | heq⟩
    · refine Or.inl ⟨hconn, i, hi, ?_⟩
      dsimp only
      rw [hmoves hi]
      exact fun hsame => hne (add_eq_left.1 hsame)
    · refine Or.inr ⟨i, hi, ?_⟩
      dsimp only
      rw [hmoves hi, heq, add_sub_cancel]
  · rintro (⟨hconn, i, hi, hne⟩ | ⟨i, hi, heq⟩)
    · rw [hmoves hi] at hne
      exact ⟨i, hi, Or.inl ⟨hconn, fun hzero => hne (by
        rw [hzero, add_zero])⟩⟩
    · rw [hmoves hi] at heq
      exact ⟨i, hi, Or.inr (eq_sub_of_add_eq' heq)⟩

/-- The translation is `a` iff some region gives `a`. -/
private theorem translate_eq_some_iff {s : Peer} {wr : SendWr} {a : U64} :
    translate s.world.srv wr.rkey wr.remoteAddr = some a
      ↔ s.RegionWith wr fun mr => regionDma mr wr.remoteAddr = a := by
  simp [translate, Peer.RegionWith]

-- ====================================================== what is built

/-- The entries of an RDMA request, built: they all carry the translated
address, which stays what it was. Entries that carried it before still
do, which is what the induction goes through on. -/
private theorem buildSgesLoop_destaddr (imm : WrOpcode)
    (mrList : List MrSgInfo) {wr : SendWr} (sgList : List Sge) :
    ∀ (qp : Qp) (i : Nat), writeRefused qp.qpType wr = false →
      let out := (buildSgesLoop imm prepareWriteWqe mrList wr qp i sgList).2
      out.rdmaAddr = qp.rdmaAddr
        ∧ (∀ j, (qp.sqVa j).destaddr = qp.rdmaAddr →
            (out.sqVa j).destaddr = qp.rdmaAddr)
        ∧ ∀ k < sgList.length,
            (out.sqVa (qp.sq.advance k).head).destaddr = qp.rdmaAddr := by
  induction sgList with
  | nil =>
      intro qp i _
      exact ⟨rfl, fun j hj => hj, fun k hk => absurd hk (Nat.not_lt_zero k)⟩
  | cons sge sgList ih =>
      intro qp i hr
      unfold buildSgesLoop
      generalize startWqe imm mrList qp wr i sge = wqe
      obtain ⟨hstatus, mac, hqp⟩ :=
        prepareWriteWqe_prepares.records qp wqe wr hr
      have hdest := prepareWriteWqe_destaddr hstatus
      simp only [hstatus, ne_eq, not_true_eq_false, if_false, hqp]
      generalize hbuilt : ({ (prepareWriteWqe qp wqe wr).2.2 with
        lkey := sge.lkey, dmalen := sge.length } : Wqe) = built
      have hslot : built.destaddr = qp.rdmaAddr := by
        rw [← hbuilt]
        exact hdest
      obtain ⟨haddr, hkeep, hnew⟩ := ih
        ((recordWrId { qp with attr := { qp.attr with
          macAddr := mac } } wr).putWqe built).incSqHead (i + 1) hr
      refine ⟨haddr, fun j hj => hkeep j ?_, fun k hk => ?_⟩
      · show (Function.update qp.sqVa qp.sq.head built j).destaddr = _
        by_cases hhead : j = qp.sq.head
        · rw [hhead, Function.update_self]
          exact hslot
        · rw [Function.update_of_ne hhead]
          exact hj
      · cases k with
        | zero =>
            refine hkeep _ ?_
            show (Function.update qp.sqVa qp.sq.head built
              qp.sq.head).destaddr = _
            rw [Function.update_self]
            exact hslot
        | succ k => exact hnew k (Nat.lt_of_succ_lt_succ hk)

/-- The status of building a write's entries. -/
private theorem buildwriteInlineSges_status (mrList : List MrSgInfo)
    (qp : Qp) (wr : SendWr) :
    (buildwriteInlineSges mrList qp wr).1 = 0 ↔ ¬ writeStops qp wr := by
  have hnz : EINVAL ≠ 0 := by decide
  have hneg : -EINVAL ≠ 0 := by decide
  unfold buildwriteInlineSges writeStops
  by_cases hin : wr.inlineRefused qp = true
  · simp [hin, hneg]
  · rw [if_neg hin]
    unfold buildwriteSges
    by_cases hnone : entriesOf .rdmaWriteWithImm wr = 0
    · simp [buildSgesWith_none hnone, hin, hnone]
    · cases hr : writeRefused qp.qpType wr with
      | true =>
          simp [(buildSgesWith_refused prepareWriteWqe_prepares _ hr
            hnone).1, hnz, hnone]
      | false =>
          simp [(buildSgesWith_built prepareWriteWqe_prepares _ _ hr).1,
            hin]

/-- No entry of an RDMA request touches the translated address. -/
private theorem prepareWriteWqe_rdmaAddr (qp : Qp) (wqe : Wqe)
    (wr : SendWr) :
    (prepareWriteWqe qp wqe wr).2.1.rdmaAddr = qp.rdmaAddr := by
  cases hr : writeRefused qp.qpType wr with
  | true => rw [(prepareWriteWqe_prepares.fails qp wqe wr hr).2]
  | false =>
      obtain ⟨-, mac, hqp⟩ := prepareWriteWqe_prepares.records qp
        wqe wr hr
      rw [hqp]
      rfl

/-- Building a write's entries keeps the translated address, and every
entry of a request that can be built carries it. -/
private theorem buildwriteInlineSges_destaddr (mrList : List MrSgInfo)
    (qp : Qp) (wr : SendWr) :
    let out := (buildwriteInlineSges mrList qp wr).2
    out.rdmaAddr = qp.rdmaAddr
      ∧ (wr.writeBuilds qp = true →
        ∀ k < entriesOf .rdmaWriteWithImm wr,
          (out.sqVa (qp.sq.advance k).head).destaddr = qp.rdmaAddr) := by
  unfold buildwriteInlineSges SendWr.writeBuilds
  by_cases hin : wr.inlineRefused qp = true
  · simp only [hin]
    exact ⟨rfl, fun h => by simp at h⟩
  rw [if_neg hin]
  unfold buildwriteSges buildSgesWith
  by_cases himm : wr.sgList = [] ∧ wr.opcode = .rdmaWriteWithImm
  · rw [if_pos himm]
    refine ⟨prepareWriteWqe_rdmaAddr _ _ _, fun hbuilds k hk => ?_⟩
    rw [entriesOf, if_pos himm] at hk
    obtain rfl : k = 0 := by omega
    -- the one entry, without elements
    have hr : writeRefused qp.qpType wr = false := by
      rw [Bool.and_eq_true] at hbuilds
      simpa using hbuilds.2
    obtain ⟨hstatus, mac, hqp⟩ := prepareWriteWqe_prepares.records qp
      (qp.sqVa qp.sq.head) wr hr
    have hdest := prepareWriteWqe_destaddr hstatus
    simp only [hqp]
    show (Function.update qp.sqVa qp.sq.head _ qp.sq.head).destaddr = _
    rw [Function.update_self]
    exact hdest
  rw [if_neg himm]
  have hentries : entriesOf .rdmaWriteWithImm wr = wr.numSge :=
    if_neg himm
  cases hr : writeRefused qp.qpType wr with
  | false =>
      obtain ⟨haddr, -, hnew⟩ := buildSgesLoop_destaddr
        .rdmaWriteWithImm mrList wr.sgList qp 0 hr
      rw [hentries]
      exact ⟨haddr, fun _ => hnew⟩
  | true =>
      refine ⟨?_, fun h => by simp at h⟩
      cases wr.sgList with
      | nil => rfl
      | cons sge sgList =>
          unfold buildSgesLoop
          generalize startWqe _ mrList qp wr 0 sge = wqe
          obtain ⟨hstatus, hqp⟩ :=
            prepareWriteWqe_prepares.fails qp wqe wr hr
          have hnz : EINVAL ≠ 0 := by decide
          simp only [hstatus, hnz, ne_eq, not_false_eq_true, if_true, hqp]
          rfl

-- ============================================================== one post

/-- The status and queue pair of a post whose address is settled. -/
private def settledPost (p : Post) (qp : Qp) : Int × Qp :=
  match p.op with
  | .write => buildwriteInlineSges p.mrList qp p.wr
  | .read => (0, (buildwriteInlineSges p.mrList qp p.wr).2)

/-- A post that settled on the address `a` is right iff the server gives
`a` and, at a hit, a region that is registered does; or the post is a
write that stops after all. -/
private theorem agrees_of_settled {s : Site} {p : Post} {a : U64}
    {tbl : QpAddrtbl}
    (hpost : s.peer.post p
      = settledPost p { s.peer.qp with rdmaAddr := a, addrtbl := tbl }) :
    Agrees s (.post p) ↔ p.op = .write ∧ writeStops s.peer.qp p.wr
      ∨ (s.peer.RegionWith p.wr fun mr =>
          regionDma mr p.wr.remoteAddr = a)
        ∧ (s.peer.qp.addrtbl.covers p.wr.remoteAddr →
          s.Registered p.wr fun mr =>
            a = mr.phyaddr + (p.wr.remoteAddr - mr.vaddr)) := by
  have hstops := buildwriteInlineSges_status p.mrList
    { s.peer.qp with rdmaAddr := a, addrtbl := tbl } p.wr
  obtain ⟨haddr, hentries⟩ := buildwriteInlineSges_destaddr p.mrList
    { s.peer.qp with rdmaAddr := a, addrtbl := tbl } p.wr
  have hsecond : (s.peer.post p).2 = (buildwriteInlineSges p.mrList
      { s.peer.qp with rdmaAddr := a, addrtbl := tbl } p.wr).2 := by
    rw [hpost, settledPost]
    cases p.op <;> rfl
  have hstatus : (s.peer.post p).1 = 0
      ↔ ¬ (p.op = .write ∧ writeStops s.peer.qp p.wr) := by
    rw [hpost, settledPost]
    cases hop : p.op with
    | write =>
        rw [and_iff_right rfl]
        exact hstops
    | read => simp
  rw [← translate_eq_some_iff]
  unfold Agrees
  dsimp only
  rw [hstatus, hsecond, haddr]
  constructor
  · intro h
    by_cases hwrite : p.op = .write ∧ writeStops s.peer.qp p.wr
    · exact Or.inl hwrite
    · obtain ⟨htrans, -, hregion⟩ := h hwrite
      exact Or.inr ⟨htrans, hregion⟩
  · intro h hgo
    rcases h with hwrite | ⟨htrans, hregion⟩
    · exact absurd hwrite hgo
    · exact ⟨htrans, hentries, hregion⟩

/-- A hit settles on the address the table gives. -/
private theorem post_of_hit {s : Peer} {p : Post}
    (hcov : s.qp.addrtbl.covers p.wr.remoteAddr) :
    s.post p = settledPost p { s.qp with
      rdmaAddr := s.qp.addrtbl.dmaAddr p.wr.remoteAddr } := by
  unfold Peer.post settledPost buildWrite buildRead
  cases p.op with
  | write => simp only [if_pos hcov]
  | read => simp only [if_pos hcov]

/-- The exchange, by what the server has. -/
private theorem exchange_cases (s : Peer) (p : Post) :
    (p.connected = true
        ∧ ∃ a, a ≠ p.wr.remoteAddr
          ∧ (s.RegionWith p.wr
              fun mr => regionDma mr p.wr.remoteAddr = a)
          ∧ ∃ len, exchangeDmaaddrinfo s.qp p.wr (s.reply p)
            = (0, { s.qp with addrtbl := ⟨a, p.wr.remoteAddr, len⟩ }))
      ∨ ¬ (p.connected = true ∧ s.RegionWith p.wr
            fun mr => regionDma mr p.wr.remoteAddr ≠ p.wr.remoteAddr)
        ∧ exchangeDmaaddrinfo s.qp p.wr (s.reply p) = (EINVAL, s.qp) := by
  unfold Peer.reply exchangeDmaaddrinfo
  by_cases hconn : p.connected = true
  · simp only [if_pos hconn]
    rw [readReply_phyaddr]
    cases htrans : translate s.world.srv p.wr.rkey p.wr.remoteAddr with
    | none =>
        refine Or.inr ⟨fun h => ?_, by simp⟩
        obtain ⟨-, i, hi, -⟩ := h
        simp [translate, hi] at htrans
    | some a =>
        have hregion := translate_eq_some_iff.1 htrans
        by_cases hsame : a = p.wr.remoteAddr
        · refine Or.inr ⟨fun h => ?_, by simp [hsame]⟩
          obtain ⟨-, i, hi, hne⟩ := h
          obtain ⟨j, hj, heq⟩ := hregion
          rw [hi] at hj
          obtain rfl : i = j := Option.some.inj hj
          exact hne (heq.trans hsame)
        · refine Or.inl ⟨hconn, a, hsame, hregion, ?_⟩
          exact ⟨_, by simp [hsame]; rfl⟩
  · rw [if_neg hconn]
    exact Or.inr ⟨fun h => hconn h.1, rfl⟩

/-- The step lemma: a post is right exactly when it meets `PostOk`. -/
theorem agrees_iff_eventOk (s : Site) (e : Event) :
    Agrees s e ↔ EventOk s e := by
  cases e with
  | request req => exact Iff.rfl
  | post p =>
      show Agrees s (.post p) ↔ PostOk s p
      unfold PostOk
      by_cases hcov : s.peer.qp.addrtbl.covers p.wr.remoteAddr
      · simp only [if_pos hcov]
        rw [agrees_of_settled (post_of_hit hcov), forall_prop_of_true hcov,
          registered_iff hcov]
        refine or_congr Iff.rfl (and_congr (exists_congr fun i =>
          and_congr_right fun hi => ?_) Iff.rfl)
        exact regionDma_eq_iff hcov (Exchange.Server.scan_eq_some.1 hi).1
      simp only [if_neg hcov]
      rw [miss_iff]
      rcases exchange_cases s.peer p with
        ⟨hconn, a, hne, hregion, len, hex⟩ | ⟨hfail, hex⟩
      · -- the server answers, and the post settles on the answer
        have hpost : s.peer.post p = settledPost p { s.peer.qp with
            rdmaAddr := a, addrtbl := ⟨a, p.wr.remoteAddr, len⟩ } := by
          unfold Peer.post settledPost buildWrite buildRead
          cases p.op with
          | write => simp [if_neg hcov, hex]
          | read => simp [if_neg hcov, hex]
        rw [agrees_of_settled hpost]
        refine iff_of_true (Or.inr ⟨hregion, fun h => absurd h hcov⟩)
          (Or.inr (Or.inl ⟨hconn, ?_⟩))
        obtain ⟨i, hi, heq⟩ := hregion
        exact ⟨i, hi, fun h => hne (heq.symm.trans h)⟩
      · cases hop : p.op with
        | write =>
            -- the write stops with the exchange's status
            have hstatus : (s.peer.post p).1 = EINVAL := by
              simp [Peer.post, hop, buildWrite, hcov, hex, EINVAL]
            refine iff_of_true (fun h => ?_) (Or.inl rfl)
            rw [hstatus] at h
            exact absurd h (by decide)
        | read =>
            -- the read goes on with what the table held
            have hpost : s.peer.post p = settledPost p { s.peer.qp with
                rdmaAddr := s.peer.qp.addrtbl.dmaaddr } := by
              simp [Peer.post, settledPost, hop, buildRead, hcov, hex]
            rw [agrees_of_settled hpost, forall_prop_of_false hcov,
              and_true]
            simp only [hop, reduceCtorEq, false_and, false_or]
            exact (or_iff_right hfail).symm

-- ================================================================= runs

/-- In a run of posts, registrations and removals, from any server, any
regions and any table, every post that goes ahead is right iff every post
meets `PostOk` where it is made. -/
theorem cache_agrees_iff (s : Site) (events : List Event) :
    Each Site.step Agrees s events ↔ Each Site.step EventOk s events :=
  each_congr agrees_iff_eventOk

/-- Two clients register regions at the same virtual address under
different keys. A write to the first region fills the table; the write
to the second one hits it and goes to the first region. -/
theorem hit_ignores_rkey :
    let qp := createQp
      { qpId := 2, qpType := .rc, numWqeAllocated := 2048,
        numRqeAllocated := 256, maxSendSge := 4, maxRecvSge := 4,
        sqSigAll := 0, sqVa := fun _ => .zero, rqVa := fun _ => .zero,
        addrtbl := ⟨0, 0, 0⟩, numWqe_pos := by decide,
        numRqe_pos := by decide }
    let write (rkey : U32) : Post :=
      { op := .write, mrList := [], connected := true
        wr :=
          { wrId := 7, sgList := [⟨0x4000, 64, 1⟩], opcode := .rdmaWrite,
            sendSignaled := true, sendInline := false, immData := 0,
            remoteAddr := 0x1000, rkey := rkey, ah := none,
            remoteQpn := 0, remoteQkey := 0 } }
    let events : List Event :=
      [.request ⟨0, ⟨Exchange.cmdWrite, 1, 0x1000, 0x80000000, 0x100⟩⟩,
        .request ⟨1, ⟨Exchange.cmdWrite, 2, 0x1000, 0x90000000, 0x100⟩⟩,
        .post (write 1), .post (write 2)]
    let start : Site := ⟨⟨.start, qp⟩, []⟩
    let s : Site := exec Site.step start events
    s.peer.qp.rdmaAddr = 0x80000000
      ∧ translate s.peer.world.srv 2 0x1000 = some 0x90000000
      ∧ ¬ Each Site.step Agrees start events := by
  intro qp write events start s
  refine ⟨by decide +kernel, by decide +kernel, fun h => ?_⟩
  obtain ⟨htrans, -⟩ := h.2.2.2.1 (by decide +kernel)
  exact absurd htrans (by decide +kernel)

end BxRnic.User
