/-
Who is in the table of queue pairs, and what a poll works on.

A creation that fails behind the kernel's call has six exits, and only
one of them, where the registers cannot be mapped, takes everything back
(`RestCase`). A CQ remembers an id, and nothing takes it back when the
queue pair goes: a poll is right as long as the CQ has one, or asks for
nothing (`poll_right_iff`).
-/
import BxRnic.User.QpTable
import BxRnic.Lib.Registered
import BxRnic.Lib.Run

namespace BxRnic.User

open Run

-- =============================================================== creation

section Create

variable {dev : QpDev} {env : CreateQpEnv} {addr id : Nat}

/-- The call gets behind that of the kernel. -/
def CreateQpEnv.Reaches (env : CreateQpEnv) : Prop :=
  env.qpOk = true ∧ env.maxInlineData = 0 ∧ env.srq = false
    ∧ env.kernelId.isSome = true

/-- Behind the kernel's call, the arrays and the rings are there; if the
registers cannot be mapped, the kernel destroys its queue pair; and if
they are, so is the page of the attributes. -/
structure CreateQpEnv.Clean (env : CreateQpEnv) : Prop where
  wqeTbl : env.wqeTblOk = true
  rqeTbl : env.rqeTblOk = true
  sqVa : env.sqVaOk = true
  rqVa : env.rqVaOk = true
  destroyed : env.iovaOk = false → env.destroyOk = true
  qpChangeInfo : env.iovaOk = true → env.qpChangeInfoOk = true

/-- What the call has taken when the kernel has its queue pair. -/
def begun : Ledger QpResource :=
  (Ledger.empty.acquire .qp).acquire .kernelQp

/-- The CQs of a queue pair remember its id. -/
def QpDev.bind (dev : QpDev) (env : CreateQpEnv) (id : Nat) : QpDev :=
  { dev with
    cqQpId := Function.update (Function.update dev.cqQpId env.sendCq id)
      env.recvCq id }

/-- The ways `bxroce_create_qp` ends behind the kernel's call. -/
inductive RestCase (dev : QpDev) (env : CreateQpEnv) (addr id : Nat) :
    QpCreated → Prop
  | made {qp : QpPtrs} {l : Ledger QpResource} (hclean : env.Clean)
      (hqp : qp.addr = addr ∧ qp.id = id ∧ qp.sqCq = env.sendCq
        ∧ qp.rqCq = env.recvCq)
      (hgone : ∀ dev' : QpDev, (dev'.destroyQp true qp l).2.Closed) :
      RestCase dev env addr id (some qp, dev.bind env id, l)
  | undone {l : Ledger QpResource} (hclean : env.Clean)
      (hclosed : l.Closed) :
      RestCase dev env addr id
        (none,
          { dev with
            qpTbl := Function.update dev.qpTbl id none
            kernel := dev.kernel.erase id },
          l)
  /-- The entry stays. -/
  | entered {l : Ledger QpResource} (hnot : ¬ env.Clean) :
      RestCase dev env addr id (none, dev, l)
  /-- The kernel keeps its queue pair. -/
  | kept {l : Ledger QpResource} (hnot : ¬ env.Clean) :
      RestCase dev env addr id
        (none, { dev with qpTbl := Function.update dev.qpTbl id none }, l)
  /-- The registers are unmapped twice. -/
  | twice {dev' : QpDev} {l : Ledger QpResource} (hnot : ¬ env.Clean)
      (hopen : ¬ l.Closed) :
      RestCase dev env addr id (none, dev', l)

/-- `map_err1` with the registers not mapped. -/
theorem undone_closed : Ledger.Closed
    ⟨[QpResource.qp, .kernelQp, .wqeTbl, .rqeTbl, .sqVa, .rqVa],
      [.sqVa, .rqVa, .kernelQp, .rqeTbl, .wqeTbl, .qp]⟩ := by
  decide

/-- `map_err2`, where the kernel destroys its queue pair, -/
theorem twice_open : ¬ Ledger.Closed
    ⟨[QpResource.qp, .kernelQp, .wqeTbl, .rqeTbl, .sqVa, .rqVa, .iova],
      [.iova, .iova, .sqVa, .rqVa, .kernelQp, .rqeTbl, .wqeTbl,
        .qp]⟩ := by
  decide

/-- and where it does not. -/
theorem twice_kept_open : ¬ Ledger.Closed
    ⟨[QpResource.qp, .kernelQp, .wqeTbl, .rqeTbl, .sqVa, .rqVa, .iova],
      [.iova, .iova, .sqVa, .rqVa, .rqeTbl, .wqeTbl, .qp]⟩ := by
  decide

/-- A queue pair, made and destroyed. -/
theorem gone_closed : Ledger.Closed
    ⟨[QpResource.qp, .kernelQp, .wqeTbl, .rqeTbl, .sqVa, .rqVa, .iova,
        .qpChangeInfo, .addrtbl],
      [.iova, .sqVa, .rqVa, .qpChangeInfo, .kernelQp, .rqeTbl, .wqeTbl,
        .addrtbl, .qp]⟩ := by
  decide

theorem createRest_cases (dev : QpDev) (env : CreateQpEnv)
    (addr id : Nat) :
    RestCase dev env addr id
      (dev.createRest env (.new env addr id) begun) := by
  unfold QpDev.createRest
  cases hwqe : env.wqeTblOk with
  | false =>
    exact .entered fun h => Bool.false_ne_true (hwqe ▸ h.wqeTbl)
  | true =>
  cases hrqe : env.rqeTblOk with
  | false =>
    exact .entered fun h => Bool.false_ne_true (hrqe ▸ h.rqeTbl)
  | true =>
  cases hsq : env.sqVaOk with
  | false =>
    exact .entered fun h => Bool.false_ne_true (hsq ▸ h.sqVa)
  | true =>
  cases hrq : env.rqVaOk with
  | false =>
    exact .entered fun h => Bool.false_ne_true (hrq ▸ h.rqVa)
  | true =>
  cases hiova : env.iovaOk with
  | false =>
    cases hdestroy : env.destroyOk with
    | false =>
      exact .kept fun h =>
        Bool.false_ne_true (hdestroy ▸ h.destroyed hiova)
    | true =>
      refine .undone ⟨hwqe, hrqe, hsq, hrq, fun _ => hdestroy, fun h => ?_⟩
        undone_closed
      exact absurd (hiova ▸ h) Bool.false_ne_true
  | true =>
  cases hinfo : env.qpChangeInfoOk with
  | false =>
    have hnot : ¬ env.Clean := fun h =>
      Bool.false_ne_true (hinfo ▸ h.qpChangeInfo hiova)
    cases env.destroyOk with
    | false => exact .twice hnot twice_kept_open
    | true => exact .twice hnot twice_open
  | true =>
    refine .made ⟨hwqe, hrqe, hsq, hrq, fun h => ?_, fun _ => hinfo⟩
      ⟨rfl, rfl, rfl, rfl⟩ fun _ => gone_closed
    exact absurd (hiova ▸ h) Bool.true_eq_false.mp

/-- Before it there is nothing to take back but the structure. -/
theorem createQp_early (dev : QpDev) (h : ¬ env.Reaches) :
    ∃ l, dev.createQp env = (none, dev, l) ∧ l.Closed := by
  unfold QpDev.createQp
  cases hqp : env.qpOk with
  | false => exact ⟨_, rfl, Ledger.closed_empty⟩
  | true =>
    have hclosed : ((Ledger.empty.acquire QpResource.qp).release
        .qp).Closed := by
      decide
    dsimp only
    rw [if_neg Bool.true_eq_false.mp]
    by_cases hbad : env.maxInlineData ≠ 0 ∨ env.srq = true
    · rw [if_pos hbad]
      exact ⟨_, rfl, hclosed⟩
    · rw [if_neg hbad]
      cases hid : env.kernelId with
      | none => exact ⟨_, rfl, hclosed⟩
      | some id =>
        obtain ⟨hinline, hsrq⟩ := not_or.1 hbad
        refine absurd ⟨hqp, Decidable.of_not_not hinline, ?_, ?_⟩ h
        · exact Bool.of_not_eq_true hsrq
        · rw [hid]
          rfl

/-- A call that gets behind the kernel's is in the table at once. -/
theorem createQp_reaches (dev : QpDev) (h : env.Reaches) :
    ∃ id, env.kernelId = some id
      ∧ dev.createQp env
        = (dev.entered dev.fresh id).createRest env
          (.new env dev.fresh id) begun := by
  obtain ⟨hqp, hinline, hsrq, hid⟩ := h
  obtain ⟨id, hid⟩ := Option.isSome_iff_exists.1 hid
  refine ⟨id, hid, ?_⟩
  unfold QpDev.createQp
  rw [hqp, hinline, hsrq, hid]
  rfl

/-- The destruction of a queue pair gives back all that its creation
took, if the kernel destroys its own. -/
theorem destroyQp_closed {qp : QpPtrs} {dev dev' : QpDev}
    {l : Ledger QpResource} (h : dev.createQp env = (some qp, dev', l)) :
    (dev'.destroyQp true qp l).2.Closed := by
  by_cases hreaches : env.Reaches
  · obtain ⟨id, -, heq⟩ := createQp_reaches dev hreaches
    have hcase := createRest_cases (dev.entered dev.fresh id) env
      dev.fresh id
    rw [← heq, h] at hcase
    cases hcase with
    | made _ _ hgone => exact hgone _
  · obtain ⟨l', heq, -⟩ := createQp_early dev hreaches
    rw [heq] at h
    cases h

end Create

-- ============================================================== the table

section Table

variable {dev : QpDev}

/-- What the table and the CQs know of the queue pairs that are alive. -/
structure QpDev.Inv (dev : QpDev) : Prop where
  entry_iff : ∀ i, dev.qpTbl i ≠ none ↔ ∃ qp ∈ dev.live, qp.id = i
  points : ∀ qp ∈ dev.live, dev.qpTbl qp.id = some qp.addr
  placed : Placed QpPtrs.addr dev.fresh dev.live
  kernel : ∀ qp ∈ dev.live, qp.id ∈ dev.kernel
  inside : ∀ qp ∈ dev.live, qp.id < BXROCE_MAX_QP
  bound : ∀ qp ∈ dev.live, ∀ cq, qp.On cq → dev.cqQpId cq = qp.id
  remembered : ∀ cq, dev.cqQpId cq < BXROCE_MAX_QP

theorem QpDev.Inv.init : QpDev.init.Inv where
  entry_iff _ := iff_of_false (not_not_intro rfl) fun ⟨_, hqp, _⟩ =>
    absurd hqp List.not_mem_nil
  points _ hqp := absurd hqp List.not_mem_nil
  placed := ⟨List.nodup_nil, fun _ hqp => absurd hqp List.not_mem_nil⟩
  kernel _ hqp := absurd hqp List.not_mem_nil
  inside _ hqp := absurd hqp List.not_mem_nil
  bound _ hqp := absurd hqp List.not_mem_nil
  remembered _ := show 0 < BXROCE_MAX_QP by decide

/-- Two queue pairs of one id are one. -/
theorem QpDev.Inv.eq_of_id (h : dev.Inv) {qp qp' : QpPtrs}
    (hqp : qp ∈ dev.live) (hqp' : qp' ∈ dev.live) (hid : qp.id = qp'.id) :
    qp = qp' := by
  refine h.placed.eq_of_addr hqp hqp' (Option.some.inj ?_)
  rw [← h.points qp hqp, hid, h.points qp' hqp']

/-- An entry is that of a queue pair. -/
theorem QpDev.Inv.of_entry (h : dev.Inv) {i addr : Nat}
    (hentry : dev.qpTbl i = some addr) :
    ∃ qp ∈ dev.live, qp.id = i ∧ qp.addr = addr := by
  have hsome : dev.qpTbl i ≠ none := by
    rw [hentry]
    exact Option.some_ne_none addr
  obtain ⟨qp, hqp, hid⟩ := (h.entry_iff i).1 hsome
  refine ⟨qp, hqp, hid, Option.some.inj ?_⟩
  rw [← h.points qp hqp, hid, hentry]

/-- An id the kernel gives out is in no entry. -/
theorem QpDev.Inv.entry_none (h : dev.Inv) {id : Nat}
    (hnew : id ∉ dev.kernel) : dev.qpTbl id = none := by
  cases hentry : dev.qpTbl id with
  | none => rfl
  | some addr =>
    obtain ⟨qp, hqp, rfl, -⟩ := h.of_entry hentry
    exact absurd (h.kernel qp hqp) hnew

/-- The invariant does not depend on ids and addresses to come. -/
theorem QpDev.Inv.mono (h : dev.Inv) {kernel : List Nat} {fresh : Nat}
    (hkernel : ∀ id ∈ dev.kernel, id ∈ kernel) (hle : dev.fresh ≤ fresh) :
    QpDev.Inv { dev with kernel := kernel, fresh := fresh } :=
  ⟨h.entry_iff, h.points, h.placed.mono hle,
    fun qp hqp => hkernel _ (h.kernel qp hqp), h.inside, h.bound,
    h.remembered⟩

/-- A new queue pair is in the table, and its CQs remember it. -/
theorem QpDev.Inv.made (h : dev.Inv) {env : CreateQpEnv} {qp : QpPtrs}
    (hnew : qp.id ∉ dev.kernel) (hinside : qp.id < BXROCE_MAX_QP)
    (haddr : qp.addr = dev.fresh)
    (hcqs : qp.sqCq = env.sendCq ∧ qp.rqCq = env.recvCq)
    (hfree : ∀ qp' ∈ dev.live, ¬ qp'.On env.sendCq ∧ ¬ qp'.On env.recvCq) :
    QpDev.Inv { (dev.entered dev.fresh qp.id).bind env qp.id with
      live := qp :: dev.live } := by
  have hother : ∀ qp' ∈ dev.live, qp'.id ≠ qp.id := fun qp' hqp' heq =>
    hnew (heq ▸ h.kernel qp' hqp')
  refine ⟨fun i => ?_, List.forall_mem_cons.2 ⟨?_, fun qp' hqp' => ?_⟩,
    h.placed.cons haddr, List.forall_mem_cons.2 ⟨List.mem_cons_self, ?_⟩,
    List.forall_mem_cons.2 ⟨hinside, h.inside⟩,
    List.forall_mem_cons.2 ⟨fun cq hon => ?_, fun qp' hqp' cq hon => ?_⟩,
    fun cq => ?_⟩
  · show Function.update dev.qpTbl qp.id (some dev.fresh) i ≠ none ↔ _
    rw [List.exists_mem_cons_iff]
    by_cases hi : i = qp.id
    · rw [hi, Function.update_self]
      exact iff_of_true (Option.some_ne_none _) (Or.inl rfl)
    · rw [Function.update_of_ne hi, h.entry_iff]
      exact (or_iff_right (Ne.symm hi)).symm
  · show Function.update dev.qpTbl qp.id (some dev.fresh) qp.id = _
    rw [Function.update_self, haddr]
  · show Function.update dev.qpTbl qp.id (some dev.fresh) qp'.id = _
    rw [Function.update_of_ne (hother qp' hqp'), h.points qp' hqp']
  · exact fun qp' hqp' => List.mem_cons_of_mem _ (h.kernel qp' hqp')
  · show Function.update (Function.update dev.cqQpId env.sendCq qp.id)
      env.recvCq qp.id cq = _
    by_cases hrecv : cq = env.recvCq
    · rw [hrecv, Function.update_self]
    · have hsend : cq = env.sendCq := by
        cases hon with
        | inl hsq => rw [← hsq, hcqs.1]
        | inr hrq => exact absurd (hrq.symm.trans hcqs.2) hrecv
      rw [Function.update_of_ne hrecv, hsend, Function.update_self]
  · show Function.update (Function.update dev.cqQpId env.sendCq qp.id)
      env.recvCq qp.id cq = _
    obtain ⟨hsend, hrecv⟩ := hfree qp' hqp'
    have hne : cq ≠ env.recvCq := fun heq => hrecv (heq ▸ hon)
    have hne' : cq ≠ env.sendCq := fun heq => hsend (heq ▸ hon)
    rw [Function.update_of_ne hne, Function.update_of_ne hne',
      h.bound qp' hqp' cq hon]
  · show Function.update (Function.update dev.cqQpId env.sendCq qp.id)
      env.recvCq qp.id cq < _
    by_cases hrecv : cq = env.recvCq
    · rw [hrecv, Function.update_self]
      exact hinside
    · rw [Function.update_of_ne hrecv]
      by_cases hsend : cq = env.sendCq
      · rw [hsend, Function.update_self]
        exact hinside
      · rw [Function.update_of_ne hsend]
        exact h.remembered cq

/-- `bxroce_destroy_qp`, the device. -/
theorem destroyQp_fst (dev : QpDev) (kernelOk : Bool) (qp : QpPtrs)
    (l : Ledger QpResource) :
    (dev.destroyQp kernelOk qp l).1
      = { dev with
          qpTbl := Function.update dev.qpTbl qp.id none
          kernel := if kernelOk then dev.kernel.erase qp.id
            else dev.kernel } := by
  cases kernelOk <;> rfl

/-- Who stays when a queue pair goes. -/
theorem QpDev.Inv.mem_filter (h : dev.Inv) {qp : QpPtrs}
    (hqp : qp ∈ dev.live) (qp' : QpPtrs) :
    qp' ∈ dev.live.filter (fun qp' => qp'.addr ≠ qp.addr)
      ↔ qp' ∈ dev.live ∧ qp'.id ≠ qp.id := by
  rw [List.mem_filter, decide_eq_true_iff]
  refine and_congr_right fun hqp' => not_congr ?_
  constructor
  · exact fun haddr =>
      congrArg _ (h.placed.eq_of_addr hqp' hqp haddr)
  · exact fun hid => congrArg _ (h.eq_of_id hqp' hqp hid)

/-- A queue pair goes with its entry. -/
theorem QpDev.Inv.destroyed (h : dev.Inv) {qp : QpPtrs}
    (hqp : qp ∈ dev.live) (kernelOk : Bool) (l : Ledger QpResource) :
    QpDev.Inv { (dev.destroyQp kernelOk qp l).1 with
      live := dev.live.filter fun qp' => qp'.addr ≠ qp.addr } := by
  rw [destroyQp_fst]
  have hstays := h.mem_filter hqp
  refine ⟨fun i => ?_, fun qp' hqp' => ?_, h.placed.filter _,
    fun qp' hqp' => ?_, fun qp' hqp' => h.inside qp' ((hstays qp').1 hqp').1,
    fun qp' hqp' => h.bound qp' ((hstays qp').1 hqp').1, h.remembered⟩
  · show Function.update dev.qpTbl qp.id none i ≠ none ↔ _
    by_cases hi : i = qp.id
    · rw [hi, Function.update_self]
      refine iff_of_false (not_not_intro rfl) ?_
      rintro ⟨qp', hqp', hid⟩
      exact ((hstays qp').1 hqp').2 hid
    · rw [Function.update_of_ne hi, h.entry_iff]
      refine exists_congr fun qp' => ?_
      rw [hstays, and_assoc]
      refine and_congr_right fun _ => ?_
      exact ⟨fun hid => ⟨hid ▸ hi, hid⟩, And.right⟩
  · obtain ⟨hlive, hne⟩ := (hstays qp').1 hqp'
    show Function.update dev.qpTbl qp.id none qp'.id = _
    rw [Function.update_of_ne hne, h.points qp' hlive]
  · obtain ⟨hlive, hne⟩ := (hstays qp').1 hqp'
    show qp'.id ∈ if kernelOk then dev.kernel.erase qp.id else dev.kernel
    cases kernelOk with
    | false => exact h.kernel qp' hlive
    | true => exact (List.mem_erase_of_ne hne).2 (h.kernel qp' hlive)

end Table

-- =================================================================== polls

section Poll

variable {dev : QpDev} {cq : Nat}

/-- A poll accesses nothing but the queue pair of its CQ; if there is
none, it finds nothing. -/
def QpDev.PollRight (dev : QpDev) (cq : Nat) (env : PollEnv) : Prop :=
  (∀ ref ∈ (dev.pollCq cq env).2,
      ∃ qp ∈ dev.live, qp.On cq ∧ ref = .qp qp.addr)
    ∧ ((∀ qp ∈ dev.live, ¬ qp.On cq) → (dev.pollCq cq env).1 = 0)

/-- There is something to poll for, and a queue pair to poll. -/
def QpDev.Polls (dev : QpDev) (cq : Nat) (env : PollEnv) : Prop :=
  env.numEntries = 0 ∨ ∃ qp ∈ dev.live, qp.On cq

/-- A poll for no entries does nothing. -/
theorem pollCq_none (dev : QpDev) (cq : Nat) {env : PollEnv}
    (h : env.numEntries = 0) : dev.pollCq cq env = (0, []) := by
  unfold QpDev.pollCq QpDev.pollHwcq
  rw [if_neg fun hboth => hboth.1 h]
  exact if_neg (not_not_intro (by rw [h]; rfl))

/-- With an entry, all accesses are to it. -/
theorem pollCq_entry {env : PollEnv} {addr : Nat}
    (h : dev.entry cq = some addr) :
    ∀ ref ∈ (dev.pollCq cq env).2, ref = .qp addr := by
  unfold QpDev.pollCq QpDev.pollHwcq
  rw [h]
  by_cases hready : env.numEntries ≠ 0 ∧ env.ready = true
  · rw [if_pos hready]
    dsimp only
    by_cases hleft : env.numEntries - env.polled ≠ 0
    · rw [if_pos hleft]
      intro ref href
      cases List.mem_append.1 href with
      | inl hfirst => exact List.mem_singleton.1 hfirst
      | inr hlast => exact List.mem_singleton.1 hlast
    · rw [if_neg hleft]
      exact fun ref href => List.mem_singleton.1 href
  · rw [if_neg hready]
    dsimp only
    by_cases hleft : env.numEntries - 0 ≠ 0
    · rw [if_pos hleft]
      exact fun ref href => List.mem_singleton.1 href
    · rw [if_neg hleft]
      exact fun ref href => absurd href List.not_mem_nil

/-- A poll for entries accesses something, whatever is there. -/
theorem pollCq_accesses (dev : QpDev) (cq : Nat) {env : PollEnv}
    (h : env.numEntries ≠ 0) : (dev.pollCq cq env).2 ≠ [] := by
  unfold QpDev.pollCq QpDev.pollHwcq
  by_cases hready : env.ready = true
  · rw [if_pos ⟨h, hready⟩]
    cases dev.entry cq with
    | none =>
      dsimp only
      split <;> exact List.cons_ne_nil _ _
    | some addr =>
      dsimp only
      split <;> exact List.cons_ne_nil _ _
  · rw [if_neg fun hboth => hready hboth.2]
    dsimp only
    rw [Int.sub_zero, if_pos h]
    cases dev.entry cq with
    | none => exact List.cons_ne_nil _ _
    | some addr => exact List.cons_ne_nil _ _

/-- Exactly when a poll is right. -/
theorem poll_right_iff (h : dev.Inv) (cq : Nat) (env : PollEnv) :
    dev.PollRight cq env ↔ dev.Polls cq env := by
  constructor
  · rintro ⟨hrefs, -⟩
    by_cases hzero : env.numEntries = 0
    · exact Or.inl hzero
    · obtain ⟨ref, href⟩ :=
        List.exists_mem_of_ne_nil _ (pollCq_accesses dev cq hzero)
      obtain ⟨qp, hqp, hon, -⟩ := hrefs ref href
      exact Or.inr ⟨qp, hqp, hon⟩
  · rintro (hzero | ⟨qp, hqp, hon⟩)
    · unfold QpDev.PollRight
      rw [pollCq_none dev cq hzero]
      exact ⟨fun _ href => absurd href List.not_mem_nil, fun _ => rfl⟩
    · have hentry : dev.entry cq = some qp.addr := by
        unfold QpDev.entry
        rw [h.bound qp hqp cq hon, h.points qp hqp]
      refine ⟨fun ref href => ⟨qp, hqp, hon, ?_⟩, fun hnone => ?_⟩
      · exact pollCq_entry hentry ref href
      · exact absurd hon (hnone qp hqp)

end Poll

-- ==================================================================== runs

section Runs

variable {dev : QpDev} {call : QpCall}

/-- What the kernel and the callers promise: an id the kernel gives out
is one of the table and of no queue pair it has, and a new queue pair is
on CQs that no other is on. -/
def QpDev.Admits (dev : QpDev) : QpCall → Prop
  | .create env =>
      (∀ id, env.kernelId = some id →
        id < BXROCE_MAX_QP ∧ id ∉ dev.kernel)
      ∧ ∀ qp ∈ dev.live, ¬ qp.On env.sendCq ∧ ¬ qp.On env.recvCq
  | .destroy _ _ => True
  | .poll _ _ => True

/-- A creation that fails leaves the table and the kernel as they were,
and gives back what it took, once. -/
def QpDev.Restored (dev : QpDev) : QpCreated → Prop
  | (some _, _, _) => True
  | (none, dev', l) =>
      dev'.qpTbl = dev.qpTbl ∧ dev'.kernel = dev.kernel ∧ l.Closed

/-- How a call should go. The table has an entry exactly for the ids of
the queue pairs that are alive, and no other element is accessed. -/
structure QpDev.Right (dev : QpDev) (call : QpCall) : Prop where
  entry_iff : ∀ i, (dev.step call).qpTbl i ≠ none
    ↔ ∃ qp ∈ (dev.step call).live, qp.id = i
  inside : ∀ i ∈ dev.indices call, i < BXROCE_MAX_QP
  restored : ∀ env, call = .create env → dev.Restored (dev.createQp env)
  polled : ∀ cq env, call = .poll cq env → dev.PollRight cq env

/-- A creation that gets behind the kernel's call ends well or where all
is taken back; a poll asks for nothing or has a queue pair. -/
def QpDev.Harmless (dev : QpDev) : QpCall → Prop
  | .create env => env.Reaches → env.Clean
  | .destroy _ _ => True
  | .poll cq env => dev.Polls cq env

theorem step_made {env : CreateQpEnv} {qp : QpPtrs} {dev' : QpDev}
    {l : Ledger QpResource} (h : dev.createQp env = (some qp, dev', l)) :
    dev.step (.create env) = { dev' with live := qp :: dev'.live } := by
  simp only [QpDev.step, h]

theorem step_failed {env : CreateQpEnv} {dev' : QpDev}
    {l : Ledger QpResource} (h : dev.createQp env = (none, dev', l)) :
    dev.step (.create env) = dev' := by
  simp only [QpDev.step, h]

/-- A creation that ends well, or where all is taken back. -/
theorem create_ok {env : CreateQpEnv} (h : dev.Inv)
    (hadmits : dev.Admits (.create env)) (hok : env.Reaches → env.Clean) :
    (dev.step (.create env)).Inv ∧ dev.Restored (dev.createQp env) := by
  by_cases hreaches : env.Reaches
  · obtain ⟨id, hid, heq⟩ := createQp_reaches dev hreaches
    obtain ⟨hinside, hnew⟩ := hadmits.1 id hid
    have hcase := createRest_cases (dev.entered dev.fresh id) env
      dev.fresh id
    rw [← heq] at hcase
    generalize hres : dev.createQp env = created at hcase
    cases hcase with
    | made _ hqp _ =>
      obtain ⟨haddr, rfl, hcqs⟩ := hqp
      refine ⟨?_, trivial⟩
      rw [step_made hres]
      exact h.made hnew hinside haddr hcqs hadmits.2
    | undone _ hclosed =>
      have htable : Function.update (Function.update dev.qpTbl id
          (some dev.fresh)) id none = dev.qpTbl := by
        rw [Function.update_idem, Function.update_eq_self_iff]
        exact (h.entry_none hnew).symm
      have hkernel : (id :: dev.kernel).erase id = dev.kernel :=
        List.erase_cons_head id dev.kernel
      refine ⟨?_, htable, hkernel, hclosed⟩
      rw [step_failed hres]
      show QpDev.Inv { dev with
        qpTbl := Function.update (Function.update dev.qpTbl id
          (some dev.fresh)) id none
        kernel := (id :: dev.kernel).erase id
        fresh := dev.fresh + 1 }
      rw [htable, hkernel]
      exact h.mono (fun _ hid => hid) (Nat.le_succ _)
    | entered hnot => exact absurd (hok hreaches) hnot
    | kept hnot => exact absurd (hok hreaches) hnot
    | twice hnot _ => exact absurd (hok hreaches) hnot
  · obtain ⟨l, heq, hclosed⟩ := createQp_early dev hreaches
    rw [step_failed heq, heq]
    exact ⟨h, rfl, rfl, hclosed⟩

/-- A creation that leaves something behind, or gives it back twice. -/
theorem create_spoilt {env : CreateQpEnv} (h : dev.Inv)
    (hadmits : dev.Admits (.create env)) (hreaches : env.Reaches)
    (hnot : ¬ env.Clean) : ¬ dev.Restored (dev.createQp env) := by
  obtain ⟨id, hid, heq⟩ := createQp_reaches dev hreaches
  have hnone := h.entry_none (hadmits.1 id hid).2
  have hcase := createRest_cases (dev.entered dev.fresh id) env
    dev.fresh id
  rw [← heq] at hcase
  generalize dev.createQp env = created at hcase
  cases hcase with
  | made hclean _ _ => exact absurd hclean hnot
  | undone hclean _ => exact absurd hclean hnot
  | entered _ =>
    rintro ⟨htable, -⟩
    have hentry : Function.update dev.qpTbl id (some dev.fresh) id
        = dev.qpTbl id := congrFun htable id
    rw [Function.update_self, hnone] at hentry
    cases hentry
  | kept _ =>
    rintro ⟨-, hkernel, -⟩
    exact absurd hkernel (List.cons_ne_self id dev.kernel)
  | twice _ hopen => exact fun hrestored => hopen hrestored.2.2

/-- The invariant is kept by calls that do no harm. -/
theorem QpDev.Inv.step (h : dev.Inv) (hadmits : dev.Admits call)
    (hok : dev.Harmless call) : (dev.step call).Inv := by
  cases call with
  | create env => exact (create_ok h hadmits hok).1
  | destroy addr kernelOk =>
    cases hfind : dev.at? addr with
    | none =>
      simp only [QpDev.step, hfind]
      exact h
    | some qp =>
      have hpass := List.find?_some hfind
      have haddr : addr = qp.addr := (of_decide_eq_true hpass).symm
      simp only [QpDev.step, hfind]
      rw [haddr]
      exact h.destroyed (List.mem_of_find?_eq_some hfind) kernelOk _
  | poll cq env => exact h

/-- The elements of the table that a call accesses are there. -/
theorem indices_inside (h : dev.Inv) (hadmits : dev.Admits call) :
    ∀ i ∈ dev.indices call, i < BXROCE_MAX_QP := by
  intro i hi
  cases call with
  | create env => exact (hadmits.1 i (Option.mem_toList.1 hi)).1
  | destroy addr kernelOk =>
    obtain ⟨qp, hfind, rfl⟩ := Option.map_eq_some_iff.1
      (Option.mem_toList.1 hi)
    exact h.inside qp (List.mem_of_find?_eq_some hfind)
  | poll cq env =>
    rw [List.mem_singleton.1 hi]
    exact h.remembered cq

/-- Exactly when a call goes as it should. -/
theorem right_iff (h : dev.Inv) (hadmits : dev.Admits call) :
    dev.Right call ↔ dev.Harmless call := by
  constructor
  · intro hright
    cases call with
    | create env =>
      intro hreaches
      by_contra hnot
      exact create_spoilt h hadmits hreaches hnot
        (hright.restored env rfl)
    | destroy addr kernelOk => trivial
    | poll cq env =>
      exact (poll_right_iff h cq env).1 (hright.polled cq env rfl)
  · intro hok
    refine ⟨(h.step hadmits hok).entry_iff, indices_inside h hadmits,
      fun env heq => ?_, fun cq env heq => ?_⟩
    · subst heq
      exact (create_ok h hadmits hok).2
    · subst heq
      exact (poll_right_iff h cq env).2 hok

/-- Exactly when all of a run goes as it should: its creations leave
nothing behind, and it polls no CQ without a queue pair. -/
theorem qp_table_iff (calls : List QpCall)
    (hadmits : Each QpDev.step QpDev.Admits .init calls) :
    Each QpDev.step QpDev.Right .init calls
      ↔ Each QpDev.step QpDev.Harmless .init calls :=
  each_iff_each_under (I := QpDev.Inv) (fun _ _ h hadmits => right_iff h hadmits)
    (fun _ _ h hadmits hright =>
      h.step hadmits ((right_iff h hadmits).1 hright))
    QpDev.Inv.init hadmits

/-- A request on CQ 0 that nothing stands in the way of. -/
def quietQp : CreateQpEnv :=
  ⟨0, 0, 0, false, true, some 3, true, true, true, true, true, true, true⟩

/-- It is given out, polled, destroyed and given out again. -/
def quietRun : List QpCall :=
  [.create quietQp, .poll 0 ⟨1, true, 1⟩, .destroy 0 true, .create quietQp]

theorem qp_table_run : Each QpDev.step QpDev.Right .init quietRun := by
  have hclean : quietQp.Clean :=
    ⟨rfl, rfl, rfl, rfl, fun _ => rfl, fun _ => rfl⟩
  have hnone : ∀ qp ∈ ([] : List QpPtrs),
      ¬ qp.On quietQp.sendCq ∧ ¬ qp.On quietQp.recvCq :=
    fun _ hqp => absurd hqp List.not_mem_nil
  have hid : ∀ id, quietQp.kernelId = some id →
      id < BXROCE_MAX_QP ∧ id ∉ ([] : List Nat) := by
    rintro id ⟨⟩
    exact ⟨by decide, List.not_mem_nil⟩
  have hadmits : Each QpDev.step QpDev.Admits .init quietRun :=
    ⟨⟨hid, hnone⟩, trivial, trivial, ⟨hid, hnone⟩, trivial⟩
  refine (qp_table_iff quietRun hadmits).2
    ⟨fun _ => hclean, Or.inr ⟨_, List.mem_cons_self, ?_⟩, trivial,
      fun _ => hclean, trivial⟩
  exact Or.inl rfl

/-- Without its array a queue pair is freed, but its entry and the
kernel's stay, and a poll of a new CQ is for id 0 of the table; without
the page of the attributes the registers are unmapped twice; and after a
destruction, a poll reads a pointer that was never set. -/
theorem freed_qp_stays :
    (let env := { quietQp with kernelId := some 0, wqeTblOk := false }
      let dev := QpDev.init.step (.create env)
      QpDev.init.Admits (.create env) ∧ ¬ QpDev.init.Right (.create env)
        ∧ dev.qpTbl 0 = some 0 ∧ dev.kernel = [0] ∧ dev.live = []
        ∧ dev.pollCq 7 ⟨1, false, 0⟩ = (0, [.qp 0]))
      ∧ (QpDev.init.createQp { quietQp with qpChangeInfoOk := false }
        ).2.2.released.count .iova = 2
      ∧ (Run.exec QpDev.step .init [.create quietQp, .destroy 0 true]
        ).pollCq 0 ⟨1, false, 0⟩ = (0, [.uninit]) := by
  refine ⟨⟨⟨?_, ?_⟩, ?_, rfl, rfl, rfl, rfl⟩, by decide, rfl⟩
  · rintro id ⟨⟩
    exact ⟨by decide, List.not_mem_nil⟩
  · exact fun _ hqp => absurd hqp List.not_mem_nil
  · intro hright
    obtain ⟨qp, hqp, -⟩ := (hright.entry_iff 0).1 (Option.some_ne_none 0)
    exact absurd hqp List.not_mem_nil

end Runs

end BxRnic.User
