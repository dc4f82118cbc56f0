/-
What a context's list of mappable ranges holds: the ranges of the objects
that are live in the context, each as often as an object has it, beside
the context's own table.

A creation or a destruction is a sequence of registrations and deletions
on the list, and each of those keeps to its purpose exactly where
`MmapCall.Ok` holds (`kept_iff_ok`). So a call keeps the list right when
its deletions meet that condition and undo what was registered. The
destruction of a queue pair does not: it deletes three of its four
ranges.
-/
import BxRnic.Kernel.Context
import BxRnic.Kernel.Proofs.Mmap
import Mathlib.Tactic.Abel

namespace BxRnic.Kernel

open Run

-- ============================================================== the ranges

/-- The range of a completion queue: its three queues in one. -/
def CqMem.range (cq : CqMem) : MmKey :=
  ⟨cq.tx.pa, (3 * pageAlign cq.len).setWidth 64⟩

/-- The pages of the send queue. -/
def QpMem.sqRange (qp : QpMem) : MmKey :=
  ⟨qp.sq.pa, (pageAlign qp.sqLen).setWidth 64⟩

/-- The pages of the receive queue. -/
def QpMem.rqRange (qp : QpMem) : MmKey :=
  ⟨qp.rq.pa, (pageAlign qp.rqLen).setWidth 64⟩

/-- The ranges of a queue pair: queue pages, register window, and the
page of `qp_change_info`. -/
def QpMem.ranges (ioaddr : U64) (qp : QpMem) : Multiset MmKey :=
  {⟨qp.qpInfo, qpInfoLen⟩, ⟨ioaddr, sqRegLen⟩, qp.rqRange, qp.sqRange}

/-- The ranges of all live objects. -/
def Context.live (ctx : Context) : Multiset MmKey :=
  (ctx.cqs.map CqMem.range : Multiset MmKey)
    + (ctx.qps.map (QpMem.ranges ctx.ioaddr)).sum

/-- The list holds the ranges of the live objects and the context's own
table, and nothing else. -/
def Context.Right (ctx : Context) : Prop :=
  (ctx.mmHead : Multiset MmKey) = ctx.ahTbl ::ₘ ctx.live

-- =========================================================== the condition

/-- What a creation of a queue pair does on the list. -/
def QpMem.calls (ioaddr : U64) (qp : QpMem) (answer : QpAnswer) :
    List MmapCall :=
  let add (mm : MmKey) := MmapCall.add mm.phyAddr mm.len
  let del (mm : MmKey) := MmapCall.del mm.phyAddr mm.len
  let reg : MmKey := ⟨ioaddr, sqRegLen⟩
  let info : MmKey := ⟨qp.qpInfo, qpInfoLen⟩
  if answer.copyOk = false then []
  else if answer.addSqOk = false then [add qp.sqRange false]
  else if answer.addRqOk = false then
    [add qp.sqRange true, add qp.rqRange false, del qp.sqRange]
  else if answer.addRegOk = false then
    [add qp.sqRange true, add qp.rqRange true, add reg false,
      del qp.rqRange, del qp.sqRange]
  else if answer.addInfoOk = false then
    [add qp.sqRange true, add qp.rqRange true, add reg true,
      add info false, del reg, del qp.rqRange, del qp.sqRange]
  else
    [add qp.sqRange true, add qp.rqRange true, add reg true,
      add info true]

/-- The condition on a call and the context it meets: each deletion's
first match is the range it is asked for, and no queue pair is
destroyed. -/
def CtxCall.Ok (ctx : Context) : CtxCall → Prop
  | .createCq _ _ => True
  | .destroyCq cq =>
      cq ∈ ctx.cqs →
        (MmapCall.del cq.range.phyAddr cq.range.len).Ok ctx.mmHead
  | .createQp qp answer =>
      Each MmapCall.step (fun l c => c.Ok l) ctx.mmHead
        (qp.calls ctx.ioaddr answer)
  | .destroyQp qp => qp ∉ ctx.qps

instance MmapCall.decidableOk (mmHead : List MmKey) :
    (c : MmapCall) → Decidable (c.Ok mmHead)
  | .add _ _ _ => isTrue trivial
  | .del phyAddr len =>
      inferInstanceAs (Decidable (∀ mm ∈ mmHead.find?
        (mmMatches phyAddr len), mm = ⟨phyAddr, len⟩))
  | .mmap _ vma =>
      inferInstanceAs (Decidable ((∃ mm ∈ mmHead,
        mm.len = vma.len ∨ mm.phyAddr = vma.phyAddr) →
          ⟨vma.phyAddr, vma.len⟩ ∈ mmHead))

instance CtxCall.decidableOk (ctx : Context) :
    (c : CtxCall) → Decidable (c.Ok ctx)
  | .createCq _ _ => isTrue trivial
  | .destroyCq cq =>
      inferInstanceAs (Decidable (cq ∈ ctx.cqs →
        (MmapCall.del cq.range.phyAddr cq.range.len).Ok ctx.mmHead))
  | .createQp qp answer =>
      inferInstanceAs (Decidable (Each MmapCall.step (fun l c => c.Ok l)
        ctx.mmHead (qp.calls ctx.ioaddr answer)))
  | .destroyQp qp => inferInstanceAs (Decidable (qp ∉ ctx.qps))

-- ================================================================ the list

/-- What a call is for, on the multiset of ranges. -/
def MmapCall.ideal (mm : Multiset MmKey) : MmapCall → Multiset MmKey
  | .add phyAddr len allocOk =>
      if allocOk then ⟨phyAddr, len⟩ ::ₘ mm else mm
  | .del phyAddr len => mm.erase ⟨phyAddr, len⟩
  | .mmap _ _ => mm

/-- Calls that meet their conditions do what they are for. -/
theorem exec_ideal {mmHead : List MmKey} {calls : List MmapCall}
    (h : Each MmapCall.step (fun l c => c.Ok l) mmHead calls) :
    ((exec MmapCall.step mmHead calls : List MmKey) : Multiset MmKey)
      = calls.foldl MmapCall.ideal (mmHead : Multiset MmKey) := by
  induction calls generalizing mmHead with
  | nil => rfl
  | cons c calls ih =>
      have hkept := (kept_iff_ok mmHead c).2 h.1
      have hc : (c.step mmHead : Multiset MmKey)
          = MmapCall.ideal (mmHead : Multiset MmKey) c := by
        cases c with
        | add phyAddr len allocOk =>
            simp only [MmapCall.Kept, addMmap] at hkept
            cases allocOk with
            | false => rfl
            | true =>
                simp only [if_true] at hkept
                exact hkept
        | del phyAddr len => exact hkept
        | mmap _ _ => rfl
      rw [exec_cons, ih h.2, hc, List.foldl_cons]

/-- The body of `bxroce_copy_qp_uresp` is its calls, and it succeeds when
nothing fails. -/
theorem copyQpUresp_eq (mmHead : List MmKey) (ioaddr : U64) (qp : QpMem)
    (answer : QpAnswer) :
    (copyQpUresp mmHead ioaddr qp answer).2
        = exec MmapCall.step mmHead (qp.calls ioaddr answer)
      ∧ ((copyQpUresp mmHead ioaddr qp answer).1 = 0
        ↔ answer = ⟨true, true, true, true, true⟩) := by
  obtain ⟨copyOk, addSqOk, addRqOk, addRegOk, addInfoOk⟩ := answer
  unfold copyQpUresp QpMem.calls
  rw [qp.sq.same, qp.rq.same]
  have hfail : (-ENOMEM : Int) ≠ 0 := by decide
  cases copyOk with
  | false => simp [EINVAL]
  | true =>
      cases addSqOk with
      | false => simp [addMmap, hfail, MmapCall.step]
      | true =>
          cases addRqOk with
          | false =>
              simp [addMmap, hfail, MmapCall.step, QpMem.sqRange]
          | true =>
              cases addRegOk with
              | false =>
                  simp [addMmap, hfail, MmapCall.step, QpMem.sqRange,
                    QpMem.rqRange]
              | true =>
                  cases addInfoOk with
                  | false =>
                      simp [addMmap, hfail, MmapCall.step, QpMem.sqRange,
                        QpMem.rqRange]
                  | true =>
                      simp [addMmap, MmapCall.step, QpMem.sqRange,
                        QpMem.rqRange]

/-- A creation that fails leaves the ranges it found; one that succeeds
adds the queue pair's. -/
theorem calls_ideal (mm : Multiset MmKey) (ioaddr : U64) (qp : QpMem)
    (answer : QpAnswer) :
    (qp.calls ioaddr answer).foldl MmapCall.ideal mm
      = if answer = ⟨true, true, true, true, true⟩
        then qp.ranges ioaddr + mm else mm := by
  obtain ⟨copyOk, addSqOk, addRqOk, addRegOk, addInfoOk⟩ := answer
  unfold QpMem.calls
  cases copyOk with
  | false => simp
  | true =>
      cases addSqOk with
      | false => simp [MmapCall.ideal]
      | true =>
          cases addRqOk with
          | false => simp [MmapCall.ideal]
          | true =>
              cases addRegOk with
              | false => simp [MmapCall.ideal]
              | true =>
                  cases addInfoOk with
                  | false => simp [MmapCall.ideal]
                  | true =>
                      simp only [Bool.true_eq_false, if_false, if_true,
                        List.foldl_cons, List.foldl_nil, MmapCall.ideal,
                        QpMem.ranges, Multiset.insert_eq_cons,
                        Multiset.cons_add, Multiset.singleton_add]

-- ================================================================= steps

theorem Context.start_right (ioaddr : U64) (ahTbl : MmKey) :
    (Context.start ioaddr ahTbl).Right := by
  unfold Context.Right Context.live
  simp [Context.start]

/-- A completion queue adds its one range, or nothing. -/
theorem Context.createCq_eq (ctx : Context) (cq : CqMem)
    (answer : CqAnswer) :
    ctx.createCq cq answer
      = if answer = ⟨true, true⟩ then
          { ctx with mmHead := ctx.mmHead ++ [cq.range], cqs := cq :: ctx.cqs }
        else ctx := by
  obtain ⟨copyOk, addOk⟩ := answer
  unfold Context.createCq copyCqUresp
  rw [cq.tx.same]
  cases copyOk with
  | false => simp [EINVAL]
  | true =>
      cases addOk with
      | false => simp [addMmap, ENOMEM]
      | true => simp [addMmap, CqMem.range]

/-- A queue pair is live from its answer on. -/
theorem Context.createQp_eq (ctx : Context) (qp : QpMem)
    (answer : QpAnswer) :
    ctx.createQp qp answer
      = { ctx with
          mmHead := exec MmapCall.step ctx.mmHead
            (qp.calls ctx.ioaddr answer)
          qps := if answer = ⟨true, true, true, true, true⟩
            then qp :: ctx.qps else ctx.qps } := by
  obtain ⟨hlist, hstatus⟩ :=
    copyQpUresp_eq ctx.mmHead ctx.ioaddr qp answer
  unfold Context.createQp
  simp only [hlist]
  by_cases hall : answer = ⟨true, true, true, true, true⟩
  · rw [if_neg (not_not_intro (hstatus.2 hall)), if_pos hall]
  · rw [if_pos (mt hstatus.1 hall), if_neg hall]

/-- The step lemma: a call that meets the condition keeps the list
right. -/
theorem Context.Right.step {ctx : Context} {c : CtxCall}
    (h : ctx.Right) (hok : c.Ok ctx) : (c.step ctx).Right := by
  cases c with
  | createCq cq answer =>
      show (ctx.createCq cq answer).Right
      rw [Context.createCq_eq]
      split
      · unfold Context.Right Context.live at h ⊢
        rw [List.map_cons, ← Multiset.coe_add, Multiset.coe_singleton, h,
          ← Multiset.cons_coe]
        simp only [← Multiset.singleton_add]
        abel
      · exact h
  | destroyCq cq =>
      show (ctx.destroyCq cq).Right
      unfold Context.destroyCq
      by_cases hlive : cq ∈ ctx.cqs
      · rw [if_pos hlive]
        have hdel := (kept_iff_ok ctx.mmHead _).2 (hok hlive)
        simp only [MmapCall.Kept] at hdel
        unfold Context.Right Context.live at h ⊢
        -- what is left of the queues' ranges is the others'
        have hcqs : (ctx.cqs.map CqMem.range : Multiset MmKey)
            = cq.range ::ₘ ((ctx.cqs.erase cq).map CqMem.range
              : List MmKey) :=
          Multiset.coe_eq_coe.2 ((List.perm_cons_erase hlive).map _)
        have hcons : (ctx.mmHead : Multiset MmKey)
            = cq.range ::ₘ ctx.ahTbl ::ₘ (((ctx.cqs.erase cq).map
              CqMem.range : List MmKey)
              + (ctx.qps.map (QpMem.ranges ctx.ioaddr)).sum) := by
          rw [h, hcqs, Multiset.cons_add, Multiset.cons_swap]
        refine hdel.trans ?_
        rw [hcons]
        exact Multiset.erase_cons_head _ _
      · rw [if_neg hlive]
        exact h
  | createQp qp answer =>
      show (ctx.createQp qp answer).Right
      have hexec := exec_ideal hok
      rw [calls_ideal] at hexec
      rw [Context.createQp_eq]
      unfold Context.Right Context.live at h ⊢
      simp only [hexec]
      split
      · rw [h, List.map_cons, List.sum_cons]
        simp only [← Multiset.singleton_add]
        abel
      · exact h
  | destroyQp qp =>
      have hnot : qp ∉ ctx.qps := hok
      show (ctx.destroyQp qp).Right
      unfold Context.destroyQp
      rw [if_neg hnot]
      exact h

-- ================================================================== runs

/-- In every run of creations and destructions in a context whose calls
all meet the condition, the list holds the ranges of the live objects
and the context's own table at every point. -/
theorem context_right {ioaddr : U64} {ahTbl : MmKey}
    {calls : List CtxCall}
    (h : Each CtxCall.step CtxCall.Ok (Context.start ioaddr ahTbl) calls) :
    Always CtxCall.step Context.Right (Context.start ioaddr ahTbl) calls :=
  h.always (fun _ _ hright hok => hright.step hok)
    (Context.start_right ioaddr ahTbl)

/-- A buffer at an address. -/
def buffer (pa : U64) : Coherent := ⟨pa, pa, rfl⟩

/-- The run of the witness: a completion queue, a queue pair whose third
registration fails, a queue pair that stays, and the completion queue's
end. -/
def exampleCalls : List CtxCall :=
  [.createCq ⟨buffer 0x100000, 0x4000⟩ ⟨true, true⟩,
    .createQp ⟨buffer 0x200000, 0x30000, buffer 0x300000, 0x8000, 0x400000⟩
      ⟨true, true, true, false, true⟩,
    .createQp ⟨buffer 0x500000, 0x30000, buffer 0x600000, 0x8000, 0x700000⟩
      ⟨true, true, true, true, true⟩,
    .destroyCq ⟨buffer 0x100000, 0x4000⟩]

/-- The condition is met by such a run. -/
theorem context_right_run :
    Always CtxCall.step Context.Right
      (Context.start 0xf0000000 ⟨0x80000, 0x2000⟩) exampleCalls :=
  context_right (by decide +kernel)

/-- A queue pair comes and goes and its last page stays mappable; of two
completion queues, the end of the second takes the first one's range. -/
theorem destroyed_page_stays :
    let qp : QpMem := ⟨buffer 0x200000, 0x30000, buffer 0x300000, 0x8000,
      0x400000⟩
    let cq : CqMem := ⟨buffer 0x100000, 0x4000⟩
    let cq' : CqMem := ⟨buffer 0x110000, 0x4000⟩
    let start := Context.start 0xf0000000 ⟨0x80000, 0x2000⟩
    let calls : List CtxCall :=
      [.createQp qp ⟨true, true, true, true, true⟩, .destroyQp qp]
    let calls' : List CtxCall :=
      [.createCq cq ⟨true, true⟩, .createCq cq' ⟨true, true⟩,
        .destroyCq cq']
    (exec CtxCall.step start calls).mmHead
        = [⟨0x80000, 0x2000⟩, ⟨0x400000, 0x1000⟩]
      ∧ (exec CtxCall.step start calls).qps = []
      ∧ ¬ Always CtxCall.step Context.Right start calls
      ∧ (exec CtxCall.step start calls').mmHead
        = [⟨0x80000, 0x2000⟩, cq'.range]
      ∧ (exec CtxCall.step start calls').cqs = [cq] := by
  intro qp cq cq' start calls calls'
  refine ⟨by decide +kernel, by decide +kernel, fun h => ?_,
    by decide +kernel, by decide +kernel⟩
  exact absurd h.last (by unfold Context.Right; decide +kernel)

end BxRnic.Kernel
