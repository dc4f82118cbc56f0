/-
What a failing `bxroce_alloc_ucontext` or `bxroce_alloc_pd` leaves.

All turns on the pool. A PD is there exactly if the pool is valid, below
its limit and finds memory (`Pool.HasRoom`); the callers take the pool's
NULL for a PD. Opening a context has one failure behind its PD, the copy
of the answer, and does not give the PD back there: only
`bxroce_dealloc_ucontext` does (`dealloc_allocUcontext`).
-/
import BxRnic.Kernel.Ucontext

namespace BxRnic.Kernel

section Alloc

variable {pool : Pool} {mem : Option Nat}

/-- The pool has a PD to give. -/
def Pool.HasRoom (pool : Pool) (mem : Option Nat) : Prop :=
  pool.valid = true ∧ pool.numElem < pool.maxElem ∧ mem.isSome = true

instance : Decidable (pool.HasRoom mem) :=
  inferInstanceAs (Decidable (_ ∧ _ ∧ _))

/-- A PD comes with its references, on the pool and in its count. -/
theorem allocPd_room (h : pool.HasRoom mem) :
    pool.allocPd mem
      = ({ pool with
          refCnt := pool.refCnt + 1, numElem := pool.numElem + 1 }, mem) := by
  obtain ⟨hvalid, hlt, hmem⟩ := h
  have hfits : ¬ (pool.numElem + 1 > pool.maxElem ∨ mem.isSome = false) := by
    rw [hmem]
    rintro (hfull | hfalse)
    · omega
    · cases hfalse
  unfold Pool.allocPd Pool.alloc
  dsimp only
  rw [hvalid, if_neg (by decide), if_neg hfits]

/-- Without room there is none, and the count is what it was. -/
theorem allocPd_full (h : ¬ pool.HasRoom mem) :
    ((pool.allocPd mem).1.numElem = pool.numElem)
      ∧ (pool.allocPd mem).2 = none := by
  unfold Pool.allocPd Pool.alloc
  dsimp only
  cases hvalid : pool.valid with
  | false => exact ⟨rfl, rfl⟩
  | true =>
    have hover : pool.numElem + 1 > pool.maxElem ∨ mem.isSome = false := by
      by_contra hboth
      obtain ⟨hle, hmem⟩ := not_or.1 hboth
      exact h ⟨hvalid, by omega, Bool.of_not_eq_false hmem⟩
    rw [if_neg (by decide), if_pos hover]
    exact ⟨rfl, rfl⟩

end Alloc

-- =============================================================== contexts

section Context

variable {env : UcontextEnv} {pool : Pool}

/-- How opening a context should end: with a PD of its own, or with the
count of the PDs, the PD of the context and its list as they were. -/
def OpenRestores (pool : Pool) :
    Verb AllocUcontextResp × Pool × Ucontext → Prop
  | (.ok _, pool', ctx) =>
      ctx.ctxPd.isSome = true ∧ pool'.numElem = pool.numElem + 1
  | (.err _, pool', ctx) =>
      pool'.numElem = pool.numElem ∧ ctx.ctxPd = Ucontext.zero.ctxPd
        ∧ ctx.mmHead = Ucontext.zero.mmHead
  | (.oops, _, _) => False

/-- Everything up to the PD is there. -/
structure UcontextEnv.Reaches (env : UcontextEnv) : Prop where
  udata : env.udata = true
  ctxOk : env.ctxOk = true
  ahTbl : env.ahTbl.isSome = true
  mmOk : env.mmOk = true

/-- A call that is turned away before the PD leaves nothing. -/
theorem allocUcontext_early (pool : Pool) (h : ¬ env.Reaches) :
    ∃ status ctx, allocUcontext env pool = (.err status, pool, ctx)
      ∧ ctx.ctxPd = none ∧ ctx.mmHead = [] := by
  unfold allocUcontext
  cases hudata : env.udata with
  | false => exact ⟨_, _, rfl, rfl, rfl⟩
  | true =>
    cases hctx : env.ctxOk with
    | false => exact ⟨_, _, rfl, rfl, rfl⟩
    | true =>
      cases htbl : env.ahTbl with
      | none => exact ⟨_, _, rfl, rfl, rfl⟩
      | some tbl =>
        cases hmm : env.mmOk with
        | false => exact ⟨_, _, rfl, rfl, rfl⟩
        | true =>
          exact absurd ⟨hudata, hctx, by rw [htbl]; rfl, hmm⟩ h

/-- The context when its PD comes up. -/
def openCtx (page pa : U64) : Ucontext :=
  { Ucontext.zero with
    mmHead := [⟨page, ahTblLen.setWidth 64⟩], ahTbl := ⟨pa, ahTblLen⟩ }

/-- What is left of a call that gets to the PD. -/
theorem allocUcontext_reaches (pool : Pool) (h : env.Reaches) :
    ∃ page pa, allocUcontext env pool =
      match allocUcontextPd pool env.pd (openCtx page pa) with
      | (.oops, pool, ctx) => (.oops, pool, ctx)
      | (.err status, pool, ctx) =>
          (.err status, pool,
            { ctx with
              mmHead := delMmap ctx.mmHead ctx.ahTbl.pa
                (ctx.ahTbl.len.setWidth 64) })
      | (.ok (), pool, ctx) =>
          if env.copyOk = false then
            (.err (-EFAULT), pool,
              { ctx with
                mmHead := delMmap ctx.mmHead ctx.ahTbl.pa
                  (ctx.ahTbl.len.setWidth 64) })
          else (.ok ⟨0, 64, 0, 16, env.fwVer, page, ahTblLen⟩, pool, ctx) := by
  obtain ⟨hudata, hctx, htbl, hmm⟩ := h
  obtain ⟨⟨page, pa⟩, htbl⟩ := Option.isSome_iff_exists.1 htbl
  refine ⟨page, pa, ?_⟩
  unfold allocUcontext
  rw [hudata, hctx, htbl, hmm]
  rfl

/-- Exactly when opening a context succeeds or leaves nothing. -/
theorem openRestores_iff :
    OpenRestores pool (allocUcontext env pool)
      ↔ (env.Reaches → pool.HasRoom env.pd ∧ env.copyOk = true) := by
  by_cases hreach : env.Reaches
  · obtain ⟨page, pa, heq⟩ := allocUcontext_reaches pool hreach
    rw [heq, imp_iff_right hreach]
    unfold allocUcontextPd
    by_cases hroom : pool.HasRoom env.pd
    · obtain ⟨pd, hpd⟩ := Option.isSome_iff_exists.1 hroom.2.2
      rw [allocPd_room hroom, hpd]
      dsimp only
      cases hcopy : env.copyOk with
      | false =>
        refine iff_of_false ?_ fun hboth => Bool.false_ne_true hboth.2
        rintro ⟨hnum, -, -⟩
        exact absurd hnum (Nat.succ_ne_self _)
      | true =>
        rw [hpd] at hroom
        exact iff_of_true ⟨rfl, rfl⟩ ⟨hroom, rfl⟩
    · obtain ⟨-, hnone⟩ := allocPd_full hroom
      refine iff_of_false ?_ fun hboth => hroom hboth.1
      generalize pool.allocPd env.pd = got at hnone
      obtain ⟨pool', pd⟩ := got
      cases hnone
      exact not_false
  · obtain ⟨status, ctx, heq, hpd, hmm⟩ :=
      allocUcontext_early pool hreach
    rw [heq]
    exact iff_of_true ⟨rfl, hpd, hmm⟩ fun h => absurd h hreach

/-- Closing a context gives back what opening it took. -/
theorem dealloc_allocUcontext (hheld : pool.refCnt ≠ 0)
    {resp : AllocUcontextResp}
    (hok : (allocUcontext env pool).1 = .ok resp) :
    (deallocUcontext 1 (allocUcontext env pool).2.1
        (allocUcontext env pool).2.2).1 = pool
      ∧ (deallocUcontext 1 (allocUcontext env pool).2.1
        (allocUcontext env pool).2.2).2.mmHead = [] := by
  refine ⟨?_, rfl⟩
  by_cases hreach : env.Reaches
  · obtain ⟨page, pa, heq⟩ := allocUcontext_reaches pool hreach
    unfold allocUcontextPd at heq
    by_cases hroom : pool.HasRoom env.pd
    · obtain ⟨pd, hpd⟩ := Option.isSome_iff_exists.1 hroom.2.2
      rw [allocPd_room hroom, hpd] at heq
      dsimp only at heq
      cases hcopy : env.copyOk with
      | false =>
        rw [heq, hcopy] at hok
        cases hok
      | true =>
        rw [heq, hcopy]
        unfold deallocUcontext Pool.dropPd Pool.elemRelease Pool.put
        dsimp only
        rw [if_neg Bool.true_eq_false.mp, if_pos rfl]
        dsimp only
        rw [Nat.add_sub_cancel, Nat.add_sub_cancel, if_neg hheld]
    · obtain ⟨-, hnone⟩ := allocPd_full hroom
      generalize pool.allocPd env.pd = got at heq hnone
      obtain ⟨pool', pd⟩ := got
      cases hnone
      rw [heq] at hok
      cases hok
  · obtain ⟨status, ctx, heq, -⟩ :=
      allocUcontext_early pool hreach
    rw [heq] at hok
    cases hok

end Context

-- ================================================================ domains

section Domain

variable {ibctx : Option Ucontext} {mem : Option Nat} {pool : Pool}

/-- How allocating a PD should end: with the PD of the context or one of
the pool's, or with the count of the PDs, the PD of the context and its
list as they were. -/
def PdRestores (ibctx : Option Ucontext) (mem : Option Nat) (pool : Pool) :
    Verb Nat × Pool × Option Ucontext → Prop
  | (.ok pd, pool', ibctx') =>
      (ibctx.bind (·.ctxPd) = some pd ∧ pool'.numElem = pool.numElem
          ∨ mem = some pd ∧ pool'.numElem = pool.numElem + 1)
        ∧ ibctx'.map (·.ctxPd) = ibctx.map (·.ctxPd)
        ∧ ibctx'.map (·.mmHead) = ibctx.map (·.mmHead)
  | (.err _, pool', ibctx') =>
      pool'.numElem = pool.numElem
        ∧ ibctx'.map (·.ctxPd) = ibctx.map (·.ctxPd)
        ∧ ibctx'.map (·.mmHead) = ibctx.map (·.mmHead)
  | (.oops, _, _) => False

/-- The context's own PD is not there to be had. -/
def Ucontext.NeedsPool (uctx : Ucontext) : Prop :=
  uctx.pdInUse = true ∨ uctx.ctxPd = none

theorem getUcontextPd_spec (uctx : Ucontext) :
    (getUcontextPd uctx).2.ctxPd = uctx.ctxPd
      ∧ (getUcontextPd uctx).2.mmHead = uctx.mmHead
      ∧ ((getUcontextPd uctx).1 = none ∧ uctx.NeedsPool
        ∨ ∃ pd, (getUcontextPd uctx).1 = some pd ∧ uctx.ctxPd = some pd
          ∧ ¬ uctx.NeedsPool) := by
  unfold getUcontextPd Ucontext.NeedsPool
  cases hused : uctx.pdInUse with
  | true => exact ⟨rfl, rfl, Or.inl ⟨rfl, Or.inl rfl⟩⟩
  | false =>
    cases hpd : uctx.ctxPd with
    | none => exact ⟨rfl, rfl, Or.inl ⟨rfl, Or.inr rfl⟩⟩
    | some pd =>
      refine ⟨rfl, rfl, Or.inr ⟨pd, rfl, rfl, ?_⟩⟩
      rintro (hfalse | hfalse)
      · cases hfalse
      · cases hfalse

/-- Exactly when allocating a PD succeeds or leaves nothing. -/
theorem pdRestores_iff :
    PdRestores ibctx mem pool (allocPd ibctx mem pool)
      ↔ ∀ uctx, ibctx = some uctx → uctx.NeedsPool →
          pool.HasRoom mem := by
  unfold allocPd
  cases ibctx with
  | none =>
    refine iff_of_true ?_ fun uctx hnone => by cases hnone
    by_cases hroom : pool.HasRoom mem
    · obtain ⟨pd, hpd⟩ := Option.isSome_iff_exists.1 hroom.2.2
      rw [allocPd_room hroom, hpd]
      exact ⟨Or.inr ⟨rfl, rfl⟩, rfl, rfl⟩
    · obtain ⟨hnum, hnone⟩ := allocPd_full hroom
      generalize pool.allocPd mem = got at hnum hnone
      obtain ⟨pool', pd⟩ := got
      cases hnone
      exact ⟨hnum, rfl, rfl⟩
  | some uctx =>
    dsimp only
    obtain ⟨hpd, hmm, hget⟩ := getUcontextPd_spec uctx
    generalize getUcontextPd uctx = got at hpd hmm hget
    obtain ⟨own, uctx'⟩ := got
    dsimp only at hpd hmm hget
    have hsame : (some uctx').map (·.ctxPd) = (some uctx).map (·.ctxPd)
        ∧ (some uctx').map (·.mmHead) = (some uctx).map (·.mmHead) :=
      ⟨congrArg some hpd, congrArg some hmm⟩
    rcases hget with ⟨rfl, hneeds⟩ | ⟨pd, rfl, hown, hfree⟩
    · dsimp only
      by_cases hroom : pool.HasRoom mem
      · obtain ⟨pd, hmem⟩ := Option.isSome_iff_exists.1 hroom.2.2
        refine iff_of_true ?_ fun _ _ _ => hroom
        rw [allocPd_room hroom, hmem]
        exact ⟨Or.inr ⟨rfl, rfl⟩, hsame⟩
      · obtain ⟨-, hnone⟩ := allocPd_full hroom
        refine iff_of_false ?_ fun h => hroom (h uctx rfl hneeds)
        generalize pool.allocPd mem = got at hnone
        obtain ⟨pool', pd⟩ := got
        cases hnone
        exact not_false
    · refine iff_of_true ⟨Or.inl ⟨hown, rfl⟩, hsame⟩ ?_
      intro uctx' heq hneeds
      cases heq
      exact absurd hneeds hfree

end Domain

-- ================================================================= result

/-- Exactly when the two verbs succeed or leave nothing. -/
theorem allocs_restore_iff (env : UcontextEnv) (ibctx : Option Ucontext)
    (mem : Option Nat) (pool : Pool) :
    (OpenRestores pool (allocUcontext env pool)
        ↔ (env.Reaches → pool.HasRoom env.pd ∧ env.copyOk = true))
      ∧ (PdRestores ibctx mem pool (allocPd ibctx mem pool)
        ↔ ∀ uctx, ibctx = some uctx → uctx.NeedsPool →
            pool.HasRoom mem) :=
  ⟨openRestores_iff, pdRestores_iff⟩

/-- A call that finds everything, a PD at address 1. -/
def findsAll : UcontextEnv where
  udata := true
  ctxOk := true
  ahTbl := some (0x1000, 0x1000)
  mmOk := true
  pd := some 1
  fwVer := []
  copyOk := true

/-- An answer that cannot be copied leaves the PD in the count and in the
context that is freed. When the pool is at its limit, opening a context
and allocating a second PD write through NULL. -/
theorem allocs_leave_pd :
    ¬ OpenRestores (.init 1)
        (allocUcontext { findsAll with copyOk := false } (.init 1))
      ∧ (allocUcontext { findsAll with copyOk := false } (.init 1)).1
        = .err (-EFAULT)
      ∧ (allocUcontext { findsAll with copyOk := false }
          (.init 1)).2.1.numElem = 1
      ∧ (allocUcontext findsAll (.init 0)).1 = .oops
      ∧ (allocPd (some ⟨[], some 1, true, ⟨0, 0⟩⟩) (some 2)
          (.init 0)).1 = .oops := by
  refine ⟨?_, rfl, rfl, rfl, rfl⟩
  rintro ⟨hnum, -, -⟩
  cases hnum

end BxRnic.Kernel
