/-
Whether the ports are independent of one another: an operation called
for a port should depend on that port alone, leave the other alone, and
be the other port's operation with the names exchanged.

Four operations keep that unconditionally. The other four take a branch
on the fields of port 0 whichever port they are called for. With the
branch decided from outside (`PcsOp.body`) all eight are independent;
the code feeds them port 0's decision (`PcsOp.steer`). So the ports are
independent exactly where port 0's fields decide what the port's own
would have decided, or where the decision makes no difference.
-/
import BxRnic.Pcs.Proofs.Traces

namespace BxRnic.Pcs

variable {H : Type}

-- =========================================================== operations

/-- The operations of auto-negotiation and KR training. -/
inductive PcsOp
  | anStart
  | anIntCmpl
  | anPgRcv
  | anNxpCheck
  | anBasePageCfg
  | anDisable
  | krtStart
  | krtCheckState
deriving DecidableEq

/-- The operation, called for a port. -/
def PcsOp.run (hw : PcsHw H) : PcsOp → Port → Driver H Unit
  | .anStart, p => pcsAnStart hw p
  | .anIntCmpl, p => pcsAnIntCmpl hw p
  | .anPgRcv, p => pcsAnPgRcv hw p
  | .anNxpCheck, p => pcsAnNxpCheck hw p
  | .anBasePageCfg, p => pcsAnBasePageCfg hw p
  | .anDisable, p => pcsAnDisable hw p
  | .krtStart, p => pcsKrtStart hw p
  | .krtCheckState, p => pcsKrtCheckState hw p

/-- Independence of an operation for port `p`, in a state `s` and against
a state `t`: where `t` has port `p` as `s` has it, the operation leaves
port `p` the same, with the same writes; the other port's fields and
registers are as they were; and the operation is the other port's with
the names exchanged. -/
structure Independent (hw : PcsHw H) (op : PcsOp) (p : Port)
    (s t : Nic H) : Prop where
  own : Alike p p s t → Alike p p (op.run hw p s).2 (op.run hw p t).2
  fieldsAcross : (op.run hw p s).2.fields p.other = s.fields p.other
  blockAcross : (op.run hw p s).2.block p.other = s.block p.other
  renamed : (op.run hw p s).2 = (op.run hw p.other s.mirror).2.mirror

-- ============================================================= condition

/-- The branch an operation takes, decided on one port's fields: the
code asks port 0's. -/
def PcsOp.steer : PcsOp → PcsFields → Bool
  | .anStart, f => f.anEn ≠ 0
  | .anIntCmpl, f => f.krtSuccess ≠ 0 ∨ f.krtFailed ≠ 0
  | .anPgRcv, f =>
    f.krtStart = 0 ∧ f.krtSuccess = 0 ∧ f.krtFailed = 0
  | .anNxpCheck, f =>
    f.krtStart = 0 ∧ f.krtSuccess = 0 ∧ f.krtFailed = 0
  | .anBasePageCfg, _ => true
  | .anDisable, _ => true
  | .krtStart, _ => true
  | .krtCheckState, _ => true

/-- The next page bits of what the port advertises and of what its
partner sent: of the base page first, of the next pages then. -/
def nxpBits (hw : PcsHw H) (p : Port) : Driver H (U32 × U32) := do
  let f ← viewPort p
  (if f.anNxpIndex = 0 then do
    let advXnp ← pcsAnReadAdvBasePage hw p
    let lpXnp ← pcsAnReadLpBasePage hw p
    pure (advXnp, lpXnp)
  else do
    let advXnp ← pcsAnReadAdvNextPage hw p
    let lpXnp ← pcsAnReadLpNextPage hw p
    pure (advXnp, lpXnp))

/-- Whether the branch makes a difference: for the next page check it
does when no next page is announced and training can be started or
refused. -/
def PcsOp.Matters (hw : PcsHw H) (p : Port) (s : Nic H) : PcsOp → Prop
  | .anStart => True
  | .anIntCmpl => True
  | .anPgRcv => True
  | .anNxpCheck =>
    (nxpBits hw p s).1 = (0, 0) ∧ ¬ (s.fields p).KrtSettled
  | .anBasePageCfg => False
  | .anDisable => False
  | .krtStart => False
  | .krtCheckState => False

/-- Where the branch matters, port 0's fields decide it as port 1's
would, and, for port 1, they do so in both states. -/
def PcsOp.WellSteered (hw : PcsHw H) (op : PcsOp) (p : Port)
    (s t : Nic H) : Prop :=
  op.Matters hw p s →
    op.steer s.pcs0 = op.steer s.pcs1
      ∧ (p = .one → Alike p p s t → op.steer s.pcs0 = op.steer t.pcs0)

-- ==================================================== decided branches

/-- `pcs_an_start`, told whether negotiation is enabled. -/
def startIf (hw : PcsHw H) (g : Bool) (p : Port) : Driver H Unit :=
  if g then do
    pcsAnClearAllIntr hw p
    let data ← pcsRegRead hw p SR_AN_CTRL
    pcsRegWrite hw p SR_AN_CTRL
      (setBits (setBits data 12 12 0x1) 9 9 0x1)
    onPort p fun f =>
      { f with
        anStart := 1
        anRestartLock := 1
        anRcvCnt := 0
        anIntrCheckCnt := 0
        anSuccess := 0
        anNxpIndex := 0
        krtSuccess := 0
        krtFailed := 0 }
    setLinkCheck PCS_LINK_CHECK_FAST_TIMER_USECS
  else pure ()

/-- `pcs_an_int_cmpl`, told whether training has come to an end. -/
def intCmplIf (hw : PcsHw H) (g : Bool) (p : Port) : Driver H Unit := do
  (if g then do
    onPort p fun f => { f with anSuccess := 1, anStart := 0 }
    pcsAnDisable hw p
  else pcsKrtStart hw p)
  pcsAnClearIntr hw p 0 0
  setLinkCheck PCS_LINK_CHECK_SLOW_TIMER_USECS

/-- `pcs_an_nxp_check`, told whether training is untouched. -/
def nxpCheckIf (hw : PcsHw H) (g : Bool) (p : Port) : Driver H Unit := do
  let xnp ← nxpTurn hw p
  (if xnp.1 = 0x0 ∧ xnp.2 = 0x0 ∧ g then pcsKrtStart hw p else pure ())

/-- The page counter, given up at the limit without the detour over the
link check that port 1 makes. -/
def countUp (hw : PcsHw H) (p : Port) : Driver H Unit := do
  onPort p fun f => { f with anRcvCnt := f.anRcvCnt + 1 }
  let f ← viewPort p
  (if PCS_AN_MAX_RCV_CNT.sle f.anRcvCnt then pcsAnDisable hw p
  else pure ())

/-- The status read after a page, if negotiation is complete. -/
def readStatus (hw : PcsHw H) (p : Port) : Driver H Unit := do
  let comp ← pcsAnComp hw p
  (if comp ≠ 0 then do
    let _ ← pcsAnCheckCompState hw p
    pure ()
  else pure ())

/-- How `pcs_an_pg_rcv` ends. -/
def pageDone (hw : PcsHw H) (p : Port) : Driver H Unit := do
  pcsAnClearIntr hw p 2 2
  setLinkCheck PCS_LINK_CHECK_FAST_TIMER_USECS

/-- `pcs_an_pg_rcv`, told whether training is untouched. -/
def pgRcvIf (hw : PcsHw H) (g : Bool) (p : Port) : Driver H Unit := do
  (if g then do
    nxpCheckIf hw true p
    readStatus hw p
    countUp hw p
  else pure ())
  pageDone hw p

/-- The operation with its branch decided from outside. -/
def PcsOp.body (hw : PcsHw H) : PcsOp → Bool → Port → Driver H Unit
  | .anStart, g, p => startIf hw g p
  | .anIntCmpl, g, p => intCmplIf hw g p
  | .anPgRcv, g, p => pgRcvIf hw g p
  | .anNxpCheck, g, p => nxpCheckIf hw g p
  | .anBasePageCfg, _, p => pcsAnBasePageCfg hw p
  | .anDisable, _, p => pcsAnDisable hw p
  | .krtStart, _, p => pcsKrtStart hw p
  | .krtCheckState, _, p => pcsKrtCheckState hw p

-- ============================================= bodies are independent

section Bodies

variable {hw : PcsHw H} {p q : Port} {R : Nic H → Nic H → Prop}

theorem Link.startIf (h : Link p q R) (g : Bool) :
    Related R (Pcs.startIf hw g p) (Pcs.startIf hw g q) := by
  refine Related.ite (fun _ => ?_) fun _ => Related.pure _
  refine (h.write _ _).bind fun _ => ?_
  refine (h.read _).bind fun data => ?_
  refine (h.write _ _).bind fun _ => ?_
  refine (h.onPort _).bind fun _ => ?_
  exact h.setLinkCheck _

theorem Link.intCmplIf (h : Link p q R) (g : Bool) :
    Related R (Pcs.intCmplIf hw g p) (Pcs.intCmplIf hw g q) := by
  refine Related.bind ?_ fun _ => (h.clearIntr _ _).bind fun _ => ?_
  · refine Related.ite (fun _ => ?_) fun _ => h.krtStart
    exact (h.onPort _).bind fun _ => h.disable
  · exact h.setLinkCheck _

theorem Link.nxpCheckIf (h : Link p q R) (g : Bool) :
    Related R (Pcs.nxpCheckIf hw g p) (Pcs.nxpCheckIf hw g q) := by
  refine h.nxpTurn.bind fun xnp => ?_
  exact Related.ite (fun _ => h.krtStart) fun _ => Related.pure _

theorem Link.countUp (h : Link p q R) :
    Related R (Pcs.countUp hw p) (Pcs.countUp hw q) := by
  refine (h.onPort _).bind fun _ => h.viewPort.bind fun f => ?_
  exact Related.ite (fun _ => h.disable) fun _ => Related.pure _

theorem Link.readStatus (h : Link p q R) :
    Related R (Pcs.readStatus hw p) (Pcs.readStatus hw q) := by
  refine h.comp.bind fun comp => ?_
  refine Related.ite (fun _ => ?_) fun _ => Related.pure _
  exact (h.read _).bind fun _ => Related.pure _

theorem Link.pgRcvIf (h : Link p q R) (g : Bool) :
    Related R (Pcs.pgRcvIf hw g p) (Pcs.pgRcvIf hw g q) := by
  refine Related.bind ?_ fun _ => (h.clearIntr _ _).bind fun _ => ?_
  · refine Related.ite (fun _ => ?_) fun _ => Related.pure _
    exact (h.nxpCheckIf true).bind fun _ => h.readStatus.bind
      fun _ => h.countUp
  · exact h.setLinkCheck _

/-- Decided from outside, every operation is the same for either port
and looks at its own alone. -/
theorem PcsOp.body_related (hw : PcsHw H) (h : Link p q R) (op : PcsOp)
    (g : Bool) :
    Related R (op.body hw g p) (op.body hw g q) := by
  cases op with
  | anStart => exact h.startIf g
  | anIntCmpl => exact h.intCmplIf g
  | anPgRcv => exact h.pgRcvIf g
  | anNxpCheck => exact h.nxpCheckIf g
  | anBasePageCfg => exact h.basePageCfg
  | anDisable => exact h.disable
  | krtStart => exact h.krtStart
  | krtCheckState => exact h.krtCheckState

end Bodies

-- ===================================== the code follows port 0's fields

section Steering

variable {hw : PcsHw H} {p : Port}

theorem pcsAnStart_steered (s : Nic H) :
    pcsAnStart hw p s = startIf hw (PcsOp.anStart.steer s.pcs0) p s := by
  unfold pcsAnStart
  rw [get_bind_run]
  by_cases h : s.pcs0.anEn ≠ 0
  · have hg : PcsOp.anStart.steer s.pcs0 = true := decide_eq_true h
    rw [hg, if_pos h]
    cases p <;> rfl
  · have hg : PcsOp.anStart.steer s.pcs0 = false := decide_eq_false h
    rw [hg, if_neg h]
    rfl

theorem pcsAnIntCmpl_steered (s : Nic H) :
    pcsAnIntCmpl hw p s
      = intCmplIf hw (PcsOp.anIntCmpl.steer s.pcs0) p s := by
  unfold pcsAnIntCmpl
  rw [get_bind_run]
  by_cases h : s.pcs0.krtSuccess ≠ 0 ∨ s.pcs0.krtFailed ≠ 0
  · have hg : PcsOp.anIntCmpl.steer s.pcs0 = true := decide_eq_true h
    rw [hg, if_pos h]
    cases p <;> rfl
  · have hg : PcsOp.anIntCmpl.steer s.pcs0 = false := decide_eq_false h
    rw [hg, if_neg h]
    rfl

/-- The check with the test on port 0's training written out. -/
theorem pcsAnNxpCheck_eq :
    pcsAnNxpCheck hw p = (do
      let xnp ← nxpTurn hw p
      let s ← get
      (if xnp.1 = 0x0 ∧ xnp.2 = 0x0 ∧ s.pcs0.krtStart = 0
          ∧ s.pcs0.krtSuccess = 0 ∧ s.pcs0.krtFailed = 0 then
        pcsKrtStart hw p
      else pure ())) := by
  cases p <;> rfl

theorem pcsAnNxpCheck_steered (s : Nic H) :
    pcsAnNxpCheck hw p s
      = nxpCheckIf hw (PcsOp.anNxpCheck.steer s.pcs0) p s := by
  rw [pcsAnNxpCheck_eq, bind_run, get_bind_run, nxpCheckIf, bind_run]
  -- the turn of pages has not touched port 0's training
  have hkrt : (nxpTurn hw p s).2.pcs0.krt = s.pcs0.krt :=
    (nxpTurn_calm hw p s).krt .zero
  obtain ⟨-, hstart, hsucc, hfail⟩ :
      _ ∧ (nxpTurn hw p s).2.pcs0.krtStart = s.pcs0.krtStart
        ∧ (nxpTurn hw p s).2.pcs0.krtSuccess = s.pcs0.krtSuccess
        ∧ (nxpTurn hw p s).2.pcs0.krtFailed = s.pcs0.krtFailed := by
    simpa [PcsFields.krt] using hkrt
  rw [hstart, hsucc, hfail]
  simp only [PcsOp.steer, decide_eq_true_eq]

/-- At the limit port 1 sets the link check as well, and the end of the
interrupt sets it again. -/
theorem countPage_done (s : Nic H) :
    (countPage hw p >>= fun _ => pageDone hw p) s
      = (countUp hw p >>= fun _ => pageDone hw p) s := by
  cases p with
  | zero => rfl
  | one =>
    have hpage : countPage hw .one s
        = (if PCS_AN_MAX_RCV_CNT.sle (s.pcs1.anRcvCnt + 1) then
            pcsAnTimeout hw .one else pure ())
          (s.updFields .one fun f => { f with anRcvCnt := f.anRcvCnt + 1 })
        := rfl
    have hup : countUp hw .one s
        = (if PCS_AN_MAX_RCV_CNT.sle (s.pcs1.anRcvCnt + 1) then
            pcsAnDisable hw .one else pure ())
          (s.updFields .one fun f => { f with anRcvCnt := f.anRcvCnt + 1 })
        := rfl
    rw [bind_run, bind_run, hpage, hup]
    by_cases h : PCS_AN_MAX_RCV_CNT.sle (s.pcs1.anRcvCnt + 1)
    · rw [if_pos h, if_pos h]
      rfl
    · rw [if_neg h, if_neg h]

theorem pcsAnPgRcv_steered (s : Nic H) :
    pcsAnPgRcv hw p s = pgRcvIf hw (PcsOp.anPgRcv.steer s.pcs0) p s := by
  unfold pcsAnPgRcv
  rw [get_bind_run]
  by_cases h : s.pcs0.krtStart = 0 ∧ s.pcs0.krtSuccess = 0
      ∧ s.pcs0.krtFailed = 0
  · have hg : PcsOp.anPgRcv.steer s.pcs0 = true := decide_eq_true h
    have hcheck : pcsAnNxpCheck hw p s = nxpCheckIf hw true p s := by
      rw [← hg]
      exact pcsAnNxpCheck_steered s
    rw [hg, if_pos h]
    show (countPage hw p >>= fun _ => pageDone hw p)
        (readStatus hw p (pcsAnNxpCheck hw p s).2).2
      = (countUp hw p >>= fun _ => pageDone hw p)
        (readStatus hw p (nxpCheckIf hw true p s).2).2
    rw [hcheck]
    exact countPage_done _
  · have hg : PcsOp.anPgRcv.steer s.pcs0 = false := decide_eq_false h
    rw [hg, if_neg h]
    rfl

/-- The code takes the branch that port 0's fields decide. -/
theorem PcsOp.run_eq (op : PcsOp) (s : Nic H) :
    op.run hw p s = op.body hw (op.steer s.pcs0) p s := by
  cases op with
  | anStart => exact pcsAnStart_steered s
  | anIntCmpl => exact pcsAnIntCmpl_steered s
  | anPgRcv => exact pcsAnPgRcv_steered s
  | anNxpCheck => exact pcsAnNxpCheck_steered s
  | anBasePageCfg => rfl
  | anDisable => rfl
  | krtStart => rfl
  | krtCheckState => rfl

end Steering

-- ================================================== the branches apart

section Branches

variable {hw : PcsHw H} {p : Port}

theorem startIf_longer :
    Moves (Longer p 2) (startIf hw true p) := by
  refine longer_bind 1 1 (wrote_longer (pcsRegWrite_moves _ _))
    fun _ => ?_
  refine longer_bind 0 1 (wrote_longer (pcsRegRead_moves _))
    fun data => ?_
  refine longer_bind 1 0 (wrote_longer (pcsRegWrite_moves _ _))
    fun _ => ?_
  refine longer_bind 0 0 (onPort_longer _) fun _ => ?_
  exact wrote_longer (setLinkCheck_moves _)

/-- An interrupt is cleared and the next check is set. -/
theorem interruptDone_moves (hw : PcsHw H) (p : Port) (i : Nat)
    (u : U32) :
    Moves (Wrote p 1)
      (pcsAnClearIntr hw p i i >>= fun _ => setLinkCheck u) :=
  wrote_bind 1 0 (readWrite_moves _ _) fun _ => setLinkCheck_moves _

theorem intCmplIf_longer :
    Moves (Longer p 2) (intCmplIf hw true p) := by
  refine longer_bind 1 1 ?_ fun _ =>
    wrote_longer (interruptDone_moves hw p _ _)
  exact longer_bind 0 1 (onPort_longer _) fun _ =>
    pcsAnDisable_longer hw p

theorem nxpTurn_bits (s : Nic H) :
    (nxpTurn hw p s).1 = (nxpBits hw p s).1 := by
  have hturn : (nxpTurn hw p s).1
      = ((if (s.fields p).anNxpIndex = 0 then
          exchangePage hw p (pcsAnReadAdvBasePage hw)
            (pcsAnReadLpBasePage hw) (s.fields p).anNxp30
            (s.fields p).anNxp20 (s.fields p).anNxp10
        else if (s.fields p).anNxpIndex = 1 then
          exchangePage hw p (pcsAnReadAdvNextPage hw)
            (pcsAnReadLpNextPage hw) (s.fields p).anNxp31
            (s.fields p).anNxp21 (s.fields p).anNxp11
        else
          exchangePage hw p (pcsAnReadAdvNextPage hw)
            (pcsAnReadLpNextPage hw) s.nullPage.2.2 s.nullPage.2.1
            s.nullPage.1) s).1 := rfl
  have hbits : (nxpBits hw p s).1
      = ((if (s.fields p).anNxpIndex = 0 then do
          let advXnp ← pcsAnReadAdvBasePage hw p
          let lpXnp ← pcsAnReadLpBasePage hw p
          pure (advXnp, lpXnp)
        else do
          let advXnp ← pcsAnReadAdvNextPage hw p
          let lpXnp ← pcsAnReadLpNextPage hw p
          pure (advXnp, lpXnp)) s).1 := rfl
  rw [hturn, hbits]
  by_cases h0 : (s.fields p).anNxpIndex = 0
  · rw [if_pos h0, if_pos h0]
    rfl
  · rw [if_neg h0, if_neg h0]
    by_cases h1 : (s.fields p).anNxpIndex = 1
    · rw [if_pos h1]
      rfl
    · rw [if_neg h1]
      rfl

theorem Alike.length {q : Port} {s t : Nic H} (h : Alike p q s t) :
    (s.block p).writes.length = (t.block q).writes.length := by
  rw [h.block]

/-- Two outcomes with as many writes cannot have received different
numbers of them. -/
theorem not_alike_of_longer {m n : Nat} {s t u : Nic H}
    (ht : Longer p m s t) (hu : Longer p n s u) (h : m ≠ n) :
    ¬ Alike p p t u := by
  intro hal
  have hlen := hal.length
  unfold Longer at *
  omega

theorem startIf_apart (s : Nic H) :
    ¬ Alike p p (startIf hw true p s).2 (startIf hw false p s).2 := by
  have hfalse : Longer p 0 s (startIf hw false p s).2 := rfl
  exact not_alike_of_longer (startIf_longer s) hfalse (by decide)

theorem intCmplIf_apart (s : Nic H) :
    ¬ Alike p p (intCmplIf hw true p s).2
        (intCmplIf hw false p s).2 := by
  have hdone := (interruptDone_moves hw p 0
    PCS_LINK_CHECK_SLOW_TIMER_USECS (pcsKrtStart hw p s).2).longer
  have hend : (pcsAnClearIntr hw p 0 0 >>= fun _ =>
      setLinkCheck PCS_LINK_CHECK_SLOW_TIMER_USECS)
        (pcsKrtStart hw p s).2 = intCmplIf hw false p s := rfl
  rw [hend] at hdone
  -- one write or three, against two
  rcases pcsKrtStart_longer hw p s with hkrt | hkrt
  · have hone : Longer p 1 s (intCmplIf hw false p s).2 := by
      unfold Longer at *
      omega
    exact not_alike_of_longer (intCmplIf_longer s) hone (by decide)
  · have hthree : Longer p 3 s (intCmplIf hw false p s).2 := by
      unfold Longer at *
      omega
    exact not_alike_of_longer (intCmplIf_longer s) hthree (by decide)

theorem nxpCheckIf_false (s : Nic H) :
    (nxpCheckIf hw false p s).2 = (nxpTurn hw p s).2 := by
  have hrun : nxpCheckIf hw false p s
      = (if (nxpTurn hw p s).1.1 = 0x0 ∧ (nxpTurn hw p s).1.2 = 0x0
            ∧ false = true then pcsKrtStart hw p else pure ())
          (nxpTurn hw p s).2 := rfl
  rw [hrun, if_neg (by simp)]
  rfl

theorem nxpCheckIf_true_announced (s : Nic H)
    (h : (nxpBits hw p s).1 ≠ (0, 0)) :
    (nxpCheckIf hw true p s).2 = (nxpTurn hw p s).2 := by
  have hrun : nxpCheckIf hw true p s
      = (if (nxpTurn hw p s).1.1 = 0x0 ∧ (nxpTurn hw p s).1.2 = 0x0
            ∧ true = true then pcsKrtStart hw p else pure ())
          (nxpTurn hw p s).2 := rfl
  rw [hrun, nxpTurn_bits, if_neg ?_]
  · rfl
  · rintro ⟨hadv, hlp, -⟩
    exact h (Prod.ext hadv hlp)

theorem nxpCheckIf_true_silent (s : Nic H)
    (h : (nxpBits hw p s).1 = (0, 0)) :
    nxpCheckIf hw true p s = pcsKrtStart hw p (nxpTurn hw p s).2 := by
  have hrun : nxpCheckIf hw true p s
      = (if (nxpTurn hw p s).1.1 = 0x0 ∧ (nxpTurn hw p s).1.2 = 0x0
            ∧ true = true then pcsKrtStart hw p else pure ())
          (nxpTurn hw p s).2 := rfl
  rw [hrun, nxpTurn_bits, h, if_pos ⟨rfl, rfl, rfl⟩]

theorem krtSettled_nxpTurn (s : Nic H) :
    ((nxpTurn hw p s).2.fields p).KrtSettled
      ↔ (s.fields p).KrtSettled := by
  have hkrt := (nxpTurn_calm hw p s).krt p
  simp only [PcsFields.krt, Prod.mk.injEq] at hkrt
  obtain ⟨hen, hstart, -, hfail⟩ := hkrt
  rw [PcsFields.KrtSettled, PcsFields.KrtSettled, hen, hstart, hfail]

theorem nxpCheckIf_apart (s : Nic H) (h : (nxpBits hw p s).1 = (0, 0))
    (hkrt : ¬ (s.fields p).KrtSettled) :
    ¬ Alike p p (nxpCheckIf hw true p s).2
        (nxpCheckIf hw false p s).2 := by
  intro hal
  rw [nxpCheckIf_true_silent s h, nxpCheckIf_false] at hal
  refine pcsKrtStart_unsettled (fun hset => ?_) hal.fields
  exact hkrt ((krtSettled_nxpTurn s).1 hset)

theorem nxpCheckIf_together (s : Nic H)
    (h : ¬ ((nxpBits hw p s).1 = (0, 0)
      ∧ ¬ (s.fields p).KrtSettled)) :
    (nxpCheckIf hw true p s).2 = (nxpCheckIf hw false p s).2 := by
  rw [nxpCheckIf_false]
  by_cases hbits : (nxpBits hw p s).1 = (0, 0)
  · have hset : (s.fields p).KrtSettled := by
      by_contra hnot
      exact h ⟨hbits, hnot⟩
    rw [nxpCheckIf_true_silent s hbits,
      pcsKrtStart_settled ((krtSettled_nxpTurn s).2 hset)]
  · exact nxpCheckIf_true_announced s hbits

/-- The check keeps the page counter, and its writes are additional. -/
theorem nxpCheckIf_counts (hw : PcsHw H) (p : Port)
    (s : Nic H) :
    ((nxpCheckIf hw true p s).2.fields p).anRcvCnt
        = (s.fields p).anRcvCnt
      ∧ (s.block p).writes.length
        ≤ ((nxpCheckIf hw true p s).2.block p).writes.length := by
  have hturn := nxpTurn_calm hw p s
  by_cases hbits : (nxpBits hw p s).1 = (0, 0)
  · rw [nxpCheckIf_true_silent s hbits, pcsKrtStart_rcvCnt]
    refine ⟨hturn.rcvCnt, le_trans hturn.grown ?_⟩
    rcases pcsKrtStart_longer hw p
      (nxpTurn hw p s).2 with hkrt | hkrt
    · exact le_of_eq hkrt.symm
    · rw [hkrt]
      exact Nat.le_add_right _ 2
  · rw [nxpCheckIf_true_announced s hbits]
    exact ⟨hturn.rcvCnt, hturn.grown⟩

theorem readStatus_moves : Moves (Wrote p 0) (readStatus hw p) := by
  have hcomp : Moves (Wrote p 0) (pcsAnComp hw p) :=
    wrote_bind 0 0 (pcsRegRead_moves _) fun _ =>
      Moves.pure (fun s => ⟨fun _ => rfl, rfl⟩) _
  refine wrote_bind 0 0 hcomp fun comp => ?_
  refine Moves.ite (fun _ => ?_) fun _ =>
    Moves.pure (fun s => ⟨fun _ => rfl, rfl⟩) _
  exact wrote_bind 0 0 (pcsRegRead_moves _) fun _ =>
    Moves.pure (fun s => ⟨fun _ => rfl, rfl⟩) _

/-- A page is counted, or the count is given up with a write. -/
theorem countUp_cases (hw : PcsHw H) (p : Port) (s : Nic H) :
    Longer p 1 s (countUp hw p s).2
      ∨ (Longer p 0 s (countUp hw p s).2
        ∧ ((countUp hw p s).2.fields p).anRcvCnt
          = (s.fields p).anRcvCnt + 1) := by
  have hrun : countUp hw p s
      = (if PCS_AN_MAX_RCV_CNT.sle ((s.updFields p fun f =>
            { f with anRcvCnt := f.anRcvCnt + 1 }).fields p).anRcvCnt
          then pcsAnDisable hw p else pure ())
        (s.updFields p fun f => { f with anRcvCnt := f.anRcvCnt + 1 })
      := rfl
  have hstep := onPort_longer (H := H) (p := p)
    (fun f => { f with anRcvCnt := f.anRcvCnt + 1 }) s
  rw [hrun]
  split
  · refine Or.inl ?_
    have hgive := pcsAnDisable_longer hw p
      (s.updFields p fun f => { f with anRcvCnt := f.anRcvCnt + 1 })
    unfold Longer at *
    rw [hgive, block_updFields]
  · refine Or.inr ⟨hstep, ?_⟩
    show ((s.updFields p _).fields p).anRcvCnt = _
    rw [fields_updFields]

theorem pgRcvIf_apart (s : Nic H) :
    ¬ Alike p p (pgRcvIf hw true p s).2 (pgRcvIf hw false p s).2 := by
  have hfalse : Wrote p 1 s (pgRcvIf hw false p s).2 :=
    interruptDone_moves hw p 2
      PCS_LINK_CHECK_FAST_TIMER_USECS s
  obtain ⟨hcnt, hlen⟩ := nxpCheckIf_counts hw p s
  generalize ht : (nxpCheckIf hw true p s).2 = t at hcnt hlen
  have hread : Wrote p 0 t (readStatus hw p t).2 := readStatus_moves t
  generalize hu : (readStatus hw p t).2 = u at hread
  have htrue : pgRcvIf hw true p s = pageDone hw p (countUp hw p u).2 := by
    rw [← hu, ← ht]
    rfl
  have hdone : Wrote p 1 (countUp hw p u).2
      (pageDone hw p (countUp hw p u).2).2 :=
    interruptDone_moves hw p 2
      PCS_LINK_CHECK_FAST_TIMER_USECS (countUp hw p u).2
  rw [htrue]
  intro hal
  have hblock := hal.length
  have hone := hfalse.longer
  have hzero := hread.longer
  have hend := hdone.longer
  rcases countUp_cases hw p u with hmore | ⟨-, hup⟩
  · -- given up: one write too many
    unfold Longer at *
    omega
  · -- counted: the counter has moved
    have hfields := congrArg PcsFields.anRcvCnt hal.fields
    rw [hdone.fields p, hup, hread.fields p, hcnt,
      hfalse.fields p] at hfields
    bv_omega

/-- Where the branch matters its two sides do different things to the
port. -/
theorem PcsOp.body_apart (op : PcsOp) (s : Nic H)
    (h : op.Matters hw p s) :
    ¬ Alike p p (op.body hw true p s).2 (op.body hw false p s).2 := by
  cases op with
  | anStart => exact startIf_apart s
  | anIntCmpl => exact intCmplIf_apart s
  | anPgRcv => exact pgRcvIf_apart s
  | anNxpCheck => exact nxpCheckIf_apart s h.1 h.2
  | anBasePageCfg => exact h.elim
  | anDisable => exact h.elim
  | krtStart => exact h.elim
  | krtCheckState => exact h.elim

/-- Where it does not, they do the same. -/
theorem PcsOp.body_together (op : PcsOp) (s : Nic H)
    (h : ¬ op.Matters hw p s) :
    (op.body hw true p s).2 = (op.body hw false p s).2 := by
  cases op with
  | anStart => exact absurd trivial h
  | anIntCmpl => exact absurd trivial h
  | anPgRcv => exact absurd trivial h
  | anNxpCheck => exact nxpCheckIf_together s h
  | anBasePageCfg => rfl
  | anDisable => rfl
  | krtStart => rfl
  | krtCheckState => rfl

end Branches

-- ======================================================= independence

section Ports

variable {hw : PcsHw H} {p : Port}

/-- An operation whose branch is decided from outside depends on its own
port and leaves the other alone. -/
theorem PcsOp.body_seen (hw : PcsHw H) (op : PcsOp) (g : Bool)
    {s t : Nic H}
    (h : Alike p p s t) :
    Alike p p (op.body hw g p s).2 (op.body hw g p t).2
      ∧ ((op.body hw g p s).2.fields p.other,
          (op.body hw g p s).2.block p.other)
        = (s.fields p.other, s.block p.other) := by
  have hlink := link_seen p p (s.fields p.other, s.block p.other)
    (t.fields p.other, t.block p.other)
  have hout := (PcsOp.body_related hw hlink op g s t
    ⟨h, rfl, rfl⟩).state
  exact ⟨hout.toAlike, hout.across⟩

/-- Decided from outside, the operation for one port is the other's with
the names exchanged. -/
theorem PcsOp.body_renamed (op : PcsOp) (g : Bool) (s : Nic H) :
    (op.body hw g p s).2 = (op.body hw g p.other s.mirror).2.mirror :=
  (PcsOp.body_related hw (link_mirror p) op g s s.mirror
    rfl).state

theorem Alike.refl (s : Nic H) : Alike p p s s := ⟨rfl, rfl, rfl⟩

theorem Alike.symm {q : Port} {s t : Nic H} (h : Alike p q s t) :
    Alike q p t s :=
  ⟨h.fields.symm, h.block.symm, h.nullPage.symm⟩

theorem Alike.trans {q r : Port} {s t u : Nic H} (h : Alike p q s t)
    (h' : Alike q r t u) : Alike p r s u :=
  ⟨h.fields.trans h'.fields, h.block.trans h'.block,
    h.nullPage.trans h'.nullPage⟩

/-- Where the branch matters, two decisions that do the same to the port
are the same decision. -/
theorem PcsOp.decision_unique (op : PcsOp) {s : Nic H} {g g' : Bool}
    (h : op.Matters hw p s)
    (hal : Alike p p (op.body hw g p s).2 (op.body hw g' p s).2) :
    g = g' := by
  have hapart := PcsOp.body_apart op s h
  cases g with
  | true =>
    cases g' with
    | true => rfl
    | false => exact absurd hal hapart
  | false =>
    cases g' with
    | true => exact absurd hal.symm hapart
    | false => rfl

/-- Where two decisions agree, or the branch does not matter, the
outcome is the same. -/
theorem PcsOp.decision_irrelevant (op : PcsOp) {s : Nic H} {g g' : Bool}
    (h : op.Matters hw p s → g = g') :
    (op.body hw g p s).2 = (op.body hw g' p s).2 := by
  by_cases hm : op.Matters hw p s
  · rw [h hm]
  · have hsame := PcsOp.body_together op s hm
    cases g with
    | true =>
      cases g' with
      | true => rfl
      | false => exact hsame
    | false =>
      cases g' with
      | true => exact hsame.symm
      | false => rfl

theorem Independent.wellSteered {op : PcsOp} {s t : Nic H}
    (h : Independent hw op p s t) : op.WellSteered hw p s t := by
  intro hm
  have hrun : (op.run hw p s).2
      = (op.body hw (op.steer s.pcs0) p s).2 := by
    rw [PcsOp.run_eq]
  refine ⟨?_, fun _ hst => ?_⟩
  · -- the mirror image decides on port 1's fields
    have hmirror : (op.run hw p.other s.mirror).2.mirror
        = (op.body hw (op.steer s.pcs1) p s).2 := by
      rw [PcsOp.run_eq, PcsOp.body_renamed op _ s]
      rfl
    refine PcsOp.decision_unique op hm ?_
    rw [← hrun, ← hmirror, ← h.renamed]
    exact Alike.refl _
  · -- the other state decides on its own port 0
    have hown := h.own hst
    rw [hrun, PcsOp.run_eq] at hown
    have hother := (PcsOp.body_seen hw op (op.steer t.pcs0)
      hst).1
    exact PcsOp.decision_unique op hm (hown.trans hother.symm)

theorem PcsOp.WellSteered.independent {op : PcsOp} {s t : Nic H}
    (h : op.WellSteered hw p s t) : Independent hw op p s t := by
  have hframe := (PcsOp.body_seen hw op
    (op.steer s.pcs0) (Alike.refl (p := p) s)).2
  rw [← PcsOp.run_eq] at hframe
  have hframe' := Prod.mk.inj hframe
  refine ⟨fun hst => ?_, hframe'.1, hframe'.2, ?_⟩
  · have hsame : op.Matters hw p s →
        op.steer s.pcs0 = op.steer t.pcs0 := by
      intro hm
      cases p with
      | zero =>
        have hfields : s.pcs0 = t.pcs0 := hst.fields
        rw [hfields]
      | one => exact (h hm).2 rfl hst
    rw [PcsOp.run_eq, PcsOp.run_eq,
      PcsOp.decision_irrelevant op hsame]
    exact (PcsOp.body_seen hw op _ hst).1
  · rw [PcsOp.run_eq, PcsOp.run_eq,
      PcsOp.decision_irrelevant op fun hm => (h hm).1]
    exact PcsOp.body_renamed op _ s

/-- The ports are independent exactly where port 0's fields decide the
branch as the port's own would, or where it makes no difference. -/
theorem independent_iff (hw : PcsHw H) (op : PcsOp) (p : Port)
    (s t : Nic H) :
    Independent hw op p s t ↔ op.WellSteered hw p s t :=
  ⟨Independent.wellSteered, PcsOp.WellSteered.independent⟩

end Ports

-- ============================================================ a case

/-- Registers that keep what is written to them. -/
def plainRegisters : PcsHw (List (Nat × U32)) where
  read regs offset := ((regs.lookup offset).getD 0, regs)
  write regs offset data := (offset, data) :: regs

/-- Fields of a port that negotiates if `anEn` says so. -/
def fieldsWith (anEn : U32) : PcsFields :=
  ⟨SPEED_25G, 1, anEn, 0, 0, 0, 0, 0, 0, 0, 0, 0, 0, 1, 0, 0, 0, 0, 0,
    0, 0, 0⟩

/-- Port 1 negotiates, and port 0 if `anEn` says so. -/
def nicWith (anEn : U32) : Nic (List (Nat × U32)) :=
  ⟨fieldsWith anEn, fieldsWith 1, 0, 0, 0, 0, ⟨[], []⟩, ⟨[], []⟩⟩

/-- Port 1's negotiation is enabled in both states, and is started only
where port 0's is enabled too. -/
theorem port_one_not_started :
    ¬ Independent plainRegisters .anStart .one (nicWith 0)
        (nicWith 1) := by
  intro h
  have hown := (h.own ⟨rfl, rfl, rfl⟩).length
  exact absurd hown (by decide)

end BxRnic.Pcs
