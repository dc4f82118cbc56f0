/-
One turn of `bxroce_post_send` as the completion path sees it: what
becomes of the send queue's head, of the id table and of the registers
when a request is accepted, turned down, or put off.

The conditions are on the request and the queue pair (`Fails`, `Ready`,
`SkipsSlot`), and `postSendTurn_cases` says that they are what decides;
the results about runs read the turns off it.
-/
import BxRnic.User.Proofs.Entries

namespace BxRnic.User

-- ========================================================= the requests

/-- `IBV_SEND_INLINE`, or something the transport does not carry: the
entries of the request cannot be built. A request without entries always
can. -/
def SendWr.Unbuildable (imm : WrOpcode)
    (refused : QpType → SendWr → Bool) (wr : SendWr) (qp : Qp) : Prop :=
  wr.inlineRefused qp = true
    ∨ refused qp.qpType wr = true ∧ entriesOf imm wr ≠ 0

instance (imm : WrOpcode) (refused : QpType → SendWr → Bool)
    (wr : SendWr) (qp : Qp) : Decidable (wr.Unbuildable imm refused qp) :=
  inferInstanceAs (Decidable (_ ∨ _))

/-- The server's reply is a translation. -/
def SendWr.Answers (wr : SendWr) : Option SgPhyInfo → Prop
  | none => False
  | some sginfo => sginfo.phyaddr ≠ wr.remoteAddr

instance (wr : SendWr) (reply : Option SgPhyInfo) :
    Decidable (wr.Answers reply) :=
  match reply with
  | none => inferInstanceAs (Decidable False)
  | some _ => inferInstanceAs (Decidable (_ ≠ _))

/-- A translation of the remote address is found. -/
def SendWr.Translated (wr : SendWr) (qp : Qp)
    (reply : Option SgPhyInfo) : Prop :=
  qp.addrtbl.covers wr.remoteAddr ∨ wr.Answers reply

instance (wr : SendWr) (qp : Qp) (reply : Option SgPhyInfo) :
    Decidable (wr.Translated qp reply) :=
  inferInstanceAs (Decidable (_ ∨ _))

/-- The `switch` fails on the request. A read fails silently. -/
def SendWr.Fails (wr : SendWr) (qp : Qp) (reply : Option SgPhyInfo) :
    Prop :=
  match wr.opcode with
  | .rdmaRead => False
  | .other => True
  | .rdmaWrite =>
      ¬ wr.Translated qp reply
        ∨ wr.Unbuildable .rdmaWriteWithImm writeRefused qp
  | .rdmaWriteWithImm =>
      ¬ wr.Translated qp reply
        ∨ wr.Unbuildable .rdmaWriteWithImm writeRefused qp
  | _ => wr.Unbuildable .sendWithImm sendRefused qp

instance (wr : SendWr) (qp : Qp) (reply : Option SgPhyInfo) :
    Decidable (wr.Fails qp reply) := by
  unfold SendWr.Fails
  cases wr.opcode with
  | rdmaRead => exact inferInstanceAs (Decidable False)
  | other => exact inferInstanceAs (Decidable True)
  | rdmaWrite => exact inferInstanceAs (Decidable (_ ∨ _))
  | rdmaWriteWithImm => exact inferInstanceAs (Decidable (_ ∨ _))
  | send => exact inferInstanceAs (Decidable (SendWr.Unbuildable ..))
  | sendWithImm => exact inferInstanceAs (Decidable (SendWr.Unbuildable ..))
  | sendWithInv => exact inferInstanceAs (Decidable (SendWr.Unbuildable ..))

/-- The queue entries an accepted request has been given. A read is
accepted whatever became of its entries. -/
def SendWr.entries (wr : SendWr) (qp : Qp) : Nat :=
  match wr.opcode with
  | .rdmaRead =>
      if wr.Unbuildable .rdmaWriteWithImm writeRefused qp then 0
      else wr.numSge
  | .rdmaWrite => entriesOf .rdmaWriteWithImm wr
  | .rdmaWriteWithImm => entriesOf .rdmaWriteWithImm wr
  | _ => entriesOf .sendWithImm wr

/-- The request is immediate data on its own, and is turned down once
its entry has been prepared: the head has then left the entry behind. -/
def SendWr.SkipsSlot (wr : SendWr) (qp : Qp) (reply : Option SgPhyInfo) :
    Prop :=
  wr.sgList = [] ∧ wr.inlineRefused qp = false
    ∧ (wr.opcode = .sendWithImm ∧ sendRefused qp.qpType wr = true
      ∨ wr.opcode = .rdmaWriteWithImm ∧ writeRefused qp.qpType wr = true
        ∧ wr.Translated qp reply)

instance (wr : SendWr) (qp : Qp) (reply : Option SgPhyInfo) :
    Decidable (wr.SkipsSlot qp reply) :=
  inferInstanceAs (Decidable (_ ∧ _ ∧ (_ ∨ _)))

/-- The tests in front of the room test let the request through. -/
def SendWr.Admitted (wr : SendWr) (qp : Qp) : Prop :=
  ¬ (qp.qpType = .ud ∧ wr.opcode ≠ .send ∧ wr.opcode ≠ .sendWithImm)
    ∧ sqhwqFreeCnt qp.sq ≠ 0 ∧ wr.numSge ≤ qp.sq.maxSges

instance (wr : SendWr) (qp : Qp) : Decidable (wr.Admitted qp) :=
  inferInstanceAs (Decidable (_ ∧ _ ∧ _))

/-- The request is about to be built. -/
def SendWr.Ready (wr : SendWr) (qp : Qp) : Prop :=
  wr.Admitted qp ∧ wr.numSge < sqhwqFreeCnt qp.sq

instance (wr : SendWr) (qp : Qp) : Decidable (wr.Ready qp) :=
  inferInstanceAs (Decidable (_ ∧ _))

/-- The rest of the ring is too short for the request: the queue is to
move back to its start. -/
def SendWr.TooLong (wr : SendWr) (qp : Qp) : Prop :=
  wr.Admitted qp ∧ sqhwqFreeCnt qp.sq ≤ wr.numSge

instance (wr : SendWr) (qp : Qp) : Decidable (wr.TooLong qp) :=
  inferInstanceAs (Decidable (_ ∧ _))

theorem entriesOf_le (imm : WrOpcode) (wr : SendWr) :
    entriesOf imm wr ≤ wr.numSge + 1 := by
  unfold entriesOf
  split
  · omega
  · omega

theorem SendWr.entries_le (wr : SendWr) (qp : Qp) :
    wr.entries qp ≤ wr.numSge + 1 := by
  unfold SendWr.entries
  split
  · split
    · omega
    · omega
  · exact entriesOf_le _ _
  · exact entriesOf_le _ _
  · exact entriesOf_le _ _

/-- A request that is not rung has no entries. -/
theorem SendWr.entries_of_not_rung {wr : SendWr} (qp : Qp)
    (h : wr.numSge = 0 ∧ wr.opcode ≠ .rdmaWriteWithImm
      ∧ wr.opcode ≠ .sendWithImm) : wr.entries qp = 0 := by
  obtain ⟨hsge, hwrite, hsend⟩ := h
  unfold SendWr.entries entriesOf
  split
  · split
    · rfl
    · exact hsge
  · rw [if_neg fun h => hwrite h.2]
    exact hsge
  · rename_i hop
    exact absurd hop hwrite
  · rw [if_neg fun h => hsend h.2]
    exact hsge

theorem einval_ne_zero : EINVAL ≠ 0 := by decide

theorem enomem_ne_zero : ENOMEM ≠ 0 := by decide

-- ============================================================ the frames

/-- `qp'` is `qp` with `k` entries of the request. -/
abbrev Qp.Takes (qp : Qp) (wr : SendWr) (k : Nat) (qp' : Qp) : Prop :=
  qp.Sends (qp.sq.advance k)
    (recordSlots qp.sq (wr.wqeWrId qp) qp.wqeWrIdTbl k) qp'

/-- Nothing the completion path reads has changed. -/
abbrev Qp.Keeps (qp qp' : Qp) : Prop :=
  qp.Sends qp.sq qp.wqeWrIdTbl qp'

/-- Entries taken on top of a change that does not matter. -/
theorem Qp.Sends.takes {qp qp' qp'' : Qp} {wr : SendWr} {k : Nat}
    (h : qp.Keeps qp') (h' : qp'.Takes wr k qp'') :
    qp.Takes wr k qp'' := by
  have hid : wr.wqeWrId qp' = wr.wqeWrId qp := by
    unfold SendWr.wqeWrId
    rw [h.isSignaled_eq]
  unfold Qp.Takes at h' ⊢
  rw [h.sq_eq, h.tbl_eq, hid] at h'
  exact h.trans h'

/-- Nothing that matters, on top of a change that does not matter. -/
theorem Qp.Sends.keeps {qp qp' qp'' : Qp} (h : qp.Keeps qp')
    (h' : qp'.Keeps qp'') : qp.Keeps qp'' := by
  unfold Qp.Keeps at h'
  rw [h.sq_eq, h.tbl_eq] at h'
  exact h.trans h'

/-- Nor does it matter for what can be built. -/
theorem Qp.Sends.unbuildable_iff {qp qp' : Qp} {sq : HwqInfo}
    {tbl : Nat → WqeWrId} (h : qp.Sends sq tbl qp') {imm : WrOpcode}
    {refused : QpType → SendWr → Bool} {wr : SendWr} :
    wr.Unbuildable imm refused qp' ↔ wr.Unbuildable imm refused qp := by
  unfold SendWr.Unbuildable
  rw [h.inlineRefused_eq, h.qpType_eq]

/-- A new translated address is no concern of the completion path. -/
theorem rdmaAddr_keeps (qp : Qp) (addr : U64) :
    qp.Keeps { qp with rdmaAddr := addr } :=
  ⟨_, _, _, _, rfl⟩

-- ============================================================ the builds

/-- What a routine of the send path comes to: the request has its `k`
entries; or it fails, and unless it skips a slot the head is where it
was. -/
inductive Built (qp : Qp) (wr : SendWr) (k : Nat) (fails skips : Prop) :
    Int × Qp → Prop
  | done {qp' : Qp} : ¬ fails → qp.Takes wr k qp' →
      Built qp wr k fails skips (0, qp')
  | failed {status : Int} {sq : HwqInfo} {qp' : Qp} :
      status ≠ 0 → fails → qp.Sends sq qp.wqeWrIdTbl qp' →
      (¬ skips → sq = qp.sq) → Built qp wr k fails skips (status, qp')

/-- The same seen from before a change that does not matter. -/
theorem Built.keeps {qp qp₀ : Qp} {wr : SendWr} {k : Nat}
    {fails skips : Prop} {r : Int × Qp} (hput : qp₀.Keeps qp)
    (h : Built qp wr k fails skips r) : Built qp₀ wr k fails skips r := by
  cases h with
  | done hok htakes => exact .done hok (hput.takes htakes)
  | failed hne hfails hsends hkeeps =>
      rw [hput.tbl_eq] at hsends
      rw [hput.sq_eq] at hkeeps
      exact .failed hne hfails (hput.trans hsends) hkeeps

/-- The same for conditions that come to the same. -/
theorem Built.congr {qp : Qp} {wr : SendWr} {k : Nat}
    {fails skips fails' skips' : Prop} {r : Int × Qp}
    (h : Built qp wr k fails skips r) (hf : fails ↔ fails')
    (hs : skips → skips') : Built qp wr k fails' skips' r := by
  cases h with
  | done hok htakes => exact .done (mt hf.2 hok) htakes
  | failed hne hfails hsends hkeeps =>
      exact .failed hne (hf.1 hfails) hsends
        fun hskip => hkeeps (mt hs hskip)

section Build

variable {refused : QpType → SendWr → Bool}
variable {prepare : Qp → Wqe → SendWr → Int × Qp × Wqe}

/-- `bxroce_build_sges` and `bxroce_buildwrite_sges`. -/
theorem buildSgesWith_cases (hp : Prepares refused prepare)
    (imm : WrOpcode) (mrList : List MrSgInfo) (qp : Qp) (wr : SendWr) :
    Built qp wr (entriesOf imm wr)
      (refused qp.qpType wr = true ∧ entriesOf imm wr ≠ 0)
      (wr.sgList = [] ∧ wr.opcode = imm ∧ refused qp.qpType wr = true)
      (buildSgesWith imm prepare mrList qp wr) := by
  generalize hr : buildSgesWith imm prepare mrList qp wr = r
  obtain ⟨status, qp'⟩ := r
  by_cases hzero : entriesOf imm wr = 0
  · rw [buildSgesWith_none hzero] at hr
    obtain ⟨rfl, rfl⟩ := Prod.mk.inj hr
    refine .done (fun h => h.2 hzero) ?_
    rw [hzero]
    exact Qp.Sends.refl qp
  cases href : refused qp.qpType wr with
  | false =>
      have hbuilt := buildSgesWith_built hp imm mrList href
      rw [hr] at hbuilt
      obtain ⟨rfl, htakes⟩ := hbuilt
      exact .done (fun h => by simp at h) htakes
  | true =>
      have hbuilt := buildSgesWith_refused hp mrList href hzero
      rw [hr] at hbuilt
      obtain ⟨rfl, hsends⟩ := hbuilt
      refine .failed einval_ne_zero ⟨rfl, hzero⟩ hsends fun hskip => ?_
      rw [if_neg fun hnil => hskip ⟨hnil, ?_, rfl⟩]
      -- no elements, and yet an entry: it is for immediate data
      by_contra himm
      unfold entriesOf at hzero
      rw [if_neg fun h => himm h.2, SendWr.numSge, hnil] at hzero
      exact hzero rfl

/-- The same behind the test for inline data, which fails with some
status of its own. -/
theorem buildInline_cases (hp : Prepares refused prepare)
    (imm : WrOpcode) (mrList : List MrSgInfo) (qp : Qp) (wr : SendWr)
    {status : Int} (hstatus : status ≠ 0) :
    Built qp wr (entriesOf imm wr) (wr.Unbuildable imm refused qp)
      (wr.sgList = [] ∧ wr.inlineRefused qp = false ∧ wr.opcode = imm
        ∧ refused qp.qpType wr = true)
      (if wr.inlineRefused qp then
        (status, qp.putWqe (inlineWqe qp wr))
      else buildSgesWith imm prepare mrList qp wr) := by
  cases hinline : wr.inlineRefused qp with
  | true =>
      exact .failed hstatus (Or.inl hinline) (Qp.Sends.putWqe _ _)
        fun _ => rfl
  | false =>
      refine (buildSgesWith_cases hp imm mrList qp wr).congr ?_ ?_
      · unfold SendWr.Unbuildable
        rw [hinline]
        simp
      · exact fun ⟨hnil, himm, hr⟩ => ⟨hnil, rfl, himm, hr⟩

end Build

/-- `bxroce_build_send`. -/
theorem buildSend_cases (mrList : List MrSgInfo) (qp : Qp)
    (wr : SendWr) :
    Built qp wr (entriesOf .sendWithImm wr)
      (wr.Unbuildable .sendWithImm sendRefused qp)
      (wr.sgList = [] ∧ wr.inlineRefused qp = false
        ∧ wr.opcode = .sendWithImm ∧ sendRefused qp.qpType wr = true)
      (buildSend mrList qp wr) :=
  buildInline_cases prepareSendWqe_prepares .sendWithImm mrList qp wr
    einval_ne_zero

/-- `bxroce_buildwrite_inline_sges`. -/
theorem buildwriteInline_cases (mrList : List MrSgInfo) (qp : Qp)
    (wr : SendWr) :
    Built qp wr (entriesOf .rdmaWriteWithImm wr)
      (wr.Unbuildable .rdmaWriteWithImm writeRefused qp)
      (wr.sgList = [] ∧ wr.inlineRefused qp = false
        ∧ wr.opcode = .rdmaWriteWithImm
        ∧ writeRefused qp.qpType wr = true)
      (buildwriteInlineSges mrList qp wr) :=
  buildInline_cases prepareWriteWqe_prepares .rdmaWriteWithImm mrList qp
    wr (neg_ne_zero.2 einval_ne_zero)

/-- The exchange with the server leaves what the completion path
reads. -/
theorem exchangeDmaaddrinfo_keeps (qp : Qp) (wr : SendWr)
    (reply : Option SgPhyInfo) :
    qp.Keeps (exchangeDmaaddrinfo qp wr reply).2
      ∧ ((exchangeDmaaddrinfo qp wr reply).1 = 0
        ↔ wr.Answers reply) := by
  unfold exchangeDmaaddrinfo SendWr.Answers
  cases reply with
  | none => exact ⟨Qp.Sends.refl qp, iff_of_false einval_ne_zero id⟩
  | some sginfo =>
      simp only
      by_cases hsame : sginfo.phyaddr = wr.remoteAddr
      · rw [if_pos hsame]
        exact ⟨Qp.Sends.refl qp,
          iff_of_false einval_ne_zero (not_not.2 hsame)⟩
      · rw [if_neg hsame]
        exact ⟨⟨_, _, _, _, rfl⟩, iff_of_true rfl hsame⟩

/-- `bxroce_build_write`. -/
theorem buildWrite_cases (mrList : List MrSgInfo) (qp : Qp)
    (wr : SendWr) (reply : Option SgPhyInfo) :
    Built qp wr (entriesOf .rdmaWriteWithImm wr)
      (¬ wr.Translated qp reply
        ∨ wr.Unbuildable .rdmaWriteWithImm writeRefused qp)
      (wr.sgList = [] ∧ wr.inlineRefused qp = false
        ∧ wr.opcode = .rdmaWriteWithImm
        ∧ writeRefused qp.qpType wr = true ∧ wr.Translated qp reply)
      (buildWrite mrList qp wr reply) := by
  have hbuilt : ∀ {qp' : Qp}, qp.Keeps qp' → wr.Translated qp reply →
      Built qp wr (entriesOf .rdmaWriteWithImm wr)
        (¬ wr.Translated qp reply
          ∨ wr.Unbuildable .rdmaWriteWithImm writeRefused qp)
        (wr.sgList = [] ∧ wr.inlineRefused qp = false
          ∧ wr.opcode = .rdmaWriteWithImm
          ∧ writeRefused qp.qpType wr = true ∧ wr.Translated qp reply)
        (buildwriteInlineSges mrList qp' wr) := by
    intro qp' hput hfound
    refine ((buildwriteInline_cases mrList qp' wr).keeps hput).congr ?_ ?_
    · exact hput.unbuildable_iff.trans
        (or_iff_right (not_not.2 hfound)).symm
    · rw [hput.inlineRefused_eq, hput.qpType_eq]
      exact fun ⟨hnil, hinline, himm, hr⟩ =>
        ⟨hnil, hinline, himm, hr, hfound⟩
  unfold buildWrite
  by_cases hcovers : qp.addrtbl.covers wr.remoteAddr
  · simp only [if_pos hcovers]
    exact hbuilt (rdmaAddr_keeps qp _) (Or.inl hcovers)
  · simp only [if_neg hcovers]
    obtain ⟨hasked, hanswers⟩ := exchangeDmaaddrinfo_keeps qp wr reply
    by_cases hstatus : (exchangeDmaaddrinfo qp wr reply).1 = 0
    · simp only [hstatus, ne_eq, not_true_eq_false, if_false]
      exact hbuilt (hasked.keeps (rdmaAddr_keeps _ _))
        (Or.inr (hanswers.1 hstatus))
    · simp only [hstatus, ne_eq, not_false_eq_true, if_true]
      refine .failed hstatus (Or.inl ?_) hasked fun _ => rfl
      exact fun hfound => hfound.elim hcovers (mt hanswers.2 hstatus)

/-- `bxroce_build_read`: its entries are built, or they are not, and no
one is told. -/
theorem buildRead_takes (mrList : List MrSgInfo) (qp : Qp) {wr : SendWr}
    (hop : wr.opcode = .rdmaRead) (reply : Option SgPhyInfo) :
    qp.Takes wr (wr.entries qp) (buildRead mrList qp wr reply) := by
  have hnum : entriesOf .rdmaWriteWithImm wr = wr.numSge := by
    unfold entriesOf
    rw [if_neg fun h => ?_]
    rw [hop] at h
    cases h.2
  have hentries : wr.entries qp
      = if wr.Unbuildable .rdmaWriteWithImm writeRefused qp then 0
        else wr.numSge := by
    unfold SendWr.entries
    rw [hop]
  have hbuilt : ∀ {qp' : Qp}, qp.Keeps qp' →
      qp.Takes wr (wr.entries qp)
        (buildwriteInlineSges mrList qp' wr).2 := by
    intro qp' hput
    have hcases := ((buildwriteInline_cases mrList qp' wr).keeps
      hput).congr hput.unbuildable_iff id
    rw [hnum] at hcases
    generalize buildwriteInlineSges mrList qp' wr = r at hcases
    cases hcases with
    | done hok htakes =>
        rwa [hentries, if_neg hok]
    | failed _ hfails hsends hkeeps =>
        rw [hkeeps fun hskip => by
          rw [hop] at hskip
          cases hskip.2.2.1] at hsends
        rwa [hentries, if_pos hfails]
  unfold buildRead
  by_cases hcovers : qp.addrtbl.covers wr.remoteAddr
  · simp only [if_pos hcovers]
    exact hbuilt (rdmaAddr_keeps qp _)
  · simp only [if_neg hcovers]
    exact hbuilt ((exchangeDmaaddrinfo_keeps qp wr reply).1.keeps
      (rdmaAddr_keeps _ _))

-- ========================================================= the dispatch

/-- The `switch` on the opcode. -/
theorem buildWr_cases (mrList : List MrSgInfo) (qp : Qp) (wr : SendWr)
    (reply : Option SgPhyInfo) :
    Built qp wr (wr.entries qp) (wr.Fails qp reply)
      (wr.SkipsSlot qp reply) (buildWr mrList qp wr reply) := by
  have hsend : ∀ {qp' : Qp}, qp.Keeps qp' →
      Built qp wr (entriesOf .sendWithImm wr)
        (wr.Unbuildable .sendWithImm sendRefused qp)
        (wr.SkipsSlot qp reply) (buildSend mrList qp' wr) := by
    intro qp' hput
    refine ((buildSend_cases mrList qp' wr).keeps hput).congr
      hput.unbuildable_iff ?_
    rw [hput.inlineRefused_eq, hput.qpType_eq]
    exact fun ⟨hnil, hinline, himm, hr⟩ =>
      ⟨hnil, hinline, Or.inl ⟨himm, hr⟩⟩
  have hwrite : ∀ {qp' : Qp}, qp.Keeps qp' → qp'.addrtbl = qp.addrtbl →
      Built qp wr (entriesOf .rdmaWriteWithImm wr)
        (¬ wr.Translated qp reply
          ∨ wr.Unbuildable .rdmaWriteWithImm writeRefused qp)
        (wr.SkipsSlot qp reply) (buildWrite mrList qp' wr reply) := by
    intro qp' hput htbl
    refine ((buildWrite_cases mrList qp' wr reply).keeps hput).congr
      ?_ ?_
    · unfold SendWr.Translated
      rw [hput.unbuildable_iff, htbl]
    · unfold SendWr.SkipsSlot SendWr.Translated
      rw [hput.inlineRefused_eq, hput.qpType_eq, htbl]
      exact fun ⟨hnil, hinline, himm, hr, hfound⟩ =>
        ⟨hnil, hinline, Or.inr ⟨himm, hr, hfound⟩⟩
  unfold buildWr SendWr.entries SendWr.Fails
  cases hop : wr.opcode with
  | sendWithImm => exact hsend (Qp.Sends.putWqe _ _)
  | send => exact hsend (Qp.Sends.refl qp)
  | sendWithInv => exact hsend (Qp.Sends.putWqe _ _)
  | rdmaWriteWithImm => exact hwrite (Qp.Sends.putWqe _ _) rfl
  | rdmaWrite => exact hwrite (Qp.Sends.refl qp) rfl
  | rdmaRead =>
      have htakes := buildRead_takes mrList qp hop reply
      unfold SendWr.entries at htakes
      rw [hop] at htakes
      exact .done id htakes
  | other =>
      exact .failed einval_ne_zero trivial (Qp.Sends.refl qp)
        fun _ => rfl

-- ============================================================ the turn

/-- What a turn comes to. -/
inductive Turned (mrList : List MrSgInfo) (qp : Qp) (regs : Regs)
    (wr : SendWr) (reply : Option SgPhyInfo) : Turn × Qp × Regs → Prop
  /-- The request is accepted. -/
  | next {qp' : Qp} : wr.Ready qp → ¬ wr.Fails qp reply →
      qp.Takes wr (wr.entries qp) qp' →
      Turned mrList qp regs wr reply (.next, qp', ringSqHw qp' regs wr)
  /-- The request is put off. -/
  | again : wr.TooLong qp →
      Turned mrList qp regs wr reply
        (.again, (initSqPtr qp regs).1, (initSqPtr qp regs).2)
  /-- The request is turned down. -/
  | stop {status : Int} {sq : HwqInfo} {qp' : Qp} :
      qp.Sends sq qp.wqeWrIdTbl qp' →
      (¬ (wr.Ready qp ∧ wr.SkipsSlot qp reply) → sq = qp.sq) →
      Turned mrList qp regs wr reply (.stop status, qp', regs)

theorem postSendTurn_cases (mrList : List MrSgInfo) (qp : Qp)
    (regs : Regs) (wr : SendWr) (reply : Option SgPhyInfo) :
    Turned mrList qp regs wr reply
      (postSendTurn mrList qp regs wr reply) := by
  unfold postSendTurn
  by_cases hud : qp.qpType = .ud ∧ wr.opcode ≠ .send
      ∧ wr.opcode ≠ .sendWithImm
  · rw [if_pos hud]
    exact .stop (Qp.Sends.refl qp) fun _ => rfl
  rw [if_neg hud]
  by_cases hfull : sqhwqFreeCnt qp.sq = 0 ∨ wr.numSge > qp.sq.maxSges
  · simp only [if_pos hfull]
    exact .stop (Qp.Sends.refl qp) fun _ => rfl
  have hadmitted : wr.Admitted qp :=
    ⟨hud, fun h => hfull (Or.inl h), by
      by_contra hlt
      exact hfull (Or.inr (Nat.lt_of_not_le hlt))⟩
  simp only [if_neg hfull]
  by_cases hroom : sqhwqFreeCnt qp.sq ≤ wr.numSge
  · rw [if_pos hroom]
    exact .again ⟨hadmitted, hroom⟩
  rw [if_neg hroom]
  have hready : wr.Ready qp := ⟨hadmitted, Nat.lt_of_not_le hroom⟩
  have hfoe : checkFoe wr.numSge (sqhwqFreeCnt qp.sq) = 0 := by
    unfold checkFoe
    rw [if_neg]
    omega
  simp only [hfoe, ne_eq, not_true_eq_false, if_false]
  have hbuilt := buildWr_cases mrList qp wr reply
  generalize buildWr mrList qp wr reply = r at hbuilt
  cases hbuilt with
  | done hok htakes =>
      simp only [not_true_eq_false, if_false]
      exact .next hready hok htakes
  | failed hne hfails hsends hkeeps =>
      simp only [if_pos hne]
      exact .stop hsends fun hskip => hkeeps fun h => hskip ⟨hready, h⟩

/-- A request that is turned down rings nothing. -/
theorem postSendTurn_stop {mrList : List MrSgInfo} {qp : Qp}
    {regs : Regs} {wr : SendWr} {reply : Option SgPhyInfo} {status : Int}
    (h : (postSendTurn mrList qp regs wr reply).1 = .stop status) :
    (postSendTurn mrList qp regs wr reply).2.2 = regs := by
  have hturn := postSendTurn_cases mrList qp regs wr reply
  generalize postSendTurn mrList qp regs wr reply = r at hturn h
  cases hturn with
  | next _ _ _ => cases h
  | again _ => cases h
  | stop _ _ => rfl

-- ======================================================= what it records

/-- The head is moved on within the ring. -/
theorem HwqInfo.advance_eq {k : Nat} : ∀ {q : HwqInfo},
    q.head + k < q.maxCnt →
    q.advance k = { q with head := q.head + k } := by
  induction k with
  | zero => exact fun _ => rfl
  | succ k ih =>
      intro q h
      have hinc : hwqIncHead q = { q with head := q.head + 1 } := by
        unfold hwqIncHead
        rw [Nat.mod_eq_of_lt (by omega)]
      rw [HwqInfo.advance, hinc, ih (by simp only; omega)]
      simp only [HwqInfo.mk.injEq, true_and, and_true]
      omega

/-- The id table after entries within the ring. -/
theorem recordSlots_eq {id : WqeWrId} {k : Nat} :
    ∀ {q : HwqInfo} {tbl : Nat → WqeWrId} (i : Nat),
      q.head + k < q.maxCnt →
      recordSlots q id tbl k i
        = if q.head ≤ i ∧ i < q.head + k then id else tbl i := by
  induction k with
  | zero =>
      intro q tbl i _
      rw [recordSlots, if_neg (by omega)]
  | succ k ih =>
      intro q tbl i h
      have hinc : (hwqIncHead q).head = q.head + 1 :=
        Nat.mod_eq_of_lt (by omega)
      rw [recordSlots, ih i (by rw [hinc]; show _ < q.maxCnt; omega),
        hinc]
      by_cases hfirst : i = q.head
      · rw [if_neg (by omega), if_pos (by omega), hfirst,
          Function.update_self]
      · rw [Function.update_of_ne hfirst]
        split
        · rw [if_pos (by omega)]
        · rw [if_neg (by omega)]

end BxRnic.User
