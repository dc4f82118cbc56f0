/-
The two ports compared: an operation of one port from one state against
the same operation of the same or the other port from another state.

A relation that links port `p` of one state to port `q` of the other
(`Link p q R`) has the two look the same and is kept when both are
changed the same way. Each operation is written once with its port
abstracted (`viewPort`, `onPort`), and from that form it is related to
itself under every linking relation. Two relations are used:

- `Seen`: port `p` of the one is as port `q` of the other, and what
  stands across is given; it says what an operation depends on and what
  it leaves alone;
- being the mirror image (`Nic.mirror`): it says that the operations of
  the two ports are one another's renaming.
-/
import BxRnic.Lib.Related
import BxRnic.Pcs.Training

namespace BxRnic.Pcs

variable {H : Type}

-- ================================================================ views

/-- A port's copy of the fields. -/
def Nic.fields (s : Nic H) : Port → PcsFields
  | .zero => s.pcs0
  | .one => s.pcs1

/-- A port's register block. -/
def Nic.block (s : Nic H) : Port → Block H
  | .zero => s.block0
  | .one => s.block1

/-- The shared null page. -/
def Nic.nullPage (s : Nic H) : U32 × U32 × U32 :=
  (s.anNxp1Null, s.anNxp2Null, s.anNxp3Null)

/-- The state with the names `pcs_0_*` and `pcs_1_*` exchanged. -/
def Nic.mirror (s : Nic H) : Nic H :=
  { s with
    pcs0 := s.pcs1
    pcs1 := s.pcs0
    block0 := s.block1
    block1 := s.block0 }

/-- A port's fields are changed. -/
def Nic.updFields (s : Nic H) (p : Port) (f : PcsFields → PcsFields) :
    Nic H :=
  match p with
  | .zero => { s with pcs0 := f s.pcs0 }
  | .one => { s with pcs1 := f s.pcs1 }

/-- A port's register block is changed. -/
def Nic.updBlock (s : Nic H) (p : Port) (f : Block H → Block H) :
    Nic H :=
  match p with
  | .zero => { s with block0 := f s.block0 }
  | .one => { s with block1 := f s.block1 }

section Views

variable (s : Nic H) (p : Port) (f : PcsFields → PcsFields)
  (b : Block H → Block H) (u : U32)

@[simp]
theorem Port.other_other : p.other.other = p := by
  cases p <;> rfl

@[simp]
theorem mirror_mirror : s.mirror.mirror = s := rfl

@[simp]
theorem fields_mirror : s.mirror.fields p = s.fields p.other := by
  cases p <;> rfl

@[simp]
theorem block_mirror : s.mirror.block p = s.block p.other := by
  cases p <;> rfl

@[simp]
theorem nullPage_mirror : s.mirror.nullPage = s.nullPage := rfl

@[simp]
theorem fields_updFields :
    (s.updFields p f).fields p = f (s.fields p) := by
  cases p <;> rfl

@[simp]
theorem fields_other_updFields :
    (s.updFields p f).fields p.other = s.fields p.other := by
  cases p <;> rfl

@[simp]
theorem block_updFields (q : Port) :
    (s.updFields p f).block q = s.block q := by
  cases p <;> cases q <;> rfl

@[simp]
theorem nullPage_updFields :
    (s.updFields p f).nullPage = s.nullPage := by
  cases p <;> rfl

@[simp]
theorem block_updBlock : (s.updBlock p b).block p = b (s.block p) := by
  cases p <;> rfl

@[simp]
theorem block_other_updBlock :
    (s.updBlock p b).block p.other = s.block p.other := by
  cases p <;> rfl

@[simp]
theorem fields_updBlock (q : Port) :
    (s.updBlock p b).fields q = s.fields q := by
  cases p <;> cases q <;> rfl

@[simp]
theorem nullPage_updBlock : (s.updBlock p b).nullPage = s.nullPage := by
  cases p <;> rfl

@[simp]
theorem fields_linkCheck :
    { s with linkCheckUsecs := u }.fields p = s.fields p := by
  cases p <;> rfl

@[simp]
theorem block_linkCheck :
    { s with linkCheckUsecs := u }.block p = s.block p := by
  cases p <;> rfl

@[simp]
theorem nullPage_linkCheck :
    { s with linkCheckUsecs := u }.nullPage = s.nullPage := rfl

end Views

-- ================================================================ links

/-- Port `p` of the one state looks like port `q` of the other, and
stays so when both are changed the same way. -/
structure Link (p q : Port) (R : Nic H → Nic H → Prop) : Prop where
  fields : ∀ s t, R s t → s.fields p = t.fields q
  block : ∀ s t, R s t → s.block p = t.block q
  nullPage : ∀ s t, R s t → s.nullPage = t.nullPage
  updFields : ∀ s t f, R s t → R (s.updFields p f) (t.updFields q f)
  updBlock : ∀ s t b, R s t → R (s.updBlock p b) (t.updBlock q b)
  linkCheck : ∀ s t u, R s t →
    R { s with linkCheckUsecs := u } { t with linkCheckUsecs := u }

/-- Port `p` of `s` is as port `q` of `t`. -/
structure Alike (p q : Port) (s t : Nic H) : Prop where
  fields : s.fields p = t.fields q
  block : s.block p = t.block q
  nullPage : s.nullPage = t.nullPage

/-- Besides, the ports across are as given. -/
structure Seen (p q : Port) (a b : PcsFields × Block H) (s t : Nic H) :
    Prop extends Alike p q s t where
  across : (s.fields p.other, s.block p.other) = a
  across' : (t.fields q.other, t.block q.other) = b

theorem link_seen (p q : Port) (a b : PcsFields × Block H) :
    Link p q (Seen p q a b) where
  fields s t h := h.fields
  block s t h := h.block
  nullPage s t h := h.nullPage
  updFields s t f h := by
    refine ⟨⟨?_, ?_, ?_⟩, ?_, ?_⟩
    · simp [h.fields]
    · simp [h.block]
    · simp [h.nullPage]
    · simpa using h.across
    · simpa using h.across'
  updBlock s t f h := by
    refine ⟨⟨?_, ?_, ?_⟩, ?_, ?_⟩
    · simp [h.fields]
    · simp [h.block]
    · simp [h.nullPage]
    · simpa using h.across
    · simpa using h.across'
  linkCheck s t u h := by
    refine ⟨⟨?_, ?_, ?_⟩, ?_, ?_⟩
    · simp [h.fields]
    · simp [h.block]
    · simp [h.nullPage]
    · simpa using h.across
    · simpa using h.across'

theorem link_mirror (p : Port) :
    Link p p.other (fun s t : Nic H => s = t.mirror) where
  fields s t h := by rw [h, fields_mirror]
  block s t h := by rw [h, block_mirror]
  nullPage s t h := by rw [h, nullPage_mirror]
  updFields s t f h := by
    subst h
    cases p <;> rfl
  updBlock s t f h := by
    subst h
    cases p <;> rfl
  linkCheck s t u h := by
    subst h
    rfl

-- ============================================================ accesses

/-- The port's fields, read. -/
def viewPort (p : Port) : Driver H PcsFields :=
  get >>= fun s => pure (s.fields p)

/-- The shared null page, read. -/
def viewNullPage : Driver H (U32 × U32 × U32) :=
  get >>= fun s => pure s.nullPage

/-- The port's fields, changed. -/
def onPort (p : Port) (f : PcsFields → PcsFields) : Driver H Unit :=
  modify fun s => s.updFields p f

section Accesses

variable {hw : PcsHw H} {p q : Port} {R : Nic H → Nic H → Prop}

theorem Link.viewPort (h : Link p q R) :
    Related R (Pcs.viewPort p) (Pcs.viewPort q) :=
  Related.gets h.fields

theorem Link.viewNullPage (h : Link p q R) :
    Related R Pcs.viewNullPage Pcs.viewNullPage :=
  Related.gets h.nullPage

theorem Link.onPort (h : Link p q R) (f : PcsFields → PcsFields) :
    Related R (Pcs.onPort p f) (Pcs.onPort q f) :=
  Related.modify fun s t => h.updFields s t f

theorem Link.setLinkCheck (h : Link p q R) (u : U32) :
    Related R (Pcs.setLinkCheck u) (Pcs.setLinkCheck u) :=
  Related.modify fun s t => h.linkCheck s t u

theorem pcsRegRead_run (offset : Nat) (s : Nic H) :
    pcsRegRead hw p offset s
      = ((hw.read (s.block p).regs offset).1,
        s.updBlock p fun b =>
          { b with regs := (hw.read b.regs offset).2 }) := by
  cases p <;> rfl

theorem pcsRegWrite_run (offset : Nat) (data : U32) (s : Nic H) :
    pcsRegWrite hw p offset data s
      = ((), s.updBlock p fun b =>
          { regs := hw.write b.regs offset data
            writes := b.writes ++ [(offset, data)] }) := by
  cases p <;> rfl

theorem Link.read (h : Link p q R) (offset : Nat) :
    Related R (pcsRegRead hw p offset) (pcsRegRead hw q offset) := by
  intro s t hst
  rw [pcsRegRead_run, pcsRegRead_run, h.block s t hst]
  refine ⟨rfl, ?_⟩
  dsimp only
  exact h.updBlock s t _ hst

theorem Link.write (h : Link p q R) (offset : Nat) (data : U32) :
    Related R (pcsRegWrite hw p offset data)
      (pcsRegWrite hw q offset data) := by
  intro s t hst
  rw [pcsRegWrite_run, pcsRegWrite_run]
  refine ⟨rfl, ?_⟩
  dsimp only
  exact h.updBlock s t _ hst

end Accesses

end BxRnic.Pcs
