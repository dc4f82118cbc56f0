/-
Registers behind a window: an access writes the register's address to an
address register and then reads or writes the data port. Several parties
use the window, each in sequences of accesses run under a mutex.

# Programs

`Prog` is a sequence of accesses. What is read can decide how it goes on
(`read`), and a register can be read until it has some value (`await`).

# Selected objects

One register, `sel`, selects the object that accesses to some others, the
`listed` ones, are about. A sequence makes its selection before it uses
them (`Prog.Opens`).

# One at a time

Parties may use different mutexes. As long as no sequence is begun while
another is in progress (`Event.Alone`), every access gets at the register
it is meant for and at the object it has selected (`Event.Right`,
`World.Inv.right`); who holds which mutex does not matter then.
-/
import Mathlib.Logic.Function.Basic
import Mathlib.Data.Option.Basic

namespace BxRnic.Window

variable {P L R V : Type*}

-- ============================================================== programs

/-- A sequence of register accesses. -/
inductive Prog (R V : Type*)
  | done
  | write (reg : R) (value : V) (next : Prog R V)
  | read (reg : R) (next : V → Prog R V)
  /-- The register is read until its value will do. -/
  | await (reg : R) (stop : V → Bool) (next : Prog R V)

namespace Prog

/-- The register the next access is meant for. -/
def target : Prog R V → Option R
  | done => none
  | write reg _ _ => some reg
  | read reg _ => some reg
  | await reg _ _ => some reg

/-- Several registers are written, and the sequence goes on. -/
def writes (regs : List (R × V)) (next : Prog R V) : Prog R V :=
  regs.foldr (fun w rest => write w.1 w.2 rest) next

/-- Several registers are read, whatever they hold. -/
def reads (regs : List R) (next : Prog R V) : Prog R V :=
  regs.foldr (fun reg rest => read reg fun _ => rest) next

/-- What a sequence writes that runs alone: its reads find what `answer`
says, and a register it waits for comes to hold a value that will do. -/
def written (answer : R → V) : Prog R V → List (R × V)
  | done => []
  | write reg value next => (reg, value) :: next.written answer
  | read reg next => (next (answer reg)).written answer
  | await _ _ next => next.written answer

/-- What `reg` was last given before the first write to `op`. -/
def heldAt [DecidableEq R] (op : R) (ws : List (R × V)) (reg : R) :
    Option V :=
  ((ws.takeWhile fun w => w.1 ≠ op).reverse.find?
    fun w => w.1 = reg).map Prod.snd

/-- The listed registers are used after a selection (which `chosen` says
has been made). -/
def Opens [DecidableEq R] (sel : R) (listed : R → Prop) :
    Bool → Prog R V → Prop
  | _, done => True
  | chosen, write reg _ next =>
      (listed reg → chosen = true)
        ∧ next.Opens sel listed (chosen || reg = sel)
  | chosen, read reg next =>
      (listed reg → chosen = true)
        ∧ ∀ value, (next value).Opens sel listed chosen
  | chosen, await reg _ next =>
      (listed reg → chosen = true) ∧ next.Opens sel listed chosen

theorem writes_append (regs regs' : List (R × V)) (next : Prog R V) :
    writes (regs ++ regs') next = writes regs (writes regs' next) :=
  List.foldr_append

variable [DecidableEq R] {sel : R} {listed : R → Prop}

/-- After a selection there are no conditions. -/
theorem opens_of_chosen (prog : Prog R V) :
    prog.Opens sel listed true := by
  induction prog with
  | done => trivial
  | write reg value next ih => exact ⟨fun _ => rfl, ih⟩
  | read reg next ih => exact ⟨fun _ => rfl, ih⟩
  | await reg stop next ih => exact ⟨fun _ => rfl, ih⟩

/-- A sequence that begins with its selection. -/
theorem opens_select (hsel : ¬ listed sel) (value : V)
    (next : Prog R V) : (write sel value next).Opens sel listed false := by
  refine ⟨fun h => absurd h hsel, ?_⟩
  rw [decide_eq_true rfl, Bool.or_true]
  exact opens_of_chosen next

/-- A sequence may begin with accesses to other registers. -/
theorem opens_write {reg : R} (hreg : ¬ listed reg) (value : V)
    {next : Prog R V} (hnext : next.Opens sel listed false) :
    (write reg value next).Opens sel listed false := by
  refine ⟨fun h => absurd h hreg, ?_⟩
  by_cases hsel : reg = sel
  · rw [decide_eq_true hsel, Bool.or_true]
    exact opens_of_chosen next
  · rw [decide_eq_false hsel, Bool.or_false]
    exact hnext

theorem opens_writes {regs : List (R × V)}
    (hregs : ∀ w ∈ regs, ¬ listed w.1) {next : Prog R V}
    (hnext : next.Opens sel listed false) :
    (writes regs next).Opens sel listed false := by
  induction regs with
  | nil => exact hnext
  | cons w regs ih =>
      obtain ⟨hw, hrest⟩ := List.forall_mem_cons.1 hregs
      exact opens_write hw w.2 (ih hrest)

theorem opens_reads {regs : List R} (hregs : ∀ reg ∈ regs, ¬ listed reg)
    {next : Prog R V} (hnext : next.Opens sel listed false) :
    (reads regs next).Opens sel listed false := by
  induction regs with
  | nil => exact hnext
  | cons reg regs ih =>
      obtain ⟨hreg, hrest⟩ := List.forall_mem_cons.1 hregs
      exact ⟨fun h => absurd h hreg, fun _ => ih hrest⟩

end Prog

-- ============================================================= the world

/-- A party in the middle of a sequence. -/
structure Party (R V : Type*) where
  prog : Prog R V
  /-- The address of the next access has been written. -/
  addressed : Bool
  /-- What it has selected. -/
  chosen : Option V

/-- The window, the registers and the parties. -/
structure World (P L R V : Type*) where
  /-- The address register. -/
  addr : R
  regs : R → V
  /-- Who holds the mutexes. -/
  holder : L → Option P
  party : P → Party R V

/-- What can happen. -/
inductive Event (P R V : Type*)
  /-- A party takes its mutex and begins a sequence; if it is taken, it
  waits. -/
  | begin (p : P) (prog : Prog R V)
  /-- Half an access: the address, or the data. At the end of the
  sequence, the mutex is given back. -/
  | access (p : P)
  /-- A party ends in the middle of a sequence; its mutex is given to the
  next. -/
  | quit (p : P)
  /-- The device changes a register. -/
  | device (reg : R) (value : V)

variable [DecidableEq P] [DecidableEq L] [DecidableEq R]
variable (lockOf : P → L) (sel : R)

/-- The data half of an access, at whatever register the address register
holds. -/
def World.data (w : World P L R V) (p : P) : World P L R V :=
  match (w.party p).prog with
  | .done => w
  | .write reg value next =>
      { w with
        regs := Function.update w.regs w.addr value
        party := Function.update w.party p
          ⟨next, false,
            if reg = sel then some value else (w.party p).chosen⟩ }
  | .read _ next =>
      { w with
        party := Function.update w.party p
          ⟨next (w.regs w.addr), false, (w.party p).chosen⟩ }
  | .await reg stop next =>
      { w with
        party := Function.update w.party p
          ⟨if stop (w.regs w.addr) then next else .await reg stop next,
            false, (w.party p).chosen⟩ }

/-- Half an access. -/
def World.access (w : World P L R V) (p : P) : World P L R V :=
  match (w.party p).prog.target with
  | none =>
      { w with holder := Function.update w.holder (lockOf p) none }
  | some reg =>
      if (w.party p).addressed then w.data sel p
      else
        { w with
          addr := reg
          party := Function.update w.party p
            { w.party p with addressed := true } }

/-- The state after an event. -/
def World.step (w : World P L R V) : Event P R V → World P L R V
  | .begin p prog =>
      if w.holder (lockOf p) = none then
        { w with
          holder := Function.update w.holder (lockOf p) (some p)
          party := Function.update w.party p ⟨prog, false, none⟩ }
      else w
  | .access p =>
      if w.holder (lockOf p) = some p then w.access lockOf sel p else w
  | .quit p =>
      if w.holder (lockOf p) = some p then
        { w with holder := Function.update w.holder (lockOf p) none }
      else w
  | .device reg value =>
      if reg = sel then w
      else { w with regs := Function.update w.regs reg value }

-- ========================================================== the property

/-- The data half of an access gets at the register it is meant for; and
if this is a listed one, the object selected is the one the party has
selected. -/
def Event.Right (listed : R → Prop) (w : World P L R V) :
    Event P R V → Prop
  | .access p =>
      w.holder (lockOf p) = some p → (w.party p).addressed = true →
        ∀ reg ∈ (w.party p).prog.target,
          w.addr = reg
            ∧ (listed reg → (w.party p).chosen = some (w.regs sel))
  | _ => True

/-- A sequence is begun when no other is in progress. -/
def Event.Alone (w : World P L R V) : Event P R V → Prop
  | .begin p _ =>
      w.holder (lockOf p) = none → ∀ l, w.holder l = none
  | _ => True

/-- The sequences that are begun make their selections. -/
def Event.Opens (listed : R → Prop) : Event P R V → Prop
  | .begin _ prog => prog.Opens sel listed false
  | _ => True

-- ========================================================= the invariant

/-- The party in the middle of its sequence finds the window as it left
it. -/
structure Party.Fine (listed : R → Prop) (addr : R) (regs : R → V)
    (party : Party R V) : Prop where
  address : party.addressed = true → ∀ reg ∈ party.prog.target, addr = reg
  selected : ∀ value ∈ party.chosen, regs sel = value
  opens : party.prog.Opens sel listed party.chosen.isSome

/-- At most one party is in the middle of a sequence, and it is fine. -/
structure World.Inv (listed : R → Prop) (w : World P L R V) : Prop where
  home : ∀ l p, w.holder l = some p → lockOf p = l
  alone : ∀ l l' p q, w.holder l = some p → w.holder l' = some q → p = q
  fine : ∀ l p, w.holder l = some p →
    (w.party p).Fine sel listed w.addr w.regs

omit [DecidableEq P] [DecidableEq L] in
/-- Nobody uses the window. -/
theorem World.inv_of_free {listed : R → Prop} {w : World P L R V}
    (hfree : ∀ l, w.holder l = none) : w.Inv lockOf sel listed where
  home l p h := by simp [hfree l] at h
  alone l l' p q h := by simp [hfree l] at h
  fine l p h := by simp [hfree l] at h

namespace World.Inv

variable {lockOf : P → L} {sel : R} {listed : R → Prop}
variable {w : World P L R V}

omit [DecidableEq P] [DecidableEq L] in
/-- The right registers are got at. -/
theorem right (h : w.Inv lockOf sel listed) (e : Event P R V) :
    e.Right lockOf sel listed w := by
  cases e with
  | access p =>
      intro hholder haddressed reg hreg
      have hfine := h.fine _ p hholder
      refine ⟨hfine.address haddressed reg hreg, fun hlisted => ?_⟩
      have hchosen : (w.party p).chosen.isSome = true := by
        have hopens := hfine.opens
        cases hprog : (w.party p).prog with
        | done => simp [hprog, Prog.target] at hreg
        | write r value next =>
            rw [hprog, Prog.target, Option.mem_some_iff] at hreg
            rw [hprog] at hopens
            exact hopens.1 (hreg ▸ hlisted)
        | read r next =>
            rw [hprog, Prog.target, Option.mem_some_iff] at hreg
            rw [hprog] at hopens
            exact hopens.1 (hreg ▸ hlisted)
        | await r stop next =>
            rw [hprog, Prog.target, Option.mem_some_iff] at hreg
            rw [hprog] at hopens
            exact hopens.1 (hreg ▸ hlisted)
      obtain ⟨value, hvalue⟩ := Option.isSome_iff_exists.1 hchosen
      rw [hvalue, hfine.selected value hvalue]
  | begin p prog => trivial
  | quit p => trivial
  | device reg value => trivial

omit [DecidableEq P] in
/-- A mutex is given back. -/
theorem release (h : w.Inv lockOf sel listed) {p : P}
    (hholder : w.holder (lockOf p) = some p) :
    World.Inv lockOf sel listed
      { w with holder := Function.update w.holder (lockOf p) none } := by
  refine World.inv_of_free lockOf sel fun l => ?_
  by_cases hl : l = lockOf p
  · rw [hl]
    exact Function.update_self _ _ _
  · refine (Function.update_of_ne hl _ _).trans ?_
    cases hother : w.holder l with
    | none => rfl
    | some q =>
        -- it would be the same party, under its one mutex
        have hpq := h.alone _ _ _ _ hholder hother
        have hhome := h.home l q hother
        exact absurd (hhome.symm.trans (congrArg lockOf hpq.symm)) hl

omit [DecidableEq L] in
/-- The one party in the middle of its sequence goes on. -/
theorem advance (h : w.Inv lockOf sel listed) {p : P}
    (hholder : w.holder (lockOf p) = some p) {addr : R} {regs : R → V}
    {party : Party R V} (hfine : party.Fine sel listed addr regs) :
    World.Inv lockOf sel listed
      { w with
        addr := addr, regs := regs
        party := Function.update w.party p party } where
  home := h.home
  alone := h.alone
  fine l q hq := by
    have hpq := h.alone _ _ _ _ hholder hq
    subst hpq
    show Party.Fine sel listed addr regs (Function.update w.party p party p)
    rw [Function.update_self]
    exact hfine

omit [DecidableEq L] in
/-- The data half of an access. -/
theorem data (h : w.Inv lockOf sel listed) {p : P}
    (hholder : w.holder (lockOf p) = some p)
    (haddressed : (w.party p).addressed = true) :
    (w.data sel p).Inv lockOf sel listed := by
  have hfine := h.fine _ p hholder
  have haddr := hfine.address haddressed
  have hopens := hfine.opens
  unfold World.data
  cases hprog : (w.party p).prog with
  | done => exact h
  | write reg value next =>
      rw [hprog] at haddr hopens
      obtain rfl := haddr reg rfl
      have hnext := hopens.2
      refine h.advance hholder ⟨nofun, fun v hv => ?_, ?_⟩
      · by_cases hsel : w.addr = sel
        · rw [hsel, Function.update_self]
          simpa [hsel] using hv
        · rw [Function.update_of_ne (Ne.symm hsel)]
          exact hfine.selected v (by simpa [hsel] using hv)
      · by_cases hsel : w.addr = sel
        · simpa [hsel] using hnext
        · simpa [hsel] using hnext
  | read reg next =>
      rw [hprog] at hopens
      exact h.advance hholder ⟨nofun, hfine.selected, hopens.2 _⟩
  | await reg stop next =>
      rw [hprog] at hopens
      refine h.advance hholder ⟨nofun, hfine.selected, ?_⟩
      by_cases hstop : stop (w.regs w.addr) = true
      · simpa [hstop] using hopens.2
      · simpa [hstop] using hopens

/-- Every step keeps the invariant. -/
theorem step (h : w.Inv lockOf sel listed) {e : Event P R V}
    (halone : e.Alone lockOf w) (hopens : e.Opens sel listed) :
    (w.step lockOf sel e).Inv lockOf sel listed := by
  cases e with
  | begin p prog =>
      unfold World.step
      by_cases hfree : w.holder (lockOf p) = none
      · simp only [if_pos hfree]
        have hnone := halone hfree
        have honly (l : L) (q : P) (hq : Function.update w.holder
            (lockOf p) (some p) l = some q) : l = lockOf p ∧ q = p := by
          by_cases hl : l = lockOf p
          · subst hl
            rw [Function.update_self] at hq
            exact ⟨rfl, (Option.some.inj hq).symm⟩
          · rw [Function.update_of_ne hl, hnone l] at hq
            cases hq
        refine ⟨fun l q hq => ?_, fun l l' q q' hq hq' => ?_,
          fun l q hq => ?_⟩
        · obtain ⟨rfl, rfl⟩ := honly l q hq
          rfl
        · rw [(honly l q hq).2, (honly l' q' hq').2]
        · obtain ⟨rfl, rfl⟩ := honly l q hq
          show Party.Fine sel listed w.addr w.regs
            (Function.update w.party q ⟨prog, false, none⟩ q)
          rw [Function.update_self]
          exact ⟨nofun, nofun, hopens⟩
      · simp only [if_neg hfree]
        exact h
  | access p =>
      unfold World.step
      by_cases hholder : w.holder (lockOf p) = some p
      · simp only [if_pos hholder]
        unfold World.access
        cases htarget : (w.party p).prog.target with
        | none => exact h.release hholder
        | some reg =>
            by_cases haddressed : (w.party p).addressed = true
            · simp only [haddressed, if_true]
              exact h.data hholder haddressed
            · simp only [haddressed]
              have hfine := h.fine _ p hholder
              refine h.advance hholder ⟨fun _ r hr => ?_, hfine.selected,
                hfine.opens⟩
              rw [htarget, Option.mem_some_iff] at hr
              exact hr
      · simp only [if_neg hholder]
        exact h
  | quit p =>
      unfold World.step
      by_cases hholder : w.holder (lockOf p) = some p
      · simp only [if_pos hholder]
        exact h.release hholder
      · simp only [if_neg hholder]
        exact h
  | device reg value =>
      unfold World.step
      by_cases hsel : reg = sel
      · simp only [if_pos hsel]
        exact h
      · simp only [if_neg hsel]
        refine ⟨h.home, h.alone, fun l p hp => ?_⟩
        have hfine := h.fine l p hp
        refine ⟨hfine.address, fun v hv => ?_, hfine.opens⟩
        exact (Function.update_of_ne (Ne.symm hsel) _ _).trans
          (hfine.selected v hv)

end World.Inv

end BxRnic.Window
