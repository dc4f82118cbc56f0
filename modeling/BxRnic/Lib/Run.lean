/-
Runs of a state machine: the vocabulary every "for every sequence of
calls" result of the development is stated in.

# Two shapes of machine

- A total machine answers every input: `step : σ → ι → σ`. A run is a
  list of inputs, `exec` its last state, `Always` a predicate of every
  state passed through, `Each` a predicate of every step taken (the
  state before it, and its input).
- A partial machine has inputs that are not enabled, or calls that do
  not return: `step : σ → ι → Option σ`. `Reach` collects the states it
  can get to through steps that all meet a side condition.

# The exactness rules

A step lemma of the form "from a good state, the next state is good iff
this input is harmless" lifts to runs: a run stays good iff all of its
steps are harmless (`always_iff_each`, `each_iff_each_of_inv`). This is
how the exact conditions of the results about runs are proved: one case
analysis of one step, then one of these rules.
-/
import Mathlib.Logic.Basic
import Mathlib.Data.List.Basic

namespace BxRnic.Run

variable {σ ι : Type*}

-- ======================================================= total machines

section Total

variable (step : σ → ι → σ)

/-- The state a run of inputs ends in. -/
def exec (s : σ) : List ι → σ
  | [] => s
  | i :: is => exec (step s i) is

/-- `P` is true of every state the run passes through, the first and
the last included. -/
def Always (P : σ → Prop) (s : σ) : List ι → Prop
  | [] => P s
  | i :: is => P s ∧ Always P (step s i) is

/-- `Q` is true of every step of the run: of the state it is taken in
and of its input. -/
def Each (Q : σ → ι → Prop) (s : σ) : List ι → Prop
  | [] => True
  | i :: is => Q s i ∧ Each Q (step s i) is

/-- A side condition that can be decided can be decided of a run. -/
instance Each.decidable (Q : σ → ι → Prop) [∀ s i, Decidable (Q s i)] :
    ∀ (s : σ) (is : List ι), Decidable (Each step Q s is)
  | _, [] => isTrue trivial
  | s, i :: is =>
      have := Each.decidable Q (step s i) is
      inferInstanceAs (Decidable (Q s i ∧ Each step Q (step s i) is))

variable {step}

@[simp] theorem exec_nil (s : σ) : exec step s [] = s := rfl

@[simp] theorem exec_cons (s : σ) (i : ι) (is : List ι) :
    exec step s (i :: is) = exec step (step s i) is := rfl

theorem exec_append (s : σ) (is js : List ι) :
    exec step s (is ++ js) = exec step (exec step s is) js := by
  induction is generalizing s with
  | nil => rfl
  | cons i is ih => exact ih (step s i)

/-- A run in two parts. -/
theorem each_append {Q : σ → ι → Prop} {s : σ} {is js : List ι} :
    Each step Q s (is ++ js)
      ↔ Each step Q s is ∧ Each step Q (exec step s is) js := by
  induction is generalizing s with
  | nil => exact (and_iff_right trivial).symm
  | cons i is ih =>
      rw [List.cons_append, Each, Each, ih, and_assoc]
      exact Iff.rfl

/-- `Each`, read off the prefixes of the run. -/
theorem each_iff_forall {Q : σ → ι → Prop} {s : σ} {is : List ι} :
    Each step Q s is
      ↔ ∀ pre i suf, is = pre ++ i :: suf → Q (exec step s pre) i := by
  induction is generalizing s with
  | nil => simp [Each]
  | cons j is ih =>
      rw [Each, ih]
      constructor
      · rintro ⟨hj, hall⟩ pre i suf heq
        cases pre with
        | nil =>
            obtain ⟨rfl, -⟩ : j = i ∧ is = suf := by simpa using heq
            exact hj
        | cons p pre =>
            obtain ⟨rfl, htail⟩ : j = p ∧ is = pre ++ i :: suf := by
              simpa using heq
            exact hall pre i suf htail
      · intro hall
        refine ⟨hall [] j is rfl, fun pre i suf heq => ?_⟩
        exact hall (j :: pre) i suf (by rw [heq]; rfl)

/-- The first state of an `Always` run. -/
theorem Always.head {P : σ → Prop} {s : σ} {is : List ι}
    (h : Always step P s is) : P s := by
  cases is with
  | nil => exact h
  | cons i is => exact h.1

/-- The last state of an `Always` run. -/
theorem Always.last {P : σ → Prop} {s : σ} {is : List ι}
    (h : Always step P s is) : P (exec step s is) := by
  induction is generalizing s with
  | nil => exact h
  | cons i is ih => exact ih h.2

/-- `Always` is monotone in its predicate. -/
theorem Always.mono {P P' : σ → Prop} (hP : ∀ s, P s → P' s) {s : σ}
    {is : List ι} (h : Always step P s is) : Always step P' s is := by
  induction is generalizing s with
  | nil => exact hP _ h
  | cons i is ih => exact ⟨hP _ h.1, ih h.2⟩

/-- `Each` is monotone in its predicate. -/
theorem Each.mono {Q Q' : σ → ι → Prop} {s : σ} {is : List ι}
    (hQ : ∀ s i, Q s i → Q' s i) (h : Each step Q s is) :
    Each step Q' s is := by
  induction is generalizing s with
  | nil => trivial
  | cons i is ih => exact ⟨hQ _ _ h.1, ih h.2⟩

/-- What is true of every input of a run. -/
theorem each_of_forall_mem {Q : ι → Prop} {is : List ι}
    (h : ∀ i ∈ is, Q i) (s : σ) : Each step (fun _ i => Q i) s is :=
  each_iff_forall.2 fun _ i _ heq =>
    h i (heq ▸ List.mem_append_right _ List.mem_cons_self)

/-- Two conditions of every step are one. -/
theorem Each.and {Q Q' : σ → ι → Prop} {s : σ} {is : List ι}
    (h : Each step Q s is) (h' : Each step Q' s is) :
    Each step (fun s i => Q s i ∧ Q' s i) s is :=
  each_iff_forall.2 fun pre i suf heq =>
    ⟨each_iff_forall.1 h pre i suf heq, each_iff_forall.1 h' pre i suf heq⟩

/-- Two step predicates that agree at every step agree on runs. -/
theorem each_congr {Q Q' : σ → ι → Prop} {s : σ} {is : List ι}
    (hQ : ∀ s i, Q s i ↔ Q' s i) : Each step Q s is ↔ Each step Q' s is :=
  ⟨Each.mono fun s i => (hQ s i).1, Each.mono fun s i => (hQ s i).2⟩

/-- Exactness for state predicates: if a harmless step is precisely one
that keeps `P`, a run keeps `P` throughout iff its steps are all
harmless. -/
theorem always_iff_each {P : σ → Prop} {Q : σ → ι → Prop}
    (hstep : ∀ s i, P s → (P (step s i) ↔ Q s i))
    {s : σ} (hs : P s) {is : List ι} :
    Always step P s is ↔ Each step Q s is := by
  induction is generalizing s with
  | nil => exact ⟨fun _ => trivial, fun _ => hs⟩
  | cons i is ih =>
      rw [Always, Each]
      constructor
      · rintro ⟨-, hrest⟩
        exact ⟨(hstep s i hs).1 hrest.head, (ih hrest.head).1 hrest⟩
      · rintro ⟨hi, hrest⟩
        have hs' : P (step s i) := (hstep s i hs).2 hi
        exact ⟨hs, (ih hs').2 hrest⟩

/-- The same, where every step keeps an invariant that the exactness of
a step rests on. -/
theorem always_iff_each_of_inv {I P : σ → Prop} {Q : σ → ι → Prop}
    (hinv : ∀ s i, I s → I (step s i))
    (hstep : ∀ s i, I s → P s → (P (step s i) ↔ Q s i))
    {s : σ} (hI : I s) (hs : P s) {is : List ι} :
    Always step P s is ↔ Each step Q s is := by
  induction is generalizing s with
  | nil => exact ⟨fun _ => trivial, fun _ => hs⟩
  | cons i is ih =>
      rw [Always, Each]
      constructor
      · rintro ⟨-, hrest⟩
        exact ⟨(hstep s i hI hs).1 hrest.head,
          (ih (hinv s i hI) hrest.head).1 hrest⟩
      · rintro ⟨hi, hrest⟩
        have hs' : P (step s i) := (hstep s i hI hs).2 hi
        exact ⟨hs, (ih (hinv s i hI) hs').2 hrest⟩

/-- Exactness for step predicates, under an invariant that the good
steps keep. -/
theorem each_iff_each_of_inv {I : σ → Prop} {A Q : σ → ι → Prop}
    (hstep : ∀ s i, I s → (A s i ↔ Q s i))
    (hinv : ∀ s i, I s → A s i → I (step s i))
    {s : σ} (hs : I s) {is : List ι} :
    Each step A s is ↔ Each step Q s is := by
  induction is generalizing s with
  | nil => exact Iff.rfl
  | cons i is ih =>
      rw [Each, Each]
      constructor
      · rintro ⟨hA, hrest⟩
        exact ⟨(hstep s i hs).1 hA, (ih (hinv s i hs hA)).1 hrest⟩
      · rintro ⟨hQ, hrest⟩
        have hA : A s i := (hstep s i hs).2 hQ
        exact ⟨hA, (ih (hinv s i hs hA)).2 hrest⟩

/-- The same, for runs that keep to a contract of the environment. -/
theorem each_iff_each_under {I : σ → Prop} {E A Q : σ → ι → Prop}
    (hstep : ∀ s i, I s → E s i → (A s i ↔ Q s i))
    (hinv : ∀ s i, I s → E s i → A s i → I (step s i))
    {s : σ} (hs : I s) {is : List ι} (henv : Each step E s is) :
    Each step A s is ↔ Each step Q s is := by
  induction is generalizing s with
  | nil => exact Iff.rfl
  | cons i is ih =>
      obtain ⟨hE, henv⟩ := henv
      rw [Each, Each]
      constructor
      · rintro ⟨hA, hrest⟩
        exact ⟨(hstep s i hs hE).1 hA,
          (ih (hinv s i hs hE hA) henv).1 hrest⟩
      · rintro ⟨hQ, hrest⟩
        have hA : A s i := (hstep s i hs hE).2 hQ
        exact ⟨hA, (ih (hinv s i hs hE hA) henv).2 hrest⟩

/-- The invariant rule: a run of harmless steps keeps an invariant that
harmless steps keep. -/
theorem Each.always {I : σ → Prop} {Q : σ → ι → Prop}
    (hstep : ∀ s i, I s → Q s i → I (step s i))
    {s : σ} (hs : I s) {is : List ι} (h : Each step Q s is) :
    Always step I s is := by
  induction is generalizing s with
  | nil => exact hs
  | cons i is ih => exact ⟨hs, ih (hstep s i hs h.1) h.2⟩

/-- Exactness under an invariant that says more than what is asked:
harmless steps keep it, and no other step keeps even what is asked. -/
theorem always_iff_each_of_keeps {I P : σ → Prop} {Q : σ → ι → Prop}
    (hP : ∀ s, I s → P s) (hkeeps : ∀ s i, I s → Q s i → I (step s i))
    (hbreaks : ∀ s i, I s → P (step s i) → Q s i)
    {s : σ} (hs : I s) {is : List ι} :
    Always step P s is ↔ Each step Q s is := by
  refine ⟨fun h => ?_, fun h => (h.always hkeeps hs).mono hP⟩
  induction is generalizing s with
  | nil => trivial
  | cons i is ih =>
      have hi : Q s i := hbreaks s i hs h.2.head
      exact ⟨hi, ih (hkeeps s i hs hi) h.2⟩

/-- The same, for runs that keep to a contract of the environment. -/
theorem always_iff_each_under {I P : σ → Prop} {E Q : σ → ι → Prop}
    (hP : ∀ s, I s → P s)
    (hkeeps : ∀ s i, I s → E s i → Q s i → I (step s i))
    (hbreaks : ∀ s i, I s → E s i → P (step s i) → Q s i)
    {s : σ} (hs : I s) {is : List ι} (henv : Each step E s is) :
    Always step P s is ↔ Each step Q s is := by
  induction is generalizing s with
  | nil => exact ⟨fun _ => trivial, fun _ => hP s hs⟩
  | cons i is ih =>
      obtain ⟨hE, henv⟩ := henv
      rw [Always, Each]
      constructor
      · rintro ⟨-, hrest⟩
        have hi : Q s i := hbreaks s i hs hE hrest.head
        exact ⟨hi, (ih (hkeeps s i hs hE hi) henv).1 hrest⟩
      · rintro ⟨hi, hrest⟩
        exact ⟨hP s hs, (ih (hkeeps s i hs hE hi) henv).2 hrest⟩

/-- No run of harmless steps gets from here to where `P` is not true. -/
def Safe (step : σ → ι → σ) (Q : σ → ι → Prop) (P : σ → Prop) (s : σ) :
    Prop :=
  ∀ is, Each step Q s is → P (exec step s is)

/-- Exactness for safety: harmless steps keep an invariant, and after any
other step there are harmless ones to where `P` is not true. -/
theorem always_safe_iff_each {I P : σ → Prop} {Q : σ → ι → Prop}
    (hP : ∀ s, I s → P s) (hkeeps : ∀ s i, I s → Q s i → I (step s i))
    (hbreaks : ∀ s i, I s → ¬ Q s i → ¬ Safe step Q P (step s i))
    {s : σ} (hs : I s) {is : List ι} :
    Always step (Safe step Q P) s is ↔ Each step Q s is := by
  refine always_iff_each_of_keeps ?_ hkeeps ?_ hs
  · intro s hs js hjs
    exact hP _ (hjs.always hkeeps hs).last
  · intro s i hs hsafe
    by_contra hi
    exact hbreaks s i hs hi hsafe

/-- An invariant that every step keeps holds at the end of every run. -/
theorem exec_inv {I : σ → Prop} (hstep : ∀ s i, I s → I (step s i))
    {s : σ} (hs : I s) (is : List ι) : I (exec step s is) := by
  induction is generalizing s with
  | nil => exact hs
  | cons i is ih => exact ih (hstep s i hs)

/-- What a harmless step does from a state of the invariant is done by
every step of a run of harmless steps. -/
theorem Each.each_of_inv {I : σ → Prop} {Q A : σ → ι → Prop} {s : σ}
    {is : List ι} (h : Each step Q s is)
    (hstep : ∀ s i, I s → Q s i → I (step s i)) (hs : I s)
    (hA : ∀ s i, I s → Q s i → A s i) : Each step A s is := by
  induction is generalizing s with
  | nil => trivial
  | cons i is ih =>
      exact ⟨hA s i hs h.1, ih h.2 (hstep s i hs h.1)⟩

end Total

-- ===================================================== partial machines

section Partial

/-- The states a partial machine gets to from `init` through enabled
steps that all meet `ok`. -/
inductive Reach (init : σ → Prop) (step : σ → ι → Option σ)
    (ok : σ → ι → Prop) : σ → Prop
  | start {s : σ} : init s → Reach init step ok s
  | next {s s' : σ} {i : ι} :
      Reach init step ok s → ok s i → step s i = some s' →
      Reach init step ok s'

variable {init : σ → Prop} {step : σ → ι → Option σ} {ok : σ → ι → Prop}

/-- The invariant rule for partial machines. -/
theorem Reach.inv {I : σ → Prop} (hinit : ∀ s, init s → I s)
    (hstep : ∀ s i s', I s → ok s i → step s i = some s' → I s')
    {s : σ} (h : Reach init step ok s) : I s := by
  induction h with
  | start hs => exact hinit _ hs
  | next _ hok heq ih => exact hstep _ _ _ ih hok heq

/-- A list of inputs, run until one is not enabled. -/
def tryExec (step : σ → ι → Option σ) (s : σ) : List ι → Option σ
  | [] => some s
  | i :: is => (step s i).bind fun s' => tryExec step s' is

/-- A run that goes through to its end reaches its last state. -/
theorem Reach.of_tryExec (hok : ∀ s i, ok s i) {s s' : σ} {is : List ι}
    (hs : Reach init step ok s) (h : tryExec step s is = some s') :
    Reach init step ok s' := by
  induction is generalizing s with
  | nil => exact Option.some.inj h ▸ hs
  | cons i is ih =>
      obtain ⟨t, ht, hrest⟩ := Option.bind_eq_some_iff.1 h
      exact ih (.next hs (hok s i) ht) hrest

end Partial

end BxRnic.Run
