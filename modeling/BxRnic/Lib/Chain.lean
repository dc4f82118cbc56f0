/-
A call that works through a chain of requests, one after the other, and
stops at the first it cannot take: it returns a status, and through an
out parameter the rest of the chain.

# The loop

The machine the loop runs on is a total one, `step : σ → ι → σ`; most of
its inputs are none of the loop's business. `exit` says what an input is
to the loop: the turn that takes the request at the front (`next`), the
turn that gives up (`stop`), or neither (`again`). `run` follows the loop
along a list of inputs, and `none` is a loop that is still going round
at its end.

# The contract

`Kept` is what the caller of such a call relies on. It is a statement
about the outcome; `kept_iff_turns` takes it apart into one about each
turn, and `turns_congr` replaces that by a condition on the turn's state
and request, under an invariant that the loop carries along.
-/
import BxRnic.Lib.Run

namespace BxRnic.Chain

variable {σ ω ι : Type*}

-- ================================================================ the loop

/-- What an input is to the loop. A loop that stops may or may not set
the out parameter. -/
inductive Exit
  | next
  | again
  | stop (status : Int) (marks : Bool)
deriving DecidableEq

/-- A turn that took a request: the state it was taken in, the input,
and the request. -/
structure Passed (σ ω ι : Type*) where
  before : σ
  input : ι
  wr : ω

/-- What the caller gets, with the requests that were taken on the
way. -/
structure Outcome (σ ω ι : Type*) where
  status : Int
  /-- The chain from the request that `*bad_wr` points to; `none` when
  it is not set. -/
  badWr : Option (List ω)
  passed : List (Passed σ ω ι)
  final : σ

section Loop

variable (step : σ → ι → σ) (exit : σ → ω → ι → Exit)

/-- The loop over a chain, along a list of inputs. -/
def run : List ι → List ω → σ → Option (Outcome σ ω ι)
  | _, [], s => some ⟨0, none, [], s⟩
  | [], _ :: _, _ => none
  | i :: is, w :: ws, s =>
      match exit s w i with
      | .next =>
          (run is ws (step s i)).map fun o =>
            { o with passed := ⟨s, i, w⟩ :: o.passed }
      | .again => run is (w :: ws) (step s i)
      | .stop status marks =>
          some ⟨status, if marks then some (w :: ws) else none, [],
            step s i⟩

/-- A call: the loop behind a gate that turns the whole chain down. -/
def call (allowed : Bool) (refusal : Int) (is : List ι) (ws : List ω)
    (s : σ) : Option (Outcome σ ω ι) :=
  if allowed then run step exit is ws s
  else some ⟨refusal, some ws, [], s⟩

end Loop

-- ============================================================ the contract

/-- Where a marker of the state was after the last request taken, and
where it was to begin with if there is none. -/
def Outcome.lastHead (step : σ → ι → σ) (head : σ → Nat) (h : Nat)
    (o : Outcome σ ω ι) : Nat :=
  o.passed.foldl (fun _ p => head (step p.before p.input)) h

/-- The contract, for a queue whose head was at `h`. -/
structure Kept (step : σ → ι → σ) (Posted : σ → ω → ι → σ → Prop)
    (head : σ → Nat) (h : Nat) (ws : List ω) (o : Outcome σ ω ι) :
    Prop where
  /-- The requests taken were posted. -/
  posted : ∀ p ∈ o.passed,
    Posted p.before p.wr p.input (step p.before p.input)
  /-- Success means all of them. -/
  success : o.status = 0 → o.passed.map Passed.wr = ws
  /-- `*bad_wr` points behind the last request taken. -/
  badWr : o.status ≠ 0 →
    ∃ bad, o.badWr = some bad ∧ ws = o.passed.map Passed.wr ++ bad
  /-- Nothing of the rest is below the head. -/
  head_eq : o.status ≠ 0 → head o.final = o.lastHead step head h

-- =============================================================== the turns

section Turns

variable (step : σ → ι → σ) (exit : σ → ω → ι → Exit)

/-- `ok` is true of every turn of the loop, of the head after the last
request taken, the state, the request and the input. -/
def Turns (ok : Nat → σ → ω → ι → Prop) (head : σ → Nat) :
    Nat → List ι → List ω → σ → Prop
  | _, _, [], _ => True
  | _, [], _ :: _, _ => True
  | h, i :: is, w :: ws, s =>
      ok h s w i ∧
        match exit s w i with
        | .next => Turns ok head (head (step s i)) is ws (step s i)
        | .again => Turns ok head h is (w :: ws) (step s i)
        | .stop _ _ => True

/-- What the contract asks of one turn. -/
def TurnKept (Posted : σ → ω → ι → σ → Prop) (head : σ → Nat) (h : Nat)
    (s : σ) (w : ω) (i : ι) : Prop :=
  match exit s w i with
  | .next => Posted s w i (step s i)
  | .again => True
  | .stop _ marks => marks = true ∧ head (step s i) = h

variable {step exit}

/-- The contract is kept just when every turn does its part. -/
theorem kept_iff_turns {Posted : σ → ω → ι → σ → Prop} {head : σ → Nat}
    (hstop : ∀ s w i status marks,
      exit s w i = .stop status marks → status ≠ 0)
    {is : List ι} : ∀ {ws : List ω} {h : Nat} {s : σ} {o : Outcome σ ω ι},
      run step exit is ws s = some o →
      (Kept step Posted head h ws o
        ↔ Turns step exit (TurnKept step exit Posted head) head h is ws
          s) := by
  have hdone : ∀ {h : Nat} {is : List ι} {s : σ} {o : Outcome σ ω ι},
      run step exit is [] s = some o →
      (Kept step Posted head h [] o
        ↔ Turns step exit (TurnKept step exit Posted head) head h is []
          s) := by
    intro h is s o hrun
    rw [run] at hrun
    obtain rfl := Option.some.inj hrun
    rw [Turns]
    refine iff_of_true ⟨?_, ?_, ?_, ?_⟩ trivial
    · intro p hp
      cases hp
    · exact fun _ => rfl
    · exact fun hne => absurd rfl hne
    · exact fun hne => absurd rfl hne
  induction is with
  | nil =>
      intro ws h s o hrun
      cases ws with
      | nil => exact hdone hrun
      | cons w ws =>
          rw [run] at hrun
          cases hrun
  | cons i is ih =>
      intro ws h s o hrun
      cases ws with
      | nil => exact hdone hrun
      | cons w ws =>
          rw [run] at hrun
          rw [Turns, TurnKept]
          cases hexit : exit s w i with
          | next =>
              simp only [hexit] at hrun ⊢
              obtain ⟨o', hrest, rfl⟩ := Option.map_eq_some_iff.1 hrun
              rw [← ih hrest]
              constructor
              · intro hkept
                refine ⟨hkept.posted ⟨s, i, w⟩ List.mem_cons_self, ?_⟩
                refine ⟨fun p hp => ?_, fun hzero => ?_, fun hne => ?_,
                  hkept.head_eq⟩
                · exact hkept.posted p (List.mem_cons_of_mem _ hp)
                · exact (List.cons.inj (hkept.success hzero)).2
                · obtain ⟨bad, hbad, heq⟩ := hkept.badWr hne
                  exact ⟨bad, hbad, (List.cons.inj heq).2⟩
              · rintro ⟨hposted, hkept⟩
                refine ⟨fun p hp => ?_, fun hzero => ?_, fun hne => ?_,
                  hkept.head_eq⟩
                · rcases List.mem_cons.1 hp with rfl | hp
                  · exact hposted
                  · exact hkept.posted p hp
                · exact congrArg (w :: ·) (hkept.success hzero)
                · obtain ⟨bad, hbad, heq⟩ := hkept.badWr hne
                  exact ⟨bad, hbad, congrArg (w :: ·) heq⟩
          | again =>
              simp only [hexit] at hrun ⊢
              rw [ih hrun]
              exact (and_iff_right trivial).symm
          | stop status marks =>
              simp only [hexit, and_true] at hrun ⊢
              obtain rfl := Option.some.inj hrun
              have hne := hstop s w i status marks hexit
              constructor
              · intro hkept
                refine ⟨?_, hkept.head_eq hne⟩
                obtain ⟨bad, hbad, -⟩ := hkept.badWr hne
                by_contra hunset
                dsimp only at hbad
                rw [if_neg hunset] at hbad
                cases hbad
              · rintro ⟨hmarks, hhead⟩
                refine ⟨?_, fun hzero => absurd hzero hne,
                  fun _ => ⟨w :: ws, ?_, rfl⟩, fun _ => hhead⟩
                · intro p hp
                  cases hp
                · dsimp only
                  rw [if_pos hmarks]

/-- What becomes of an invariant of the loop, by what the input is to
it. -/
inductive Carries (step : σ → ι → σ) (exit : σ → ω → ι → Exit)
    (I : Nat → List ω → σ → Prop) (head : σ → Nat) (h : Nat) (w : ω)
    (ws : List ω) (s : σ) (i : ι) : Prop
  | next : exit s w i = .next → I (head (step s i)) ws (step s i) →
      Carries step exit I head h w ws s i
  | again : exit s w i = .again → I h (w :: ws) (step s i) →
      Carries step exit I head h w ws s i
  | stop {status : Int} {marks : Bool} :
      exit s w i = .stop status marks →
      Carries step exit I head h w ws s i

/-- Two conditions that agree on every turn, under an invariant of the
loop, agree on the loop. -/
theorem turns_congr {I : Nat → List ω → σ → Prop}
    {ok ok' : Nat → σ → ω → ι → Prop} {head : σ → Nat}
    (hok : ∀ h w ws s i, I h (w :: ws) s → (ok h s w i ↔ ok' h s w i))
    (hcarries : ∀ h w ws s i, I h (w :: ws) s →
      Carries step exit I head h w ws s i)
    {is : List ι} : ∀ {ws : List ω} {h : Nat} {s : σ}, I h ws s →
      (Turns step exit ok head h is ws s
        ↔ Turns step exit ok' head h is ws s) := by
  induction is with
  | nil =>
      intro ws h s _
      cases ws with
      | nil => rw [Turns, Turns]
      | cons w ws => rw [Turns, Turns]
  | cons i is ih =>
      intro ws h s hI
      cases ws with
      | nil => rw [Turns, Turns]
      | cons w ws =>
          rw [Turns, Turns, hok h w ws s i hI]
          refine and_congr_right fun _ => ?_
          cases hcarries h w ws s i hI with
          | next hexit hI' =>
              rw [hexit]
              exact ih hI'
          | again hexit hI' =>
              rw [hexit]
              exact ih hI'
          | stop hexit => rw [hexit]

/-- A condition on turns that can be decided can be decided of a
loop. -/
instance Turns.decidable (ok : Nat → σ → ω → ι → Prop)
    [∀ h s w i, Decidable (ok h s w i)] (head : σ → Nat) :
    ∀ (h : Nat) (is : List ι) (ws : List ω) (s : σ),
      Decidable (Turns step exit ok head h is ws s)
  | _, [], [], _ => isTrue trivial
  | _, _ :: _, [], _ => isTrue trivial
  | _, [], _ :: _, _ => isTrue trivial
  | h, i :: is, w :: ws, s =>
      match hexit : exit s w i with
      | .next =>
          have := Turns.decidable ok head (head (step s i)) is ws (step s i)
          decidable_of_iff
            (ok h s w i
              ∧ Turns step exit ok head (head (step s i)) is ws (step s i))
            (by rw [Turns, hexit])
      | .again =>
          have := Turns.decidable ok head h is (w :: ws) (step s i)
          decidable_of_iff
            (ok h s w i ∧ Turns step exit ok head h is (w :: ws) (step s i))
            (by rw [Turns, hexit])
      | .stop _ _ =>
          decidable_of_iff (ok h s w i) (by rw [Turns, hexit, and_true])

end Turns

-- =============================================================== the calls

section Calls

variable {step : σ → ι → σ} {exit : σ → ω → ι → Exit}

/-- A call keeps the contract just when it is turned down at the gate, or
every turn does its part. -/
theorem call_kept_iff (Posted : σ → ω → ι → σ → Prop) (head : σ → Nat)
    (hstop : ∀ s w i status marks,
      exit s w i = .stop status marks → status ≠ 0)
    {allowed : Bool} {refusal : Int} (hrefusal : refusal ≠ 0)
    {is : List ι} {ws : List ω} {s : σ} {o : Outcome σ ω ι}
    (hcall : call step exit allowed refusal is ws s = some o) :
    Kept step Posted head (head s) ws o
      ↔ (allowed = true →
        Turns step exit (TurnKept step exit Posted head) head (head s) is
          ws s) := by
  unfold call at hcall
  split at hcall
  · rename_i hallowed
    rw [kept_iff_turns hstop hcall]
    exact ⟨fun h _ => h, fun h => h hallowed⟩
  · rename_i hallowed
    obtain rfl := Option.some.inj hcall
    refine iff_of_true ⟨?_, fun hzero => absurd hzero hrefusal,
      fun _ => ⟨ws, rfl, rfl⟩, fun _ => rfl⟩ fun h => absurd h hallowed
    intro p hp
    cases hp

end Calls

end BxRnic.Chain
