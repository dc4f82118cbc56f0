/-
What a call leaves behind: a device that is up or one that is down, as
long as every restart is granted its interrupts. After a restart that is
not, the device stays up without them, and whoever stops it hangs.

All of it is read off the call as it will have been finished
(`NetLife.finish`): a step of the call does not change that, and what
happens in between changes the queues at most (`run_queues`).
-/
import BxRnic.Mac.NetLife

namespace BxRnic.Mac

-- ============================================================ the queues

namespace NetFlags

variable (d : NetFlags)

/-- The queues are woken or stopped from the outside. -/
def setQueues (b : Bool) : NetFlags := { d with queues := b }

theorem apply_queues (b : Bool) (step : LifeStep) :
    ∃ b', (d.setQueues b).apply step = (d.apply step).setQueues b' := by
  unfold apply setQueues
  dsimp only
  split
  · exact ⟨b, rfl⟩
  · cases step with
    | start granted step =>
      cases step with
      | startAllQueues => exact ⟨true, rfl⟩
      | napiDisable =>
        refine ⟨b, ?_⟩
        dsimp only [startStep, napiDisable]
        split
        · rfl
        · rfl
      | _ => exact ⟨b, rfl⟩
    | stop step =>
      cases step with
      | stopAllQueues => exact ⟨false, rfl⟩
      | napiDisable =>
        refine ⟨b, ?_⟩
        dsimp only [stopStep, napiDisable]
        split
        · rfl
        · rfl
      | _ => exact ⟨b, rfl⟩
    | _ => exact ⟨b, rfl⟩

/-- The queues have no influence on the rest. -/
theorem run_queues (todo : List LifeStep) :
    ∀ (d : NetFlags) (b : Bool),
      ∃ b', (d.setQueues b).run todo = (d.run todo).setQueues b' := by
  induction todo with
  | nil =>
    intro d b
    exact ⟨b, rfl⟩
  | cons step rest ih =>
    intro d b
    obtain ⟨b', hstep⟩ := apply_queues d b step
    obtain ⟨b'', hrest⟩ := ih (d.apply step) b'
    refine ⟨b'', ?_⟩
    show ((d.setQueues b).apply step).run rest = _
    rw [hstep, hrest]
    rfl

-- ============================================================== programs

theorem run_append (l l' : List LifeStep) :
    d.run (l ++ l') = (d.run l).run l' :=
  List.foldl_append

theorem apply_hung (h : d.hung = true) (step : LifeStep) :
    d.apply step = d := by
  unfold apply
  rw [if_pos h]

theorem run_hung (h : d.hung = true) (todo : List LifeStep) :
    d.run todo = d := by
  induction todo with
  | nil => rfl
  | cons step rest ih =>
    show (d.apply step).run rest = d
    rw [d.apply_hung h, ih]

theorem run_hwInit (granted : Bool) (l : List HwInitStep) :
    d.run ((l.map StartStep.hwInit).map (.start granted)) = d := by
  induction l with
  | nil => rfl
  | cons step rest ih =>
    have hstep : d.apply (.start granted (.hwInit step)) = d := by
      unfold apply
      split
      · rfl
      · rfl
    show (d.apply (.start granted (.hwInit step))).run _ = d
    rw [hstep, ih]

/-- A start that is granted its interrupts turns everything on, and one
that is not turns off what it needs them for. -/
theorem run_startSteps (env : StartEnv) (h : d.hung = false) :
    d.run env.startSteps
      = if env.requestIrqs = 0 then
          { d with
            napi := true, irq := true, tx := true, rx := true
            queues := true, ieuTimer := true, linkCheckTimer := true }
        else
          { d with napi := false, irq := false, tx := false, rx := false } := by
  obtain ⟨running, active, rings, napi, irq, tx, rx, queues, ieu, link,
    hung⟩ := d
  dsimp only at h
  subst h
  unfold StartEnv.startSteps StartEnv.macStart
  by_cases hirq : env.requestIrqs = 0
  · rw [if_neg (not_not_intro hirq), if_pos hirq, decide_eq_true hirq]
    dsimp only
    rw [List.map_append, List.map_append, run_append, run_append,
      run_hwInit]
    rfl
  · rw [if_pos hirq, if_neg hirq, decide_eq_false hirq]
    dsimp only
    rw [List.map_append, List.map_append, run_append, run_append,
      run_hwInit]
    rfl

theorem run_macStop (h : d.hung = false) (hnapi : d.napi = true) :
    d.run macStop
      = { d with
          napi := false, irq := false, tx := false, rx := false
          queues := false, ieuTimer := false, linkCheckTimer := false } := by
  obtain ⟨running, active, rings, napi, irq, tx, rx, queues, ieu, link,
    hung⟩ := d
  dsimp only at h hnapi
  subst h hnapi
  rfl

/-- Without NAPI, a stop does not come to its end. -/
theorem run_macStop_hangs (hnapi : d.napi = false) (hirq : d.irq = false) :
    (d.run macStop).hung = true ∧ (d.run macStop).irq = false := by
  obtain ⟨running, active, rings, napi, irq, tx, rx, queues, ieu, link,
    hung⟩ := d
  dsimp only at hnapi hirq
  subst hnapi hirq
  cases hung with
  | false => exact ⟨rfl, rfl⟩
  | true => exact ⟨rfl, rfl⟩

-- ================================================================ states

/-- The device is open, and everything it needs is on. -/
structure Up : Prop where
  running : d.running = true
  active : d.active = true
  rings : d.rings = true
  napi : d.napi = true
  irq : d.irq = true
  tx : d.tx = true
  rx : d.rx = true
  ieuTimer : d.ieuTimer = true
  linkCheckTimer : d.linkCheckTimer = true
  hung : d.hung = false

/-- The device is closed, and nothing is held. -/
structure Down : Prop where
  running : d.running = false
  active : d.active = false
  rings : d.rings = false
  napi : d.napi = false
  irq : d.irq = false
  tx : d.tx = false
  rx : d.rx = false
  ieuTimer : d.ieuTimer = false
  linkCheckTimer : d.linkCheckTimer = false
  hung : d.hung = false

/-- A call ends with the device up or down. -/
def Ends : Prop := d.Up ∨ d.Down

variable {d}

theorem Ends.setQueues (h : d.Ends) (b : Bool) : (d.setQueues b).Ends := by
  rcases h with h | h
  · exact Or.inl ⟨h.running, h.active, h.rings, h.napi, h.irq, h.tx, h.rx,
      h.ieuTimer, h.linkCheckTimer, h.hung⟩
  · exact Or.inr ⟨h.running, h.active, h.rings, h.napi, h.irq, h.tx, h.rx,
      h.ieuTimer, h.linkCheckTimer, h.hung⟩

theorem Ends.not_hung (h : d.Ends) : d.hung = false := by
  rcases h with h | h
  · exact h.hung
  · exact h.hung

theorem Ends.up (h : d.Ends) (hrun : d.running = true) : d.Up := by
  rcases h with h | h
  · exact h
  · have := h.running
    rw [hrun] at this
    cases this

theorem Ends.down (h : d.Ends) (hrun : d.running = false) : d.Down := by
  rcases h with h | h
  · have := h.running
    rw [hrun] at this
    cases this
  · exact h

/-- A close brings the device down. -/
theorem Up.close (h : d.Up) : (d.run closeSteps).Down := by
  obtain ⟨running, active, rings, napi, irq, tx, rx, queues, ieu, link,
    hung⟩ := d
  obtain ⟨-, -, -, hnapi, -, -, -, -, -, hung⟩ := h
  dsimp only at hnapi hung
  subst hnapi hung
  constructor <;> rfl

/-- An open brings it up, or leaves it down. -/
theorem Down.open (h : d.Down) (env : StartEnv) :
    (({ d with running := true } : NetFlags).run env.openSteps).Ends := by
  have hung := h.hung
  have hactive := h.active
  have hieu := h.ieuTimer
  have hlink := h.linkCheckTimer
  obtain ⟨running, active, rings, napi, irq, tx, rx, queues, ieu, link,
    hung⟩ := d
  dsimp only at hung hactive hieu hlink
  subst hung hactive hieu hlink
  unfold StartEnv.openSteps
  rw [run_append]
  show (((_ : NetFlags).apply .allocChannelsAndRings).run
    env.startSteps).run _ |>.Ends
  rw [run_startSteps _ _ rfl]
  by_cases hirq : env.requestIrqs = 0
  · have hret : env.macStart.1 = 0 := by
      unfold StartEnv.macStart
      rw [if_neg (not_not_intro hirq)]
    rw [if_pos hirq, if_pos hret]
    left
    constructor <;> rfl
  · have hret : env.macStart.1 ≠ 0 := by
      unfold StartEnv.macStart
      rw [if_pos hirq]
      exact hirq
    rw [if_neg hirq, if_neg hret]
    right
    constructor <;> rfl

/-- A restart that is granted its interrupts brings the device up again.
One that is not leaves it running without NAPI and without them. -/
theorem Up.restart (h : d.Up) (env : StartEnv) :
    if env.requestIrqs = 0 then (d.run env.restartSteps).Up
    else (d.run env.restartSteps).running = true
      ∧ (d.run env.restartSteps).napi = false
      ∧ (d.run env.restartSteps).irq = false
      ∧ (d.run env.restartSteps).hung = false := by
  unfold StartEnv.restartSteps
  rw [run_append, run_append, run_macStop _ h.hung h.napi]
  have hung := h.hung
  have hrunning := h.running
  have hactive := h.active
  have hrings := h.rings
  obtain ⟨running, active, rings, napi, irq, tx, rx, queues, ieu, link,
    hung⟩ := d
  dsimp only at hung hrunning hactive hrings
  subst hung hrunning hactive hrings
  show if env.requestIrqs = 0 then
      ((_ : NetFlags).run env.startSteps).Up else _
  rw [run_startSteps _ _ rfl]
  split
  · constructor <;> rfl
  · exact ⟨rfl, rfl, rfl, rfl⟩

end NetFlags

-- =============================================================== in order

/-- The core may hand over frames after the step. -/
def LifeStep.opens : LifeStep → Bool
  | .start _ .startAllQueues => true
  | .up => true
  | _ => false

/-- Once it may, nothing is left to do that needs the queues stopped. -/
def Ordered (todo : List LifeStep) : Prop :=
  todo.Pairwise fun a b => a.opens = true → b.quiet = false

theorem Ordered.append {l l' : List LifeStep}
    (h : ∀ a ∈ l, a.opens = false) (h' : Ordered l') : Ordered (l ++ l') := by
  induction l with
  | nil => exact h'
  | cons a l ih =>
    apply List.Pairwise.cons
    · intro b _ hopens
      rw [h a List.mem_cons_self] at hopens
      cases hopens
    · exact ih fun b hb => h b (List.mem_cons_of_mem a hb)

theorem Ordered.of_quiet {l : List LifeStep}
    (h : ∀ b ∈ l, b.quiet = false) : Ordered l := by
  apply List.Pairwise.imp_of_mem (R := fun _ _ => True)
  · intro b c _ hc _ _
    exact h c hc
  · exact List.pairwise_of_forall fun _ _ => trivial

theorem Ordered.cons {a : LifeStep} {l : List LifeStep}
    (h : ∀ b ∈ l, b.quiet = false) : Ordered (a :: l) := by
  apply List.Pairwise.cons
  · intro b hb _
    exact h b hb
  · exact Ordered.of_quiet h

/-- What is torn after a step has been torn before, or the queues have
just been stopped. -/
theorem Torn.of_tail {a : LifeStep} {rest : List LifeStep}
    (hord : Ordered (a :: rest)) (h : Torn rest) :
    a = .stop .stopAllQueues ∨ Torn (a :: rest) ∧ a.opens = false := by
  by_cases hstop : a = .stop .stopAllQueues
  · exact Or.inl hstop
  · right
    refine ⟨⟨?_, ?_⟩, ?_⟩
    · intro hmem
      rcases List.mem_cons.1 hmem with heq | hmem
      · exact hstop heq.symm
      · exact h.1 hmem
    · rw [List.any_cons, h.2, Bool.or_true]
    · obtain ⟨b, hb, hquiet⟩ := List.any_eq_true.1 h.2
      cases hopens : a.opens with
      | false => rfl
      | true =>
        have := List.rel_of_pairwise_cons hord hb hopens
        rw [hquiet] at this
        cases this

namespace NetFlags

/-- Only a start wakes the queues, and only the core activates the
device. -/
theorem apply_closed (d : NetFlags) {a : LifeStep} (h : a.opens = false) :
    ((d.apply a).queues = true → d.queues = true)
      ∧ ((d.apply a).active = true → d.active = true) := by
  unfold apply
  split
  · exact ⟨id, id⟩
  · cases a with
    | up => cases h
    | start granted step =>
      cases step with
      | startAllQueues => cases h
      | napiDisable =>
        dsimp only [startStep, napiDisable]
        split
        · exact ⟨id, id⟩
        · exact ⟨id, id⟩
      | _ => exact ⟨id, id⟩
    | stop step =>
      cases step with
      | stopAllQueues => exact ⟨nofun, id⟩
      | napiDisable =>
        dsimp only [stopStep, napiDisable]
        split
        · exact ⟨id, id⟩
        · exact ⟨id, id⟩
      | _ => exact ⟨id, id⟩
    | down => exact ⟨id, nofun⟩
    | _ => exact ⟨id, id⟩

end NetFlags

-- ============================================================= the machine

/-- What a restart meets, if the call makes one. -/
def RtnlCall.restarts : RtnlCall → Option StartEnv
  | .restart env => some env
  | .changeMtu env =>
      match calcRxBufSize env.mtu with
      | none => none
      | some _ => some env
  | _ => none

/-- The call stops the device, if it runs. -/
def RtnlCall.Stops (c : RtnlCall) : Prop :=
  c = .close ∨ c.restarts.isSome = true

namespace NetLife

/-- The device is sound: the call that is under way will leave it up or
down, and no frame gets to the rings while they are torn. -/
structure Sound (s : NetLife) : Prop where
  ends : s.finish.Ends
  quiet : s.dev.active = true → Torn s.todo → s.dev.queues = false

/-- Nothing goes wrong in a step: a device that is restarted gets its
interrupts again, and no poll wakes the queues while the rings are
torn. -/
def StepOk (s : NetLife) : LifeAct → Prop
  | .call c =>
      s.todo = [] → s.dev.running = true →
        ∀ env, c.restarts = some env → env.requestIrqs = 0
  | .poll wakes =>
      ¬ (wakes = true ∧ s.dev.napi = true ∧ s.dev.active = true
        ∧ Torn s.todo)
  | _ => True

variable {s : NetLife}

theorem begin_restarts {c : RtnlCall} {env : StartEnv}
    (h : c.restarts = some env) :
    s.begin c
      = if s.dev.running then ⟨s.dev, env.restartSteps⟩ else s := by
  cases c with
  | «open» alloc env' => cases h
  | close => cases h
  | restart env' =>
    injection h with heq
    rw [heq]
    rfl
  | changeMtu env' =>
    unfold RtnlCall.restarts at h
    unfold begin
    dsimp only at h ⊢
    cases hcalc : calcRxBufSize env'.mtu with
    | none =>
      rw [hcalc] at h
      cases h
    | some n =>
      rw [hcalc] at h
      injection h with heq
      rw [heq]

theorem finish_idle (h : s.todo = []) : s.finish = s.dev := by
  unfold finish
  rw [h]
  rfl

/-- What a step of the call that has the RTNL does. -/
theorem tick_cases (s : NetLife) :
    s.step .tick = s
      ∨ ∃ a rest, s.todo = a :: rest ∧ s.dev.hung = false
        ∧ s.step .tick = ⟨s.dev.apply a, rest⟩ := by
  obtain ⟨dev, todo⟩ := s
  cases todo with
  | nil => exact Or.inl rfl
  | cons a rest =>
    cases hhung : dev.hung with
    | true =>
      left
      show (if dev.hung then _ else _) = _
      rw [hhung]
      rfl
    | false =>
      refine Or.inr ⟨a, rest, rfl, rfl, ?_⟩
      show (if dev.hung then _ else _) = _
      rw [hhung]
      rfl

/-- A call waits for the RTNL, or it begins. -/
theorem call_cases (s : NetLife) (c : RtnlCall) :
    (s.step (.call c) = s ∧ (s.todo = [] → s.dev.hung = true))
      ∨ s.todo = [] ∧ s.dev.hung = false ∧ s.step (.call c) = s.begin c := by
  unfold step
  dsimp only
  split
  · next hidle =>
    exact Or.inr ⟨hidle.1, hidle.2, rfl⟩
  · next hbusy =>
    left
    refine ⟨rfl, ?_⟩
    intro htodo
    cases hhung : s.dev.hung with
    | true => rfl
    | false => exact absurd ⟨htodo, hhung⟩ hbusy

/-- A poll wakes the queues at most. -/
theorem poll_cases (s : NetLife) (wakes : Bool) :
    (s.step (.poll wakes) = s ∧ ¬ (wakes = true ∧ s.dev.napi = true))
      ∨ wakes = true ∧ s.dev.napi = true
        ∧ s.step (.poll wakes) = ⟨s.dev.setQueues true, s.todo⟩ := by
  unfold step
  dsimp only
  split
  · next hwakes =>
    exact Or.inr ⟨hwakes.2, hwakes.1, rfl⟩
  · next hnot =>
    exact Or.inl ⟨rfl, fun h => hnot ⟨h.2, h.1⟩⟩

/-- A frame stops them at most. -/
theorem xmit_cases (s : NetLife) (full : Bool) :
    s.step (.xmit full) = s
      ∨ s.step (.xmit full) = ⟨s.dev.setQueues false, s.todo⟩ := by
  unfold step
  dsimp only
  split
  · exact Or.inr rfl
  · exact Or.inl rfl

/-- A step of a call does not change how it ends. -/
theorem finish_tick (s : NetLife) : (s.step .tick).finish = s.finish := by
  rcases s.tick_cases with heq | ⟨a, rest, htodo, -, heq⟩
  · rw [heq]
  · unfold finish
    rw [heq, htodo]
    rfl

/-- Nor do the queues, but for themselves. -/
theorem finish_setQueues (s : NetLife) (b : Bool) :
    ∃ b', (⟨s.dev.setQueues b, s.todo⟩ : NetLife).finish
      = s.finish.setQueues b' :=
  NetFlags.run_queues s.todo s.dev b

theorem not_torn_closeSteps : ¬ Torn closeSteps := by
  intro h
  apply h.1
  simp [closeSteps, macStop]

theorem not_torn_restartSteps (env : StartEnv) :
    ¬ Torn env.restartSteps := by
  intro h
  apply h.1
  simp [StartEnv.restartSteps, macStop]

/-- A call to a sound device keeps it sound, unless it is a restart that
does not get its interrupts. -/
theorem sound_begin (h : s.Sound) (hidle : s.todo = []) (c : RtnlCall) :
    (s.begin c).Sound
      ↔ (s.dev.running = true →
        ∀ env, c.restarts = some env → env.requestIrqs = 0) := by
  have hends : s.dev.Ends := by
    rw [← finish_idle hidle]
    exact h.ends
  -- the two calls that make a restart
  have hrestart : ∀ env, c.restarts = some env →
      ((s.begin c).Sound
        ↔ (s.dev.running = true →
          ∀ env, c.restarts = some env → env.requestIrqs = 0)) := by
    intro env hc
    rw [begin_restarts hc]
    by_cases hrun : s.dev.running = true
    · have hup := (hends.up hrun).restart env
      rw [if_pos hrun]
      by_cases hirq : env.requestIrqs = 0
      · rw [if_pos hirq] at hup
        constructor
        · intro _ _ env' hc'
          rw [hc] at hc'
          injection hc' with heq
          rw [← heq]
          exact hirq
        · intro _
          exact ⟨Or.inl hup,
            fun _ htorn => absurd htorn (not_torn_restartSteps env)⟩
      · rw [if_neg hirq] at hup
        obtain ⟨hrunning, hnapi, -, -⟩ := hup
        constructor
        · intro hsound
          have hnapi' := (hsound.ends.up hrunning).napi
          have hfinish : (⟨s.dev, env.restartSteps⟩ : NetLife).finish
              = s.dev.run env.restartSteps := rfl
          rw [hfinish, hnapi] at hnapi'
          cases hnapi'
        · intro hok
          exact absurd (hok hrun env hc) hirq
    · rw [if_neg hrun]
      exact ⟨fun _ hrun' => absurd hrun' hrun, fun _ => h⟩
  cases c with
  | restart env => exact hrestart env rfl
  | changeMtu env =>
    cases hcalc : calcRxBufSize env.mtu with
    | none =>
      have hsame : s.begin (.changeMtu env) = s := by
        unfold begin
        dsimp only
        rw [hcalc]
      have hnone : (RtnlCall.changeMtu env).restarts = none := by
        unfold RtnlCall.restarts
        dsimp only
        rw [hcalc]
      rw [hsame, hnone]
      exact ⟨fun _ _ _ hc => (by cases hc), fun _ => h⟩
    | some n =>
      apply hrestart env
      unfold RtnlCall.restarts
      dsimp only
      rw [hcalc]
  | «open» alloc env =>
    refine ⟨fun _ _ _ hc => (by cases hc), fun _ => ?_⟩
    unfold begin
    dsimp only
    split
    · exact h
    · next hrun =>
      split
      · exact h
      · split
        · exact h
        · have hdown := hends.down (by simpa using hrun)
          refine ⟨hdown.open env, ?_⟩
          intro hactive
          have := hdown.active
          rw [this] at hactive
          cases hactive
  | close =>
    refine ⟨fun _ _ _ hc => (by cases hc), fun _ => ?_⟩
    unfold begin
    dsimp only
    split
    · next hrun =>
      exact ⟨Or.inr (hends.up hrun).close,
        fun _ htorn => absurd htorn not_torn_closeSteps⟩
    · exact h

/-- One step keeps the device sound exactly if nothing goes wrong in
it. -/
theorem sound_step (s : NetLife) (a : LifeAct) (hord : Ordered s.todo)
    (h : s.Sound) : (s.step a).Sound ↔ s.StepOk a := by
  cases a with
  | call c =>
    rcases s.call_cases c with ⟨heq, hbusy⟩ | ⟨hidle, -, heq⟩
    · rw [heq]
      refine ⟨?_, fun _ => h⟩
      intro _ hidle
      have hung := hbusy hidle
      rw [← finish_idle hidle, h.ends.not_hung] at hung
      cases hung
    · rw [heq, sound_begin h hidle]
      exact ⟨fun hok _ => hok, fun hok => hok hidle⟩
  | tick =>
    refine ⟨fun _ => trivial, fun _ => ⟨?_, ?_⟩⟩
    · rw [finish_tick]
      exact h.ends
    · rcases s.tick_cases with heq | ⟨a, rest, htodo, hhung, heq⟩
      · rw [heq]
        exact h.quiet
      · rw [heq]
        intro hactive htorn
        rw [htodo] at hord
        rcases htorn.of_tail hord with rfl | ⟨hbefore, hopens⟩
        · show (s.dev.apply _).queues = false
          unfold NetFlags.apply
          rw [hhung]
          rfl
        · obtain ⟨hq, hact⟩ := s.dev.apply_closed hopens
          rw [← htodo] at hbefore
          have hstopped := h.quiet (hact hactive) hbefore
          cases hqueues : (s.dev.apply a).queues with
          | false => rfl
          | true =>
            rw [hq hqueues] at hstopped
            cases hstopped
  | poll wakes =>
    rcases s.poll_cases wakes with ⟨heq, hnot⟩ | ⟨hwakes, hnapi, heq⟩
    · rw [heq]
      exact ⟨fun _ hbad => hnot ⟨hbad.1, hbad.2.1⟩, fun _ => h⟩
    · rw [heq]
      constructor
      · intro hsound hbad
        have := hsound.quiet hbad.2.2.1 hbad.2.2.2
        cases this
      · intro hok
        obtain ⟨b, hfinish⟩ := s.finish_setQueues true
        refine ⟨?_, ?_⟩
        · rw [hfinish]
          exact h.ends.setQueues b
        · intro hactive htorn
          exact absurd ⟨hwakes, hnapi, hactive, htorn⟩ hok
  | xmit full =>
    refine ⟨fun _ => trivial, fun _ => ?_⟩
    rcases s.xmit_cases full with heq | heq
    · rw [heq]
      exact h
    · rw [heq]
      obtain ⟨b, hfinish⟩ := s.finish_setQueues false
      refine ⟨?_, fun _ _ => rfl⟩
      rw [hfinish]
      exact h.ends.setQueues b

/-- A restart has not got its interrupts, or is not going to, and whoever
has stopped the device since then hangs. -/
def Lost (s : NetLife) : Prop :=
  s.finish.irq = false
    ∧ (s.finish.hung = true
      ∨ s.finish.running = true ∧ s.finish.napi = false)

/-- Whoever stops the device hangs. -/
theorem hangs_of_stop {d : NetFlags} (hnapi : d.napi = false)
    (hirq : d.irq = false) (rest : List LifeStep) :
    (d.run (macStop ++ rest)).hung = true
      ∧ (d.run (macStop ++ rest)).irq = false := by
  obtain ⟨hhung, hirq'⟩ := d.run_macStop_hangs hnapi hirq
  rw [NetFlags.run_append, NetFlags.run_hung _ hhung]
  exact ⟨hhung, hirq'⟩

theorem begin_stops (hrun : s.dev.running = true) (hnapi : s.dev.napi = false)
    (hirq : s.dev.irq = false) {c : RtnlCall} (hc : c.Stops) :
    (s.begin c).finish.hung = true ∧ (s.begin c).finish.irq = false := by
  rcases hc with rfl | hc
  · have hbegin : s.begin .close = ⟨s.dev, closeSteps⟩ := if_pos hrun
    rw [hbegin]
    have hdown : (s.dev.apply .down).napi = false
        ∧ (s.dev.apply .down).irq = false := by
      unfold NetFlags.apply
      split
      · exact ⟨hnapi, hirq⟩
      · exact ⟨hnapi, hirq⟩
    exact hangs_of_stop hdown.1 hdown.2 [.freeChannelsAndRings]
  · obtain ⟨env, henv⟩ := Option.isSome_iff_exists.1 hc
    rw [begin_restarts henv, if_pos hrun]
    show (s.dev.run env.restartSteps).hung = true
      ∧ (s.dev.run env.restartSteps).irq = false
    unfold StartEnv.restartSteps
    rw [List.append_assoc]
    exact hangs_of_stop hnapi hirq _

/-- Nothing gets the device out of it. -/
theorem lost_step (s : NetLife) (a : LifeAct) (h : s.Lost) :
    (s.step a).Lost := by
  have hset : ∀ b, (⟨s.dev.setQueues b, s.todo⟩ : NetLife).Lost := by
    intro b
    obtain ⟨b', hfinish⟩ := s.finish_setQueues b
    unfold Lost
    rw [hfinish]
    exact h
  cases a with
  | call c =>
    rcases s.call_cases c with ⟨heq, -⟩ | ⟨hidle, hhung, heq⟩
    · rw [heq]
      exact h
    · rw [heq]
      have h' := h
      unfold Lost at h'
      rw [finish_idle hidle, hhung] at h'
      obtain ⟨hirq, hbad | ⟨hrun, hnapi⟩⟩ := h'
      · cases hbad
      by_cases hstops : c.Stops
      · obtain ⟨hhang, hirq'⟩ := begin_stops hrun hnapi hirq hstops
        exact ⟨hirq', Or.inl hhang⟩
      · -- an open of a running device, or an MTU that is refused
        have hsame : s.begin c = s := by
          cases c with
          | close => exact absurd (Or.inl rfl) hstops
          | restart env => exact absurd (Or.inr rfl) hstops
          | «open» alloc env => exact if_pos hrun
          | changeMtu env =>
            unfold begin
            dsimp only
            cases hcalc : calcRxBufSize env.mtu with
            | none => rfl
            | some n =>
              apply absurd _ hstops
              right
              unfold RtnlCall.restarts
              dsimp only
              rw [hcalc]
              rfl
        rw [hsame]
        exact h
  | tick =>
    unfold Lost
    rw [finish_tick]
    exact h
  | poll wakes =>
    rcases s.poll_cases wakes with ⟨heq, -⟩ | ⟨-, -, heq⟩
    · rw [heq]
      exact h
    · rw [heq]
      exact hset true
  | xmit full =>
    rcases s.xmit_cases full with heq | heq
    · rw [heq]
      exact h
    · rw [heq]
      exact hset false

open Run in
/-- Once a restart has not got its interrupts, the device never has them
again, whatever happens; and the next call that stops it hangs. -/
theorem failed_restart_final (h : s.Sound) (hidle : s.todo = [])
    (hrun : s.dev.running = true) {c : RtnlCall} {env : StartEnv}
    (hc : c.restarts = some env) (hirq : env.requestIrqs ≠ 0)
    (acts : List LifeAct) :
    (exec step (s.begin c) acts).finish.irq = false
      ∧ ((exec step (s.begin c) acts).todo = [] →
        ∀ c' : RtnlCall, c'.Stops →
          ((exec step (s.begin c) acts).step (.call c')).finish.hung
            = true) := by
  have hends : s.dev.Ends := by
    rw [← finish_idle hidle]
    exact h.ends
  have hrestart := (hends.up hrun).restart env
  rw [if_neg hirq] at hrestart
  have hlost : (s.begin c).Lost := by
    rw [begin_restarts hc, if_pos hrun]
    exact ⟨hrestart.2.2.1, Or.inr ⟨hrestart.1, hrestart.2.1⟩⟩
  have hlast := exec_inv lost_step hlost acts
  generalize exec step (s.begin c) acts = t at hlast ⊢
  refine ⟨hlast.1, ?_⟩
  intro htodo c' hc'
  rcases t.call_cases c' with ⟨heq, hbusy⟩ | ⟨-, hhung, heq⟩
  · rw [heq, finish_idle htodo]
    exact hbusy htodo
  · rw [heq]
    unfold Lost at hlast
    rw [finish_idle htodo, hhung] at hlast
    obtain ⟨hirq', hbad | ⟨hrun', hnapi⟩⟩ := hlast
    · cases hbad
    · exact (begin_stops hrun' hnapi hirq' hc').1

/-- An open device. -/
def opened : NetLife :=
  ⟨⟨true, true, true, true, true, true, true, true, true, true, false⟩, []⟩

/-- A start whose interrupts somebody else has. -/
def irqsTaken : StartEnv where
  txQCount := 1
  tqomr := fun _ => 0
  polled := fun _ _ => 0
  mtu := 1500
  ok := fun _ => true
  requestIrqs := -EBUSY

theorem sound_opened : opened.Sound := by
  refine ⟨Or.inl ?_, ?_⟩
  · constructor <;> rfl
  · intro _ htorn
    cases htorn.2

/-- The restart is made to its end, with a poll in between. -/
def restartedToEnd : List LifeAct :=
  List.replicate 4 .tick ++ .poll true :: List.replicate 48 .tick

open Run in
/-- After it the device is closed. -/
theorem failed_restart_final_taken :
    (exec step (opened.begin (.restart irqsTaken)) restartedToEnd).todo = []
      ∧ (exec step (opened.begin (.restart irqsTaken))
        restartedToEnd).finish.irq = false
      ∧ ((exec step (opened.begin (.restart irqsTaken))
        restartedToEnd).step (.call .close)).finish.hung = true := by
  have hdone : (exec step (opened.begin (.restart irqsTaken))
      restartedToEnd).todo = [] := by decide
  obtain ⟨hirq, hhangs⟩ := failed_restart_final sound_opened rfl rfl
    (c := .restart irqsTaken) rfl (by decide) restartedToEnd
  exact ⟨hdone, hirq, hhangs hdone .close (Or.inl rfl)⟩

end NetLife

end BxRnic.Mac
