/-
The mutex in shared memory keeps the processes apart exactly as long as
the server makes it while nobody is in a sequence, and leaves when nobody
has it any more (`apart_exactly`).

A step that is not so need not show at once. What is exact is about what
may follow: after it there is a run of steps that are all in order, at
whose end two processes are in their sequences (`unsafe_of_wiped`,
`unsafe_of_destroyed`).
-/
import BxRnic.Exchange.SharedLock

namespace BxRnic.Exchange.Shm

open Run

variable {s : Shm} {p q g : Nat}

-- ============================================================== conditions

/-- One process at most is in a register sequence. -/
def Apart (s : Shm) : Prop :=
  ∀ p q, s.inside p = true → s.inside q = true → p = q

def NobodyInside (s : Shm) : Prop := ∀ p, s.inside p = false

/-- The server makes the mutex while nobody is in a sequence, and leaves
when nobody has it. -/
def StepOk (s : Shm) : ShmAct → Prop
  | .serverMap => s.server = .down → s.NobodyInside
  | .serverInit => ∀ g, s.server = .mapped g → s.NobodyInside
  | .serverExit => ∀ g, s.server = .up g → ∀ p, s.hwLock p = none
  | _ => True

/-- All processes have the mutex that is found under the key, and it is
held by who is in a sequence. -/
structure Sound (s : Shm) : Prop where
  shared : ∀ p g, s.hwLock p = some g → s.key = some g
  alive : ∀ g, s.key = some g → (s.segments g).kind ≠ .destroyed
  held : ∀ p, s.inside p = true →
    ∃ g, s.hwLock p = some g ∧ (s.segments g).owner = some p
  known : ∀ g, s.server = .mapped g ∨ s.server = .up g → s.key = some g
  gone : ∀ p, s.ended p = true → s.hwLock p = none
  /-- There are always processes to come. -/
  more : ∃ n, ∀ p, n ≤ p → s.hwLock p = none ∧ s.ended p = false

theorem sound_boot : boot.Sound where
  shared := fun _ _ h => nomatch h
  alive := fun _ h => nomatch h
  held := fun _ h => nomatch h
  known := fun _ h => h.elim (fun h => nomatch h) fun h => nomatch h
  gone := fun _ _ => rfl
  more := ⟨0, fun _ _ => ⟨rfl, rfl⟩⟩

namespace Sound

theorem apart (h : s.Sound) : s.Apart := by
  intro p q hp hq
  obtain ⟨g, hg, hown⟩ := h.held p hp
  obtain ⟨g', hg', hown'⟩ := h.held q hq
  have hkey := h.shared p g hg
  rw [h.shared q g' hg'] at hkey
  injection hkey with hsame
  rw [hsame, hown] at hown'
  injection hown'

theorem not_ended (h : s.Sound) (hp : s.hwLock p = some g) :
    s.ended p = false := by
  by_contra hended
  rw [Bool.not_eq_false] at hended
  rw [h.gone p hended] at hp
  cases hp

/-- A process that has not been there yet, and is not `p`. -/
theorem newcomer (h : s.Sound) (p : Nat) :
    ∃ q, q ≠ p ∧ s.hwLock q = none ∧ s.ended q = false := by
  obtain ⟨n, hn⟩ := h.more
  refine ⟨max n (p + 1), by omega, hn _ (Nat.le_max_left _ _)⟩

theorem outside (h : s.Sound) (hp : s.hwLock p = none) :
    s.inside p = false := by
  by_contra hin
  rw [Bool.not_eq_false] at hin
  obtain ⟨g, hg, -⟩ := h.held p hin
  rw [hp] at hg
  cases hg

-- ------------------------------------------------------------ the segment

/-- A segment is found or made. -/
theorem shmget (h : s.Sound) :
    s.shmget.2.Sound ∧ s.shmget.2.key = some s.shmget.1
      ∧ s.shmget.2.hwLock = s.hwLock ∧ s.shmget.2.inside = s.inside
      ∧ s.shmget.2.ended = s.ended ∧ s.shmget.2.server = s.server := by
  unfold Shm.shmget
  cases hkey : s.key with
  | some g => exact ⟨h, hkey, rfl, rfl, rfl, rfl⟩
  | none =>
    have hnobody : ∀ p, s.hwLock p = none := by
      intro p
      cases hp : s.hwLock p with
      | none => rfl
      | some g =>
        rw [h.shared p g hp] at hkey
        cases hkey
    dsimp only
    refine ⟨⟨?_, ?_, ?_, ?_, h.gone, h.more⟩, rfl, rfl, rfl, rfl, rfl⟩
    · intro p g hp
      have hnone : s.hwLock p = some g := hp
      rw [hnobody] at hnone
      cases hnone
    · intro g hg
      injection hg with hg
      subst hg
      simp [setSegment]
    · intro p hp
      obtain ⟨g, hg, -⟩ := h.held p hp
      rw [hnobody] at hg
      cases hg
    · intro g hg
      have hknown := h.known g hg
      rw [hkey] at hknown
      cases hknown

/-- The mutex of a segment changes, and who is in a sequence holds it. -/
theorem setSegment (h : s.Sound) {m : Segment} (hm : m.kind ≠ .destroyed)
    (hheld : ∀ p, s.inside p = true → s.hwLock p = some g →
      m.owner = some p) : (s.setSegment g m).Sound := by
  refine ⟨h.shared, ?_, ?_, h.known, h.gone, h.more⟩
  · intro g' hg'
    by_cases hg : g' = g
    · subst hg
      simp only [Shm.setSegment, Function.update_self]
      exact hm
    · simp only [Shm.setSegment, Function.update_of_ne hg]
      exact h.alive g' hg'
  · intro p hp
    obtain ⟨g', hg', hown⟩ := h.held p hp
    refine ⟨g', hg', ?_⟩
    by_cases hg : g' = g
    · subst hg
      simp only [Shm.setSegment, Function.update_self]
      exact hheld p hp hg'
    · simp only [Shm.setSegment, Function.update_of_ne hg]
      exact hown

-- ---------------------------------------------------------- the processes

theorem attach (h : s.Sound) (hended : s.ended p = false)
    (hout : s.inside p = false) : (s.attach p).Sound := by
  obtain ⟨hsound, hkey, hlock, hinside, hends, -⟩ := h.shmget
  unfold Shm.attach
  dsimp only
  rw [← hinside] at hout
  rw [← hends] at hended
  generalize s.shmget.2 = t at hsound hkey hout hended ⊢
  refine ⟨?_, hsound.alive, ?_, hsound.known, ?_, ?_⟩
  · intro q g hq
    by_cases hqp : q = p
    · subst hqp
      simp only [Function.update_self] at hq
      rw [← hq]
      exact hkey
    · simp only [Function.update_of_ne hqp] at hq
      exact hsound.shared q g hq
  · intro q hq
    have hqp : q ≠ p := by
      intro heq
      subst heq
      rw [show t.inside q = true from hq] at hout
      cases hout
    obtain ⟨g, hg, hown⟩ := hsound.held q hq
    refine ⟨g, ?_, hown⟩
    simp only [Function.update_of_ne hqp]
    exact hg
  · intro q hq
    have hqp : q ≠ p := by
      intro heq
      subst heq
      rw [show t.ended q = true from hq] at hended
      cases hended
    simp only [Function.update_of_ne hqp]
    exact hsound.gone q hq
  · obtain ⟨n, hn⟩ := hsound.more
    refine ⟨max n (p + 1), ?_⟩
    intro q hq
    obtain ⟨hnone, hgo⟩ := hn q (by omega)
    refine ⟨?_, hgo⟩
    have hqp : q ≠ p := by omega
    simp only [Function.update_of_ne hqp]
    exact hnone

/-- A process that is in no sequence gives the mutex up. -/
theorem detach (h : s.Sound) (hout : s.inside p = false) :
    Sound { s with hwLock := Function.update s.hwLock p none } := by
  refine ⟨?_, h.alive, ?_, h.known, ?_, ?_⟩
  · intro q g hq
    by_cases hqp : q = p
    · subst hqp
      simp only [Function.update_self] at hq
      cases hq
    · simp only [Function.update_of_ne hqp] at hq
      exact h.shared q g hq
  · intro q hq
    have hqp : q ≠ p := by
      intro heq
      subst heq
      rw [show s.inside q = true from hq] at hout
      cases hout
    obtain ⟨g, hg, hown⟩ := h.held q hq
    refine ⟨g, ?_, hown⟩
    simp only [Function.update_of_ne hqp]
    exact hg
  · intro q hq
    by_cases hqp : q = p
    · subst hqp
      exact Function.update_self ..
    · simp only [Function.update_of_ne hqp]
      exact h.gone q hq
  · obtain ⟨n, hn⟩ := h.more
    refine ⟨n, ?_⟩
    intro q hq
    obtain ⟨hnone, hgo⟩ := hn q hq
    refine ⟨?_, hgo⟩
    by_cases hqp : q = p
    · subst hqp
      exact Function.update_self ..
    · simp only [Function.update_of_ne hqp]
      exact hnone

/-- A mutex that can be locked is free, or its owner has ended. -/
theorem lock_cases {m m' : Segment} {ended : Nat → Bool}
    (halive : m.kind ≠ .destroyed) (h : m.lock ended p = some m') :
    m' = { m with owner := some p }
      ∧ ∀ q, m.owner = some q → ended q = true := by
  cases m with
  | mk kind owner =>
    cases kind with
    | destroyed => exact absurd rfl halive
    | zeroed =>
      cases owner with
      | none =>
        injection h with h
        exact ⟨h.symm, fun _ hq => nomatch hq⟩
      | some q => cases h
    | robust =>
      cases owner with
      | none =>
        injection h with h
        exact ⟨h.symm, fun _ hq => nomatch hq⟩
      | some q =>
        simp only [Segment.lock] at h
        split at h
        · next hended =>
          injection h with h
          refine ⟨h.symm, ?_⟩
          intro q' hq'
          injection hq' with hq'
          rw [← hq']
          exact hended
        · cases h

theorem enter (h : s.Sound) (hp : s.hwLock p = some g) :
    (s.enter p g).Sound := by
  unfold Shm.enter
  cases hlock : (s.segments g).lock s.ended p with
  | none => exact h
  | some m =>
    obtain ⟨hm, hfree⟩ :=
      lock_cases (h.alive g (h.shared p g hp)) hlock
    -- whoever is in a sequence would be the owner, and has not ended
    have hempty : ∀ q, s.inside q = false := by
      intro q
      by_contra hq
      rw [Bool.not_eq_false] at hq
      obtain ⟨g', hg', hown⟩ := h.held q hq
      have hkey := h.shared p g hp
      rw [h.shared q g' hg'] at hkey
      injection hkey with hsame
      rw [hsame] at hown
      have hgo := hfree q hown
      rw [h.not_ended hg'] at hgo
      cases hgo
    have hset : (s.setSegment g m).Sound := by
      apply h.setSegment
      · rw [hm]
        exact h.alive g (h.shared p g hp)
      · intro q hq
        rw [hempty q] at hq
        cases hq
    refine ⟨hset.shared, hset.alive, ?_, hset.known, hset.gone, hset.more⟩
    intro q hq
    by_cases hqp : q = p
    · subst hqp
      refine ⟨g, hp, ?_⟩
      simp only [Shm.setSegment, Function.update_self]
      rw [hm]
    · simp only [Function.update_of_ne hqp] at hq
      have hin : s.inside q = true := hq
      rw [hempty q] at hin
      cases hin

theorem leave (h : s.Sound) (hp : s.hwLock p = some g)
    (hin : s.inside p = true) : (s.leave p g).Sound := by
  have halone : ∀ q, s.inside q = true → q = p := fun q hq =>
    h.apart q p hq hin
  obtain ⟨g', hg', hown⟩ := h.held p hin
  rw [hp] at hg'
  injection hg' with hg'
  subst hg'
  have halive := h.alive g (h.shared p g hp)
  have hfree : (s.segments g).unlock p
      = { s.segments g with owner := none } := by
    unfold Segment.unlock
    split
    · next hkind => exact absurd hkind halive
    · rfl
    · rw [if_pos hown]
  unfold Shm.leave
  rw [hfree]
  refine ⟨h.shared, ?_, ?_, h.known, h.gone, h.more⟩
  · intro g' hg'
    by_cases hg : g' = g
    · subst hg
      simp only [Shm.setSegment, Function.update_self]
      exact halive
    · simp only [Shm.setSegment, Function.update_of_ne hg]
      exact h.alive g' hg'
  · intro q hq
    by_cases hqp : q = p
    · subst hqp
      simp only [Function.update_self] at hq
      cases hq
    · simp only [Function.update_of_ne hqp] at hq
      exact absurd (halone q hq) hqp

theorem finish (h : s.Sound) (p : Nat) : (s.finish p).Sound := by
  refine ⟨?_, h.alive, ?_, h.known, ?_, ?_⟩
  · intro q g hq
    by_cases hqp : q = p
    · subst hqp
      simp only [Shm.finish, Function.update_self] at hq
      cases hq
    · simp only [Shm.finish, Function.update_of_ne hqp] at hq
      exact h.shared q g hq
  · intro q hq
    by_cases hqp : q = p
    · subst hqp
      simp only [Shm.finish, Function.update_self] at hq
      cases hq
    · simp only [Shm.finish, Function.update_of_ne hqp] at hq ⊢
      exact h.held q hq
  · intro q hq
    by_cases hqp : q = p
    · subst hqp
      exact Function.update_self ..
    · simp only [Shm.finish, Function.update_of_ne hqp] at hq ⊢
      exact h.gone q hq
  · obtain ⟨n, hn⟩ := h.more
    refine ⟨max n (p + 1), ?_⟩
    intro q hq
    have hqp : q ≠ p := by omega
    simp only [Shm.finish, Function.update_of_ne hqp]
    exact hn q (by omega)

-- ------------------------------------------------------------- the server

theorem serverMap (h : s.Sound) (hnobody : s.NobodyInside) :
    s.serverMap.Sound := by
  obtain ⟨hsound, hkey, -, hinside, -, -⟩ := h.shmget
  have hset : (s.shmget.2.setSegment s.shmget.1 ⟨.zeroed, none⟩).Sound := by
    apply hsound.setSegment
    · simp
    · intro p hp
      rw [hinside, hnobody p] at hp
      cases hp
  refine ⟨hset.shared, hset.alive, hset.held, ?_, hset.gone, hset.more⟩
  intro g hg
  rcases hg with hg | hg
  · injection hg with hg
    rw [← hg]
    exact hkey
  · cases hg

theorem serverInit (h : s.Sound) (hmapped : s.server = .mapped g)
    (hnobody : s.NobodyInside) : (s.serverInit g).Sound := by
  have hset : (s.setSegment g ⟨.robust, none⟩).Sound := by
    apply h.setSegment
    · simp
    · intro p hp
      rw [hnobody p] at hp
      cases hp
  refine ⟨hset.shared, hset.alive, hset.held, ?_, hset.gone, hset.more⟩
  intro g' hg'
  rcases hg' with hg' | hg'
  · cases hg'
  · injection hg' with hg'
    rw [← hg']
    exact h.known g (Or.inl hmapped)

/-- The server leaves, and nobody has the mutex. -/
theorem serverExit (h : s.Sound) (hnobody : ∀ p, s.hwLock p = none) :
    (s.serverExit g).Sound := by
  refine ⟨?_, ?_, ?_, ?_, h.gone, h.more⟩
  · intro p g' hp
    have hnone : s.hwLock p = some g' := hp
    rw [hnobody p] at hnone
    cases hnone
  · intro g' hg'
    cases hg'
  · intro p hp
    have hin : s.inside p = true := hp
    rw [h.outside (hnobody p)] at hin
    cases hin
  · intro g' hg'
    rcases hg' with hg' | hg' <;> cases hg'

theorem serverDies (h : s.Sound) : Sound { s with server := .down } := by
  refine ⟨h.shared, h.alive, h.held, ?_, h.gone, h.more⟩
  intro g hg
  rcases hg with hg | hg <;> cases hg

-- --------------------------------------------------------------- any step

theorem step (h : s.Sound) (act : ShmAct) (hok : s.StepOk act) :
    (s.step act).Sound := by
  cases act with
  | attach p =>
    simp only [Shm.step]
    split
    · next hattach => exact h.attach hattach.1 hattach.2
    · exact h
  | detach p =>
    simp only [Shm.step]
    split
    · next hout => exact h.detach hout
    · exact h
  | enter p =>
    simp only [Shm.step]
    split
    · exact h
    · next hp =>
      split
      · exact h.enter hp
      · exact h
  | leave p =>
    simp only [Shm.step]
    split
    · exact h
    · next hp =>
      split
      · next hin => exact h.leave hp hin
      · exact h
  | finish p => exact h.finish p
  | serverMap =>
    simp only [Shm.step]
    split
    · next hdown => exact h.serverMap (hok hdown)
    · exact h
  | serverInit =>
    simp only [Shm.step]
    split
    · next hmapped => exact h.serverInit hmapped (hok _ hmapped)
    · exact h
  | serverExit =>
    simp only [Shm.step]
    split
    · next hup => exact h.serverExit (hok _ hup)
    · exact h
  | serverDies => exact h.serverDies

end Sound

-- ============================================================ what follows

/-- A process gets at a mutex that is free. -/
theorem gets_in (hlock : s.hwLock q = some g)
    (hfree : (s.segments g).owner = none) (hout : s.inside q = false) :
    (s.step (.enter q)).inside = Function.update s.inside q true := by
  have hsome : ∃ m, (s.segments g).lock s.ended q = some m := by
    unfold Segment.lock
    rw [hfree]
    cases (s.segments g).kind with
    | _ => exact ⟨_, rfl⟩
  obtain ⟨m, hm⟩ := hsome
  simp only [Shm.step, hlock, hout, if_true, Shm.enter, hm]

/-- A process comes, and gets at the mutex of the key. -/
theorem comes_in (hended : s.ended q = false) (hout : s.inside q = false)
    (hfree : ∀ g, s.key = some g → (s.segments g).owner = none) :
    ((s.step (.attach q)).step (.enter q)).inside
      = Function.update s.inside q true := by
  have hattach : s.step (.attach q) = s.attach q := by
    simp only [Shm.step, hended, hout, and_self, if_true]
  rw [hattach]
  cases hkey : s.key with
  | some g =>
    have hget : s.shmget = (g, s) := by
      unfold Shm.shmget
      rw [hkey]
    have hinside : (s.attach q).inside = s.inside := by
      unfold Shm.attach
      rw [hget]
    rw [← hinside]
    apply gets_in (g := g)
    · simp only [Shm.attach, hget, Function.update_self]
    · simp only [Shm.attach, hget]
      exact hfree g hkey
    · rw [hinside]
      exact hout
  | none =>
    have hget : s.shmget = (s.made,
        { s.setSegment s.made ⟨.zeroed, none⟩ with
          made := s.made + 1
          key := some s.made }) := by
      unfold Shm.shmget
      rw [hkey]
    have hinside : (s.attach q).inside = s.inside := by
      unfold Shm.attach
      rw [hget]
      rfl
    rw [← hinside]
    apply gets_in (g := s.made)
    · simp only [Shm.attach, hget, Function.update_self]
    · simp only [Shm.attach, hget, setSegment, Function.update_self]
    · rw [hinside]
      exact hout

/-- The mutex is wiped while a process is in a sequence: another one can
get at it. -/
theorem unsafe_of_wiped {t : Shm} (h : s.Sound) (hp : s.inside p = true)
    (hfree : ∀ g, t.key = some g → (t.segments g).owner = none)
    (hinside : t.inside = s.inside) (hended : t.ended = s.ended) :
    ¬ Safe step StepOk Apart t := by
  obtain ⟨q, hqp, hnone, hgo⟩ := h.newcomer p
  have hout := h.outside hnone
  rw [← hended] at hgo
  rw [← hinside] at hp hout
  have hin := comes_in hgo hout hfree
  intro hsafe
  have hapart := hsafe [.attach q, .enter q] ⟨trivial, trivial, trivial⟩
  apply hqp
  apply hapart q p
  · simp only [exec_cons, exec_nil, hin, Function.update_self]
  · simp only [exec_cons, exec_nil, hin]
    rw [Function.update_of_ne (Ne.symm hqp)]
    exact hp

/-- The server leaves while a process has the mutex: that process goes on
without, and one that comes has another. -/
theorem unsafe_of_destroyed (h : s.Sound) (hup : s.server = .up g)
    (hp : s.hwLock p ≠ none) :
    ¬ Safe step StepOk Apart (s.serverExit g) := by
  obtain ⟨g', hg'⟩ := Option.ne_none_iff_exists'.1 hp
  have hsame : g' = g := by
    have hkey := h.shared p g' hg'
    rw [h.known g (Or.inr hup)] at hkey
    injection hkey with hkey
    exact hkey.symm
  subst hsame
  obtain ⟨q, hqp, hnone, hgo⟩ := h.newcomer p
  have hout := h.outside hnone
  have hfirst : ((s.serverExit g').step (.enter p)).inside
        = Function.update s.inside p true
      ∧ ((s.serverExit g').step (.enter p)).key = none
      ∧ ((s.serverExit g').step (.enter p)).ended = s.ended := by
    have hlock : (s.serverExit g').hwLock p = some g' := hg'
    simp only [Shm.step, hlock]
    split
    · have hmutex : ((s.serverExit g').segments g').lock
          (s.serverExit g').ended p
          = some { s.segments g' with kind := .destroyed } := by
        simp only [Shm.serverExit, setSegment, Function.update_self]
        rfl
      simp only [Shm.enter, hmutex]
      exact ⟨rfl, rfl, rfl⟩
    · next hin =>
      rw [Bool.not_eq_false] at hin
      have hin' : s.inside p = true := hin
      refine ⟨?_, rfl, rfl⟩
      rw [← hin', Function.update_eq_self]
      rfl
  obtain ⟨hinside, hkey, hended⟩ := hfirst
  have hin : ((((s.serverExit g').step (.enter p)).step
      (.attach q)).step (.enter q)).inside
        = Function.update (Function.update s.inside p true) q true := by
    rw [← hinside]
    apply comes_in
    · rw [hended]
      exact hgo
    · rw [hinside, Function.update_of_ne hqp]
      exact hout
    · intro g hg
      rw [hkey] at hg
      cases hg
  intro hsafe
  have hapart := hsafe [.enter p, .attach q, .enter q]
    ⟨trivial, trivial, trivial, trivial⟩
  apply hqp
  apply hapart q p
  · simp only [exec_cons, exec_nil, hin, Function.update_self]
  · simp only [exec_cons, exec_nil, hin]
    rw [Function.update_of_ne (Ne.symm hqp), Function.update_self]

/-- Over every run of processes that come, run their sequences, and end
anywhere, and of servers that start, leave and are killed: in no state
can harmless steps bring two processes into their sequences at once,
exactly if the server has always made the mutex while nobody was in a
sequence, and left when nobody had it. -/
theorem apart_exactly (acts : List ShmAct) :
    Always step (Safe step StepOk Apart) boot acts
      ↔ Each step StepOk boot acts := by
  apply always_safe_iff_each (I := Sound) (fun _ hs => hs.apart)
    (fun _ act hs hok => hs.step act hok) ?_ sound_boot
  intro s act hs hbad
  cases act with
  | serverMap =>
    obtain ⟨hdown, hsome⟩ := Classical.not_imp.1 hbad
    obtain ⟨p, hp⟩ := not_forall.1 hsome
    rw [Bool.not_eq_false] at hp
    obtain ⟨-, hkey, -, hinside, hended, -⟩ := hs.shmget
    simp only [Shm.step, hdown, if_true]
    apply unsafe_of_wiped hs hp
    · intro g hg
      have hsame : some s.shmget.1 = some g := hkey.symm.trans hg
      injection hsame with hsame
      rw [← hsame]
      simp only [Shm.serverMap, setSegment, Function.update_self]
    · exact hinside
    · exact hended
  | serverInit =>
    obtain ⟨g, hg⟩ := not_forall.1 hbad
    obtain ⟨hmapped, hsome⟩ := Classical.not_imp.1 hg
    obtain ⟨p, hp⟩ := not_forall.1 hsome
    rw [Bool.not_eq_false] at hp
    simp only [Shm.step, hmapped]
    apply unsafe_of_wiped hs hp
    · intro g' hg'
      have hsame : some g = some g' :=
        (hs.known g (Or.inl hmapped)).symm.trans hg'
      injection hsame with hsame
      rw [← hsame]
      simp only [Shm.serverInit, setSegment, Function.update_self]
    · rfl
    · rfl
  | serverExit =>
    obtain ⟨g, hg⟩ := not_forall.1 hbad
    obtain ⟨hup, hsome⟩ := Classical.not_imp.1 hg
    obtain ⟨p, hp⟩ := not_forall.1 hsome
    simp only [Shm.step, hup]
    exact unsafe_of_destroyed hs hup hp
  | _ => exact absurd trivial hbad

end BxRnic.Exchange.Shm
