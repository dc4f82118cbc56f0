/-
Whether a completion that has raised its interrupt is looked at.

`mac_isr` acknowledges what it has read, but always to channel 0. The
status of an RDMA channel is so written over that of channel 0, and what
channel 0 has completed since its own turn goes down unread. The handler
schedules nothing on behalf of the other channels, so that with the poll
idle nobody looks (`Interrupts.StepOk`).

A completion is covered as long as somebody is still to act on it: its
status bit is up, the poll will look at its ring, or the handler is about
to schedule the poll. Only two steps can uncover one, and the theorem says
exactly when they do.
-/
import BxRnic.Lib.Run
import BxRnic.Mac.Interrupts

namespace BxRnic.Mac

-- =========================================================== the property

/-- The poll will look at the ring of `d` before it is idle. -/
def Interrupts.WillLook (s : Interrupts) (d : Dir) : Prop :=
  match s.poll with
  | .idle => False
  | .tx => True
  | .rx limited => d = .rx ∨ limited = true ∨ s.missed = true
  | .complete => s.missed = true

/-- The handler has read of channel 0 that there is something to poll. -/
def Interrupts.WillSchedule (s : Interrupts) : Prop :=
  match s.isr with
  | .ready i _ dmaChIsr => i = 0 ∧ tiOrRi dmaChIsr = true
  | _ => False

/-- The status bit of `d` is up in channel 0. -/
def Interrupts.Pending (s : Interrupts) (d : Dir) : Prop :=
  (s.sr 0).getLsbD d.pos = true

/-- Every completion that has raised its interrupt is still signalled or
will be looked at. -/
def Interrupts.Covered (s : Interrupts) : Prop :=
  ∀ d, s.unseen d = true → s.Pending d ∨ s.WillLook d ∨ s.WillSchedule

/-- What a step must not do: the acknowledgement does not take down the
bit of a completion that no look will follow, and the poll does not leave
a transmit ring it came to its limit in, with nobody else to call it. -/
def Interrupts.StepOk (s : Interrupts) : IntrAct → Prop
  | .isr =>
      match s.isr with
      | .ack _ _ dmaChIsr =>
          ∀ d, s.unseen d = true → dmaChIsr.getLsbD d.pos = true →
            s.WillLook d
      | _ => True
  | .poll _ count =>
      s.poll = .rx true → count = 0 → s.unseen .tx = true →
        s.Pending .tx ∨ s.missed = true ∨ s.WillSchedule
  | _ => True

-- ================================================================ the steps

section Steps

variable {s : Interrupts}

theorem Dir.tx_ne_rx : Dir.tx ≠ Dir.rx := Dir.noConfusion

theorem tiOrRi_of_bit {value : U32} (d : Dir)
    (h : value.getLsbD d.pos = true) : tiOrRi value = true := by
  unfold tiOrRi
  cases d with
  | tx => rw [h, Bool.true_or]
  | rx => rw [h, Bool.or_true]

/-- Whoever finds the poll taken leaves word. -/
theorem Interrupts.willLook_schedule (s : Interrupts) (d : Dir) :
    s.schedule.WillLook d := by
  unfold Interrupts.schedule
  split
  · exact trivial
  · next hne =>
    unfold Interrupts.WillLook
    cases hp : s.poll with
    | idle => exact absurd hp hne
    | tx => trivial
    | rx limited => exact Or.inr (Or.inr rfl)
    | complete => rfl

/-- A poll that looks at everything leaves nothing uncovered. -/
theorem Interrupts.covered_of_willLook (h : ∀ d, s.WillLook d) :
    s.Covered :=
  fun d _ => Or.inr (Or.inl (h d))

/-- Bits that go up, with handler and poll where they were. -/
theorem Interrupts.Covered.raise (h : s.Covered) (i : Nat) (bits : U32) :
    ({ s with sr := s.sr.raise i bits } : Interrupts).Covered := by
  intro d hd
  rcases h d hd with hp | hp | hp
  · exact Or.inl (s.sr.raise_up bits hp)
  · exact Or.inr (Or.inl hp)
  · exact Or.inr (Or.inr hp)

theorem getLsbD_twoPow_pos (value : U32) (d : Dir) :
    (value ||| BitVec.twoPow 32 d.pos).getLsbD d.pos = true := by
  cases d with
  | tx => simp [Dir.pos]
  | rx => simp [Dir.pos]

/-- A completion is signalled as it happens. -/
theorem Interrupts.Covered.completed (h : s.Covered) (d : Dir) :
    (s.step (.completed d)).Covered := by
  intro d' hd'
  rcases eq_or_ne d' d with rfl | hne
  · exact Or.inl (by
      unfold Interrupts.Pending Interrupts.step
      dsimp only
      rw [StatusRegs.raise_same]
      exact getLsbD_twoPow_pos _ _)
  · have hseen : s.unseen d' = true := by
      have : (s.step (.completed d)).unseen d' = s.unseen d' :=
        Function.update_of_ne hne _ _
      rw [← this]
      exact hd'
    exact h.raise 0 _ d' hseen

/-- The handler moves to a stage in which it schedules nothing, and the
status of channel 0 stays. -/
theorem Interrupts.Covered.handler (h : s.Covered)
    (hnot : ¬ s.WillSchedule) {t : Interrupts} (hsr : t.sr 0 = s.sr 0)
    (hunseen : t.unseen = s.unseen)
    (hlook : ∀ d, s.WillLook d → t.WillLook d) : t.Covered := by
  intro d hd
  rw [hunseen] at hd
  rcases h d hd with hp | hp | hp
  · refine Or.inl ?_
    unfold Interrupts.Pending
    rw [hsr]
    exact hp
  · exact Or.inr (Or.inl (hlook d hp))
  · exact absurd hp hnot

/-- What the handler does, its acknowledgement apart, uncovers nothing. -/
theorem Interrupts.Covered.handles (h : s.Covered)
    (hack : ∀ i dmaIsr v, s.isr ≠ .ack i dmaIsr v) : s.isrStep.Covered := by
  unfold Interrupts.isrStep
  split
  · exact h
  · next i dmaIsr hisr =>
    have hnot : ¬ s.WillSchedule := by
      unfold Interrupts.WillSchedule
      rw [hisr]
      exact fun hf => hf
    split
    · split
      · exact h.handler hnot rfl rfl fun _ hl => hl
      · exact h.handler hnot rfl rfl fun _ hl => hl
    · exact h.handler hnot rfl rfl fun _ hl => hl
  · next i dmaIsr v hisr =>
    split
    · next hi =>
      dsimp only
      cases hv : tiOrRi v with
      | true => exact covered_of_willLook fun d => s.willLook_schedule d
      | false =>
        refine h.handler ?_ rfl rfl fun _ hl => hl
        unfold Interrupts.WillSchedule
        rw [hisr]
        intro hw
        rw [hw.2] at hv
        exact Bool.noConfusion hv
    · next hi =>
      refine h.handler ?_ ?_ rfl fun _ hl => hl
      · unfold Interrupts.WillSchedule
        rw [hisr]
        exact fun hw => hi hw.1
      · exact s.sr.write_other (Ne.symm hi) v
  · next i dmaIsr v hisr => exact absurd hisr (hack i dmaIsr v)

/-- The acknowledgement uncovers exactly what it takes down with no look
to follow. -/
theorem Interrupts.Covered.acks (h : s.Covered) {i : Nat} {dmaIsr v : U32}
    (hisr : s.isr = .ack i dmaIsr v) :
    s.isrStep.Covered
      ↔ ∀ d, s.unseen d = true → v.getLsbD d.pos = true →
          s.WillLook d := by
  have hnot : ¬ s.WillSchedule := by
    unfold Interrupts.WillSchedule
    rw [hisr]
    exact fun hf => hf
  have hstep : s.isrStep =
      { s with sr := s.sr.write 0 v, isr := .next (i + 1) dmaIsr } := by
    unfold Interrupts.isrStep
    rw [hisr]
  have hbit : ∀ d : Dir,
      ((s.sr.write 0 v) 0).getLsbD d.pos = true
        ↔ (s.sr 0).getLsbD d.pos = true ∧ v.getLsbD d.pos = false := by
    intro d
    rw [StatusRegs.write_same]
    cases d with
    | tx => simp [Dir.pos]
    | rx => simp [Dir.pos]
  rw [hstep]
  constructor
  · intro hcov d hd hv
    rcases hcov d hd with hp | hp | hp
    · have hlow := ((hbit d).1 hp).2
      rw [hlow] at hv
      exact Bool.noConfusion hv
    · exact hp
    · exact hp.elim
  · intro hok d hd
    cases hv : v.getLsbD d.pos with
    | true => exact Or.inr (Or.inl (hok d hd hv))
    | false =>
      rcases h d hd with hp | hp | hp
      · exact Or.inl ((hbit d).2 ⟨hp, hv⟩)
      · exact Or.inr (Or.inl hp)
      · exact absurd hp hnot

/-- Nothing is uncovered by a move of the poll but its last look at the
receive ring, and by that only the transmit ring it came to its limit
in. -/
theorem Interrupts.Covered.polls (h : s.Covered) (limited : Bool)
    (count : Nat) :
    (s.pollStep limited count).Covered
      ↔ s.StepOk (.poll limited count) := by
  unfold Interrupts.pollStep Interrupts.StepOk
  split
  · next hp =>
    refine iff_of_true h fun hrx => ?_
    rw [hp] at hrx
    exact AllPollPc.noConfusion hrx
  · next hp =>
    refine iff_of_true ?_ fun hrx => ?_
    · intro d hd
      cases d with
      | rx => exact Or.inr (Or.inl (Or.inl rfl))
      | tx =>
        have hlim : Function.update s.unseen Dir.tx
            (limited && s.unseen .tx) Dir.tx = true := hd
        rw [Function.update_self] at hlim
        exact Or.inr (Or.inl (Or.inr (Or.inl (Bool.and_elim_left hlim))))
    · rw [hp] at hrx
      exact AllPollPc.noConfusion hrx
  · next limited' hp =>
    split
    · next hzero =>
      constructor
      · intro hcov hrx _ hd
        have hd' : Function.update s.unseen Dir.rx false Dir.tx
            = true := by
          rw [Function.update_of_ne Dir.tx_ne_rx]
          exact hd
        exact hcov .tx hd'
      · intro hok d hd
        cases d with
        | rx =>
          have hfalse : Function.update s.unseen Dir.rx false Dir.rx
              = true := hd
          rw [Function.update_self] at hfalse
          exact Bool.noConfusion hfalse
        | tx =>
          have hd' : s.unseen .tx = true := by
            have hd' : Function.update s.unseen Dir.rx false Dir.tx
                = true := hd
            rw [Function.update_of_ne Dir.tx_ne_rx] at hd'
            exact hd'
          cases limited' with
          | true => exact hok hp hzero hd'
          | false =>
            rcases h .tx hd' with hl | hl | hl
            · exact Or.inl hl
            · unfold Interrupts.WillLook at hl
              rw [hp] at hl
              rcases hl with hl | hl | hl
              · exact Dir.noConfusion hl
              · exact Bool.noConfusion hl
              · exact Or.inr (Or.inl hl)
            · exact Or.inr (Or.inr hl)
    · next hne =>
      exact iff_of_true (covered_of_willLook fun _ => trivial)
        fun _ hzero => absurd hzero hne
  · next hp =>
    have hok : s.poll ≠ .rx true := by
      rw [hp]
      exact AllPollPc.noConfusion
    split
    · exact iff_of_true (covered_of_willLook fun _ => trivial)
        fun hrx => absurd hrx hok
    · next hmissed =>
      refine iff_of_true (fun d hd => ?_) fun hrx => absurd hrx hok
      rcases h d hd with hl | hl | hl
      · exact Or.inl hl
      · unfold Interrupts.WillLook at hl
        rw [hp] at hl
        exact absurd hl hmissed
      · exact Or.inr (Or.inr hl)

/-- One step, exactly. -/
theorem Interrupts.Covered.step_iff (h : s.Covered) (act : IntrAct) :
    (s.step act).Covered ↔ s.StepOk act := by
  cases act with
  | completed d => exact iff_of_true (h.completed d) trivial
  | event i bits => exact iff_of_true (h.raise i bits) trivial
  | irq dmaIsr =>
    refine iff_of_true ?_ trivial
    unfold Interrupts.step
    dsimp only
    split
    · next hidle =>
      refine h.handler ?_ rfl rfl fun _ hl => hl
      unfold Interrupts.WillSchedule
      rw [hidle.1]
      exact fun hf => hf
    · exact h
  | isr =>
    cases hisr : s.isr with
    | ack i dmaIsr v =>
      have hiff := h.acks hisr
      unfold Interrupts.StepOk
      rw [hisr]
      exact hiff
    | _ =>
      refine iff_of_true (h.handles fun i dmaIsr v => ?_) ?_
      · rw [hisr]
        exact IsrPc.noConfusion
      · unfold Interrupts.StepOk
        rw [hisr]
        trivial
  | timer =>
    exact iff_of_true (covered_of_willLook fun d => s.willLook_schedule d)
      trivial
  | poll limited count => exact h.polls limited count

end Steps

-- ================================================================= the runs

/-- Whatever the NIC, the handler, the timer and the poll do in whatever
order: every completion stays covered exactly as long as no
acknowledgement takes down the bit of one that the poll is not to look at,
and no poll leaves a transmit ring at its limit with nobody to call it
again. -/
theorem covered_exactly (acts : List IntrAct) :
    Run.Always Interrupts.step Interrupts.Covered .started acts
      ↔ Run.Each Interrupts.step Interrupts.StepOk .started acts :=
  Run.always_iff_each (fun _ act h => h.step_iff act)
    fun _ hd => Bool.noConfusion hd

/-- The NIC completes a packet on channel 0 after the handler has been
there, and then the handler comes to the last channel, which has received
something as well: nothing is left to look at the packet. -/
example :
    ∃ s, s = Run.exec Interrupts.step .started
        [.event 6 0x40, .irq 0x40, .isr, .isr, .isr, .isr, .isr, .isr,
          .isr, .isr, .completed .rx, .isr, .isr]
      ∧ s.unseen .rx = true ∧ s.sr 0 = 0 ∧ s.poll = .idle
      ∧ s.isr = .idle := by
  refine ⟨_, rfl, ?_⟩
  decide

-- =========================================================== with one channel

/-- The NIC interrupts for channel 0 only, the poll does not move between
the turn of channel 0 and its acknowledgement, and it never comes to its
limit in the transmit ring. -/
def Interrupts.Alone (s : Interrupts) : IntrAct → Prop
  | .irq dmaIsr =>
      ∀ i, 0 < i → i < isrChannels → dmaIsr.getLsbD i = false
  | .poll limited _ =>
      limited = false ∧ ∀ i dmaIsr v, s.isr ≠ .ack i dmaIsr v
  | _ => True

/-- The handler is in the turn of channel 0, if in any, and once it has
read there that there is something to poll, the poll will look. -/
def Interrupts.InTurn (s : Interrupts) : Prop :=
  match s.isr with
  | .idle => True
  | .next _ dmaIsr =>
      ∀ i, 0 < i → i < isrChannels → dmaIsr.getLsbD i = false
  | .ready i dmaIsr _ =>
      i = 0 ∧ ∀ i, 0 < i → i < isrChannels → dmaIsr.getLsbD i = false
  | .ack _ dmaIsr dmaChIsr =>
      (∀ i, 0 < i → i < isrChannels → dmaIsr.getLsbD i = false)
        ∧ (tiOrRi dmaChIsr = true → ∀ d, s.WillLook d)

section Alone

variable {s : Interrupts}

/-- With the handler elsewhere than at an acknowledgement, `InTurn` is
about the handler alone. -/
theorem Interrupts.InTurn.congr (h : s.InTurn) {t : Interrupts}
    (hisr : t.isr = s.isr)
    (hlook : (∀ d, s.WillLook d) → ∀ d, t.WillLook d) : t.InTurn := by
  unfold Interrupts.InTurn at h ⊢
  rw [hisr]
  cases hs : s.isr with
  | idle => trivial
  | next i dmaIsr =>
    rw [hs] at h
    exact h
  | ready i dmaIsr v =>
    rw [hs] at h
    exact h
  | ack i dmaIsr v =>
    rw [hs] at h
    exact ⟨h.1, fun hv => hlook (h.2 hv)⟩

theorem Interrupts.InTurn.isrStep (h : s.InTurn) : s.isrStep.InTurn := by
  unfold Interrupts.InTurn at h
  unfold Interrupts.isrStep
  split
  · next hisr =>
    unfold Interrupts.InTurn
    rw [hisr]
    trivial
  · next i dmaIsr hisr =>
    rw [hisr] at h
    split
    · next hlt =>
      split
      · next hbit =>
        refine ⟨?_, h⟩
        rcases Nat.eq_zero_or_pos i with hi | hi
        · exact hi
        · rw [h i hi hlt] at hbit
          exact Bool.noConfusion hbit
      · exact h
    · trivial
  · next i dmaIsr v hisr =>
    rw [hisr] at h
    rw [if_pos h.1]
    refine ⟨h.2, fun hv d => ?_⟩
    rw [if_pos hv]
    exact s.willLook_schedule d
  · next i dmaIsr v hisr =>
    rw [hisr] at h
    exact h.1

theorem Interrupts.InTurn.step (h : s.InTurn) {act : IntrAct}
    (hok : s.Alone act) : (s.step act).InTurn := by
  cases act with
  | completed d => exact h.congr rfl fun hl => hl
  | event i bits => exact h.congr rfl fun hl => hl
  | irq dmaIsr =>
    unfold Interrupts.step
    dsimp only
    split
    · exact hok
    · exact h
  | isr => exact h.isrStep
  | timer => exact h.congr s.schedule_isr fun _ d => s.willLook_schedule d
  | poll limited count =>
    have hisr : (s.pollStep limited count).isr = s.isr := by
      unfold Interrupts.pollStep
      split
      · rfl
      · rfl
      · split
        · rfl
        · rfl
      · split
        · rfl
        · rfl
    show (s.pollStep limited count).InTurn
    unfold Interrupts.InTurn at h ⊢
    rw [hisr]
    cases hs : s.isr with
    | ack i dmaIsr v => exact absurd hs (hok.2 i dmaIsr v)
    | _ =>
      rw [hs] at h
      exact h

/-- In its turn, the handler acknowledges what the poll will look at. -/
theorem Interrupts.InTurn.stepOk (h : s.InTurn)
    (hlim : s.poll ≠ .rx true) (act : IntrAct) : s.StepOk act := by
  cases act with
  | isr =>
    unfold Interrupts.StepOk
    unfold Interrupts.InTurn at h
    cases hisr : s.isr with
    | ack i dmaIsr v =>
      rw [hisr] at h
      exact fun d _ hv => h.2 (tiOrRi_of_bit d hv) d
    | _ => trivial
  | poll limited count => exact fun hrx => absurd hrx hlim
  | _ => trivial

theorem Interrupts.unlimited_step (h : s.poll ≠ .rx true) {act : IntrAct}
    (hok : s.Alone act) : (s.step act).poll ≠ .rx true := by
  have hsched : s.schedule.poll ≠ .rx true := by
    unfold Interrupts.schedule
    split
    · exact AllPollPc.noConfusion
    · exact h
  cases act with
  | completed d => exact h
  | event i bits => exact h
  | irq dmaIsr =>
    unfold Interrupts.step
    dsimp only
    split
    · exact h
    · exact h
  | timer => exact hsched
  | isr =>
    show s.isrStep.poll ≠ .rx true
    unfold Interrupts.isrStep
    split
    · exact h
    · split
      · split
        · exact h
        · exact h
      · exact h
    · split
      · dsimp only
        split
        · exact hsched
        · exact h
      · exact h
    · exact h
  | poll limited count =>
    show (s.pollStep limited count).poll ≠ .rx true
    unfold Interrupts.pollStep
    split
    · exact h
    · rw [hok.1]
      intro hrx
      injection hrx with hlim
      exact Bool.noConfusion hlim
    · split
      · exact AllPollPc.noConfusion
      · exact AllPollPc.noConfusion
    · split
      · exact AllPollPc.noConfusion
      · exact AllPollPc.noConfusion

end Alone

/-- With channel 0 alone, and no poll between its turn and the
acknowledgement, nothing is ever uncovered: what the handler acknowledges
the poll has been told of. -/
theorem covered_of_alone (acts : List IntrAct)
    (halone : Run.Each Interrupts.step Interrupts.Alone .started acts) :
    Run.Always Interrupts.step Interrupts.Covered .started acts := by
  have hstart : Interrupts.started.Covered ∧ Interrupts.started.InTurn
      ∧ Interrupts.started.poll ≠ .rx true :=
    ⟨fun _ hd => Bool.noConfusion hd, trivial, AllPollPc.noConfusion⟩
  refine (Run.Each.always (I := fun s => s.Covered ∧ s.InTurn
    ∧ s.poll ≠ .rx true) ?_ hstart halone).mono fun _ h => h.1
  intro s act h hok
  obtain ⟨hcov, hturn, hlim⟩ := h
  exact ⟨(hcov.step_iff act).2 (hturn.stepOk hlim act), hturn.step hok,
    Interrupts.unlimited_step hlim hok⟩

/-- A packet comes in, is acknowledged and looked at. -/
theorem covered_of_alone_one :
    Run.Always Interrupts.step Interrupts.Covered .started
      [.completed .rx, .irq 1, .isr, .isr, .isr, .poll false 0,
        .poll false 0, .poll false 0] := by
  refine covered_of_alone _ ?_
  have hone : ∀ i, 0 < i → i < isrChannels →
      (1 : U32).getLsbD i = false := by
    intro i hpos hlt
    have hall : ∀ i : Fin 7, 0 < i.val →
        (1 : U32).getLsbD i.val = false := by decide
    exact hall ⟨i, hlt⟩ hpos
  refine ⟨trivial, hone, trivial, trivial, trivial, ⟨rfl, ?_⟩, ⟨rfl, ?_⟩,
    ⟨rfl, ?_⟩, trivial⟩
  · intro i dmaIsr v
    exact IsrPc.noConfusion
  · intro i dmaIsr v
    exact IsrPc.noConfusion
  · intro i dmaIsr v
    exact IsrPc.noConfusion

-- ================================================================ what is lost

/-- A completion in `d` that nobody will look at: its interrupt is down,
the handler has nothing of channel 0 in hand, and the poll is not
scheduled. -/
structure Interrupts.Lost (s : Interrupts) (d : Dir) : Prop where
  unseen : s.unseen d = true
  down : tiOrRi (s.sr 0) = false
  idle : s.poll = .idle
  nothing : ¬ s.WillSchedule

/-- Neither the NIC raises `TI` or `RI` of channel 0 nor the transmit
timer runs out. -/
def IntrAct.Silent : IntrAct → Prop
  | .completed _ => False
  | .event i bits => i = 0 → tiOrRi bits = false
  | .timer => False
  | _ => True

theorem tiOrRi_or (x y : U32) : tiOrRi (x ||| y) = (tiOrRi x || tiOrRi y) := by
  unfold tiOrRi
  rw [BitVec.getLsbD_or, BitVec.getLsbD_or]
  ac_rfl

theorem tiOrRi_and_false {x : U32} (h : tiOrRi x = false) (y : U32) :
    tiOrRi (x &&& y) = false := by
  unfold tiOrRi at h ⊢
  rw [Bool.or_eq_false_iff] at h ⊢
  rw [BitVec.getLsbD_and, BitVec.getLsbD_and, h.1, h.2]
  exact ⟨rfl, rfl⟩

theorem Interrupts.Lost.step {s : Interrupts} {d : Dir} (h : s.Lost d)
    {act : IntrAct} (hact : act.Silent) : (s.step act).Lost d := by
  cases act with
  | completed d' => exact hact.elim
  | timer => exact hact.elim
  | event i bits =>
    refine ⟨h.unseen, ?_, h.idle, h.nothing⟩
    show tiOrRi (s.sr.raise i bits 0) = false
    rcases eq_or_ne i 0 with rfl | hne
    · rw [StatusRegs.raise_same, tiOrRi_or, h.down, hact rfl]
      rfl
    · rw [s.sr.raise_other (Ne.symm hne)]
      exact h.down
  | irq dmaIsr =>
    unfold Interrupts.step
    dsimp only
    split
    · exact ⟨h.unseen, h.down, h.idle, fun hf => hf⟩
    · exact h
  | isr =>
    show s.isrStep.Lost d
    unfold Interrupts.isrStep
    split
    · exact h
    · split
      · split
        · -- what is read of channel 0 has neither bit
          refine ⟨h.unseen, h.down, h.idle, ?_⟩
          rintro ⟨rfl, hw⟩
          rw [h.down] at hw
          exact Bool.noConfusion hw
        · exact ⟨h.unseen, h.down, h.idle, fun hf => hf⟩
      · exact ⟨h.unseen, h.down, h.idle, fun hf => hf⟩
    · next i dmaIsr v hisr =>
      split
      · next hi =>
        have hv : ¬ tiOrRi v = true := by
          intro hv
          apply h.nothing
          unfold Interrupts.WillSchedule
          rw [hisr]
          exact ⟨hi, hv⟩
        rw [if_neg hv]
        exact ⟨h.unseen, h.down, h.idle, fun hf => hf⟩
      · next hi =>
        refine ⟨h.unseen, ?_, h.idle, fun hf => hf⟩
        show tiOrRi (s.sr.write i v 0) = false
        rw [s.sr.write_other (Ne.symm hi)]
        exact h.down
    · refine ⟨h.unseen, ?_, h.idle, fun hf => hf⟩
      show tiOrRi (s.sr.write 0 _ 0) = false
      rw [StatusRegs.write_same]
      exact tiOrRi_and_false h.down _
  | poll limited count =>
    have hstay : s.pollStep limited count = s := by
      unfold Interrupts.pollStep
      rw [h.idle]
    show (s.pollStep limited count).Lost d
    rw [hstay]
    exact h

/-- A lost completion stays in its ring, however often the handler is
called and whatever the other channels do, until channel 0 raises its
interrupt again or the transmit timer runs out. -/
theorem lost_stays {s : Interrupts} {d : Dir} (h : s.Lost d)
    {acts : List IntrAct} (hsilent : ∀ act ∈ acts, act.Silent) :
    Run.Always Interrupts.step (fun s => s.unseen d = true) s acts :=
  (Run.Each.always (I := fun s => s.Lost d)
    (fun _ _ hlost hact => hlost.step hact) h
    (Run.each_of_forall_mem hsilent s)).mono fun _ hl => hl.unseen

/-- After the run above, another interrupt of the last channel does not
help. -/
theorem lost_stays_last :
    Run.Always Interrupts.step (fun s => s.unseen .rx = true)
      { Interrupts.started with unseen := fun _ => true }
      [.event 6 0x40, .irq 0x40, .isr] := by
  refine lost_stays (d := .rx) ⟨rfl, rfl, rfl, ?_⟩ ?_
  · exact fun hf => hf
  · intro act hact
    simp only [List.mem_cons, List.not_mem_nil, or_false] at hact
    rcases hact with rfl | rfl | rfl
    · exact fun hzero => absurd hzero (Nat.succ_ne_zero 5)
    · trivial
    · trivial

end BxRnic.Mac
