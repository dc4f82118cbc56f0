/-
The two drivers stay in step exactly if adapters come and go while the
RoCE driver is not loaded, and its notifier and its ioctl are left alone
by the rest of the machine.

While it is loaded, each adapter has the device that stands in the same
place of `dev_list` (`Linked`). A device is made for the adapters that are
there when the driver is loaded, so a later one never has any; and the
driver is unloaded through the devices of all of them.
-/
import Mathlib.Data.List.Nodup
import BxRnic.Kernel.RoceDriver

namespace BxRnic.Kernel.RoceDrivers

-- ============================================================== in step

/-- The devices of the adapters are those of `dev_list`, in order. -/
structure Linked (as : List Adapter) (r : RoceDrivers) : Prop where
  fine : r.broken = false
  listed : as.map Adapter.rocedev = r.devList.map some
  own : ∀ a ∈ as, ∀ dev, a.rocedev = some dev → r.devs dev = some a.id
  nodup : r.devList.Nodup
  below : ∀ dev ∈ r.devList, dev < r.nextDev

/-- The two drivers are in step. -/
structure Sound (r : RoceDrivers) : Prop where
  fine : r.broken = false
  loaded : r.loaded = true → Linked r.adapters r
  unloaded : r.loaded = false →
    r.devList = [] ∧ ∀ a ∈ r.adapters, a.rocedev = none

/-- Nothing goes wrong in a step. -/
def StepOk (r : RoceDrivers) : RoceAct → Prop
  | .probe => r.loaded = false
  | .remove id => r.loaded = false ∨ r.hasAdapter id = false
  | .load answer =>
      r.loaded = true ∨ ∀ a ∈ r.adapters, answer a.id = .added
  | .unload => True
  | .ioctl => r.loaded = true → r.adapters ≠ []
  | .inetaddrUp id =>
      r.loaded = true → ∃ i, id = some i ∧ r.hasAdapter i = true

namespace Linked

variable {as : List Adapter} {r : RoceDrivers}

/-- An adapter has a device. -/
theorem device (h : Linked as r) {a : Adapter} (ha : a ∈ as) :
    ∃ dev ∈ r.devList, a.rocedev = some dev ∧ r.devs dev = some a.id := by
  have hmem : a.rocedev ∈ r.devList.map some := by
    rw [← h.listed]
    exact List.mem_map_of_mem ha
  obtain ⟨dev, hdev, heq⟩ := List.mem_map.1 hmem
  exact ⟨dev, hdev, heq.symm, h.own a ha dev heq.symm⟩

/-- What is on `dev_list` is a device. -/
theorem not_gone (h : Linked as r) {dev : Nat} (hdev : dev ∈ r.devList) :
    r.gone dev = false := by
  have hmem : some dev ∈ as.map Adapter.rocedev := by
    rw [h.listed]
    exact List.mem_map_of_mem hdev
  obtain ⟨a, ha, heq⟩ := List.mem_map.1 hmem
  unfold gone
  rw [h.own a ha dev heq]
  rfl

theorem length (h : Linked as r) : as.length = r.devList.length := by
  have := congrArg List.length h.listed
  rw [List.length_map, List.length_map] at this
  exact this

/-- A device is added for one more adapter. -/
theorem bxAdd (h : Linked as r) (a : Adapter) :
    Linked (as ++ [{ a with rocedev := (r.bxAdd a.id .added).1 }])
      (r.bxAdd a.id .added).2 := by
  have hnew : r.nextDev ∉ r.devList := by
    intro hmem
    exact Nat.lt_irrefl _ (h.below _ hmem)
  have hlast : (r.devList.getLast?.map r.gone).getD false = false := by
    cases hget : r.devList.getLast? with
    | none => rfl
    | some dev => exact h.not_gone (List.mem_of_getLast? hget)
  constructor
  · show (r.broken || (r.devList.getLast?.map r.gone).getD false) = false
    rw [h.fine, hlast]
    rfl
  · show (as ++ [_]).map Adapter.rocedev = (r.devList ++ [_]).map some
    rw [List.map_append, List.map_append, h.listed]
    rfl
  · intro b hb dev hdev
    show Function.update r.devs r.nextDev (some a.id) dev = some b.id
    rcases List.mem_append.1 hb with hold | hlast'
    · obtain ⟨dev', hdev', heq, hown⟩ := h.device hold
      rw [heq] at hdev
      injection hdev with hsame
      rw [← hsame, Function.update_of_ne (Nat.ne_of_lt (h.below _ hdev'))]
      exact hown
    · rw [List.mem_singleton.1 hlast'] at hdev ⊢
      injection hdev with hsame
      rw [← hsame, Function.update_self]
  · show (r.devList ++ [r.nextDev]).Nodup
    apply h.nodup.append (List.nodup_singleton _)
    intro dev hdev hdev'
    rw [List.mem_singleton.1 hdev'] at hdev
    exact hnew hdev
  · intro dev hdev
    show dev < r.nextDev + 1
    rcases List.mem_append.1 hdev with hold | hlast'
    · have := h.below dev hold
      omega
    · rw [List.mem_singleton.1 hlast']
      exact Nat.lt_succ_self _

/-- The loop of the load, where each device can be made. -/
theorem registerDriver {answer : Nat → AddAnswer} :
    ∀ {todo as : List Adapter} {r : RoceDrivers}, Linked as r →
      (∀ a ∈ todo, answer a.id = .added) →
      Linked (as ++ (registerDriver answer todo r).1)
        (registerDriver answer todo r).2
  | [], as, r, h, _ => by
      show Linked (as ++ []) r
      rw [List.append_nil]
      exact h
  | a :: todo, as, r, h, hadded => by
      have hhead := hadded a List.mem_cons_self
      have hrest := registerDriver (h.bxAdd a)
        (fun b hb => hadded b (List.mem_cons_of_mem a hb))
      rw [List.append_assoc] at hrest
      unfold RoceDrivers.registerDriver
      rw [hhead]
      exact hrest

end Linked

/-- An adapter whose device cannot be made has none. -/
theorem registerDriver_none {answer : Nat → AddAnswer} {a : Adapter} :
    ∀ {todo : List Adapter} {r : RoceDrivers}, a ∈ todo →
      answer a.id ≠ .added →
      ∃ b ∈ (registerDriver answer todo r).1, b.rocedev = none
  | b :: todo, r, ha, hnot => by
      unfold registerDriver
      rcases List.mem_cons.1 ha with rfl | hmem
      · refine ⟨_, List.mem_cons_self, ?_⟩
        cases hanswer : answer a.id with
        | notListed => rfl
        | failed => rfl
        | added => exact absurd hanswer hnot
      · obtain ⟨c, hc, hnone⟩ :=
          registerDriver_none (r := (r.bxAdd b.id (answer b.id)).2) hmem hnot
        exact ⟨c, List.mem_cons_of_mem _ hc, hnone⟩

-- ================================================================ unload

theorem beside_subset {dev x : Nat} :
    ∀ {l : List Nat}, x ∈ beside dev l → x ∈ l
  | [], h => h
  | [_], h => by cases h
  | a :: b :: rest, h => by
      unfold beside at h
      rcases List.mem_append.1 h with hhere | hrest
      · split at hhere
        · rw [List.mem_singleton.1 hhere]
          exact List.mem_cons_of_mem a List.mem_cons_self
        · split at hhere
          · rw [List.mem_singleton.1 hhere]
            exact List.mem_cons_self
          · cases hhere
      · exact List.mem_cons_of_mem a (beside_subset hrest)

/-- The device of the first adapter is removed. -/
theorem Linked.bxRemove {a : Adapter} {as : List Adapter} {r : RoceDrivers}
    (h : Linked (a :: as) r) : Linked as (r.bxRemove a.rocedev) := by
  obtain ⟨dev, hdev, hrocedev, -⟩ := h.device List.mem_cons_self
  have hlisted := h.listed
  have hnodup := h.nodup
  obtain ⟨rest, hlist⟩ : ∃ rest, r.devList = dev :: rest := by
    rw [List.map_cons, hrocedev] at hlisted
    cases hlist : r.devList with
    | nil =>
      rw [hlist] at hdev
      cases hdev
    | cons dev' rest =>
      rw [hlist, List.map_cons] at hlisted
      injection hlisted with hsame _
      injection hsame with hsame
      exact ⟨rest, by rw [hsame]⟩
  rw [hlist, List.map_cons, List.map_cons] at hlisted
  rw [hlist] at hnodup
  have hrest : as.map Adapter.rocedev = rest.map some := by
    injection hlisted
  have hfine : (beside dev r.devList).any r.gone = false := by
    rw [List.any_eq_false]
    intro x hx hgone
    rw [h.not_gone (beside_subset hx)] at hgone
    cases hgone
  have herase : r.devList.erase dev = rest := by
    rw [hlist, List.erase_cons_head]
  have hremove : r.bxRemove a.rocedev
      = { r.listDel dev with devs := Function.update r.devs dev none } := by
    unfold RoceDrivers.bxRemove
    rw [hrocedev]
    dsimp only
    rw [h.not_gone hdev, if_neg Bool.false_ne_true]
  rw [hremove]
  constructor
  · show (r.broken || (beside dev r.devList).any r.gone) = false
    rw [h.fine, hfine]
    rfl
  · show as.map Adapter.rocedev = (r.devList.erase dev).map some
    rw [herase]
    exact hrest
  · intro b hb dev' hdev'
    show Function.update r.devs dev none dev' = some b.id
    have hmem : some dev' ∈ rest.map some := by
      rw [← hrest, ← hdev']
      exact List.mem_map_of_mem hb
    obtain ⟨dev'', hdev'', heq⟩ := List.mem_map.1 hmem
    injection heq with heq
    rw [heq] at hdev''
    have hne : dev' ≠ dev := by
      intro hsame
      rw [hsame] at hdev''
      exact (List.nodup_cons.1 hnodup).1 hdev''
    rw [Function.update_of_ne hne]
    exact h.own b (List.mem_cons_of_mem a hb) dev' hdev'
  · show (r.devList.erase dev).Nodup
    rw [herase]
    exact (List.nodup_cons.1 hnodup).2
  · intro dev' hdev'
    have hdev'' : dev' ∈ r.devList.erase dev := hdev'
    exact h.below dev' (List.mem_of_mem_erase hdev'')

/-- The loop of the unload. -/
theorem Linked.unregisterDriver :
    ∀ {as : List Adapter} {r : RoceDrivers}, Linked as r →
      (unregisterDriver as r).broken = false
        ∧ (unregisterDriver as r).devList = []
  | [], r, h => by
      refine ⟨h.fine, ?_⟩
      have := h.listed
      exact List.map_eq_nil_iff.1 this.symm
  | _ :: _, _, h => h.bxRemove.unregisterDriver

-- ================================================================= steps

section Steps

variable {r : RoceDrivers}

theorem sound_probe (h : r.Sound) : r.probe.Sound ↔ r.loaded = false := by
  constructor
  · intro hsound
    cases hloaded : r.loaded with
    | false => rfl
    | true =>
      -- the adapter has no device, and the others have theirs
      have hold := (h.loaded hloaded).length
      have hnew := (hsound.loaded hloaded).length
      have hlength : (r.adapters
          ++ ([⟨r.nextAdapter, none⟩] : List Adapter)).length
          = r.devList.length := hnew
      rw [List.length_append, hold] at hlength
      exact absurd hlength (Nat.succ_ne_self _)
  · intro hloaded
    obtain ⟨hlist, hnone⟩ := h.unloaded hloaded
    constructor
    · exact h.fine
    · intro hload
      have hload' : r.loaded = true := hload
      rw [hloaded] at hload'
      cases hload'
    · intro _
      refine ⟨hlist, ?_⟩
      intro a ha
      rcases List.mem_append.1 ha with hold | hnew
      · exact hnone a hold
      · rw [List.mem_singleton.1 hnew]

theorem sound_remove (h : r.Sound) (id : Nat) :
    (r.remove id).Sound ↔ r.loaded = false ∨ r.hasAdapter id = false := by
  constructor
  · intro hsound
    cases hloaded : r.loaded with
    | false => exact Or.inl rfl
    | true =>
      right
      have hold := (h.loaded hloaded).length
      have hnew := (hsound.loaded hloaded).length
      have hlength : (r.adapters.filter fun a => a.id ≠ id).length
          = r.devList.length := hnew
      rw [← hold, List.length_filter_eq_length_iff] at hlength
      unfold hasAdapter
      rw [List.any_eq_false]
      intro a ha heq
      have hne := hlength a ha
      simp only [ne_eq, decide_not, Bool.not_eq_true',
        decide_eq_false_iff_not] at hne
      exact hne (of_decide_eq_true heq)
  · rintro (hloaded | hnot)
    · obtain ⟨hlist, hnone⟩ := h.unloaded hloaded
      constructor
      · exact h.fine
      · intro hload
        have hload' : r.loaded = true := hload
        rw [hloaded] at hload'
        cases hload'
      · intro _
        refine ⟨hlist, ?_⟩
        intro a ha
        exact hnone a (List.mem_of_mem_filter ha)
    · have hsame : r.remove id = r := by
        unfold remove
        have hall : (r.adapters.filter fun a => a.id ≠ id) = r.adapters := by
          apply List.filter_eq_self.2
          intro a ha
          unfold hasAdapter at hnot
          have hne := List.any_eq_false.1 hnot a ha
          simpa using hne
        rw [hall]
      rw [hsame]
      exact h

theorem sound_load (h : r.Sound) (hloaded : r.loaded = false)
    (answer : Nat → AddAnswer) :
    (r.load answer).Sound ↔ ∀ a ∈ r.adapters, answer a.id = .added := by
  obtain ⟨hlist, -⟩ := h.unloaded hloaded
  constructor
  · intro hsound a ha
    have hlinked := hsound.loaded rfl
    by_cases hadded : answer a.id = .added
    · exact hadded
    · obtain ⟨b, hb, hnone⟩ := registerDriver_none (r := r) ha hadded
      obtain ⟨dev, -, hdev, -⟩ := hlinked.device hb
      rw [hnone] at hdev
      cases hdev
  · intro hadded
    have hstart : Linked [] r := by
      constructor
      · exact h.fine
      · rw [hlist]
        rfl
      · intro a ha
        cases ha
      · rw [hlist]
        exact List.nodup_nil
      · intro dev hdev
        rw [hlist] at hdev
        cases hdev
    have hlinked := hstart.registerDriver hadded
    rw [List.nil_append] at hlinked
    constructor
    · exact hlinked.fine
    · intro _
      exact ⟨hlinked.fine, hlinked.listed, hlinked.own, hlinked.nodup,
        hlinked.below⟩
    · intro hnot
      cases hnot

theorem sound_unload (h : r.Sound) (hloaded : r.loaded = true) :
    r.unload.Sound := by
  obtain ⟨hfine, hlist⟩ := (h.loaded hloaded).unregisterDriver
  constructor
  · exact hfine
  · intro hload
    cases hload
  · intro _
    refine ⟨hlist, ?_⟩
    intro a ha
    obtain ⟨b, -, heq⟩ := List.mem_map.1 ha
    rw [← heq]

/-- A pointer has led nowhere. -/
theorem not_sound (hbroken : r.broken = true) : ¬ r.Sound := by
  intro hsound
  rw [hsound.fine] at hbroken
  cases hbroken

theorem hasAdapter_of_mem {a : Adapter} (ha : a ∈ r.adapters) :
    r.hasAdapter a.id = true := by
  unfold hasAdapter
  rw [List.any_eq_true]
  exact ⟨a, ha, decide_eq_true rfl⟩

theorem sound_ioctl (h : r.Sound) (hloaded : r.loaded = true) :
    r.ioctl.Sound ↔ r.adapters ≠ [] := by
  have hlinked := h.loaded hloaded
  have hlisted := hlinked.listed
  unfold ioctl
  cases has : r.adapters with
  | nil =>
    rw [has] at hlisted
    have hempty : r.devList = [] := List.map_eq_nil_iff.1 hlisted.symm
    have hhead : r.devList.head?.bind r.devs = none := by
      rw [hempty]
      rfl
    constructor
    · intro hsound
      split at hsound
      · exact absurd hsound (not_sound rfl)
      · next hsome =>
        rw [hhead] at hsome
        cases hsome
    · intro hne
      exact absurd rfl hne
  | cons a as =>
    have ha : a ∈ r.adapters := by
      rw [has]
      exact List.mem_cons_self
    obtain ⟨dev, -, hdev, hown⟩ := hlinked.device ha
    have hhead : r.devList.head? = some dev := by
      rw [has, List.map_cons, hdev] at hlisted
      cases hlist : r.devList with
      | nil =>
        rw [hlist] at hlisted
        cases hlisted
      | cons dev' rest =>
        rw [hlist, List.map_cons] at hlisted
        injection hlisted with hsame _
        exact hsame.symm
    rw [hhead, Option.bind_some, hown]
    dsimp only
    rw [hasAdapter_of_mem ha, if_pos rfl]
    exact ⟨fun _ hnil => (by cases hnil), fun _ => h⟩

theorem sound_inetaddrUp (h : r.Sound) (hloaded : r.loaded = true)
    (id : Option Nat) :
    (r.inetaddrUp id).Sound
      ↔ ∃ i, id = some i ∧ r.hasAdapter i = true := by
  have hlinked := h.loaded hloaded
  cases id with
  | none =>
    constructor
    · intro hsound
      exact absurd hsound (not_sound rfl)
    · intro hex
      obtain ⟨i, hid, -⟩ := hex
      cases hid
  | some i =>
    unfold inetaddrUp
    dsimp only
    cases hfind : r.adapters.find? fun a => a.id = i with
    | none =>
      constructor
      · intro hsound
        exact absurd hsound (not_sound rfl)
      · intro hex
        obtain ⟨j, hid, hhas⟩ := hex
        injection hid with hid
        rw [← hid] at hhas
        unfold hasAdapter at hhas
        obtain ⟨a, ha, heq⟩ := List.any_eq_true.1 hhas
        exact absurd heq (List.find?_eq_none.1 hfind a ha)
    | some a =>
      have ha : a ∈ r.adapters := List.mem_of_find?_eq_some hfind
      have hpass := List.find?_some hfind
      have hid : a.id = i := of_decide_eq_true hpass
      obtain ⟨dev, hmem, hdev, -⟩ := hlinked.device ha
      rw [Option.bind_some, hdev]
      dsimp only
      rw [hlinked.not_gone hmem, if_neg Bool.false_ne_true]
      refine ⟨fun _ => ⟨i, rfl, ?_⟩, fun _ => h⟩
      rw [← hid]
      exact hasAdapter_of_mem ha

/-- A step leaves the drivers in step exactly if nothing goes wrong in
it. -/
theorem sound_step (r : RoceDrivers) (a : RoceAct) (h : r.Sound) :
    (r.step a).Sound ↔ r.StepOk a := by
  have hfine := h.fine
  cases a with
  | probe =>
    unfold step StepOk
    dsimp only
    rw [hfine, if_neg Bool.false_ne_true]
    exact sound_probe h
  | remove id =>
    unfold step StepOk
    dsimp only
    rw [hfine, if_neg Bool.false_ne_true]
    exact sound_remove h id
  | load answer =>
    unfold step StepOk
    dsimp only
    rw [hfine, Bool.false_or]
    cases hloaded : r.loaded with
    | true =>
      rw [if_pos rfl]
      exact ⟨fun _ => Or.inl rfl, fun _ => h⟩
    | false =>
      rw [if_neg Bool.false_ne_true, sound_load h hloaded]
      constructor
      · intro hadded
        exact Or.inr hadded
      · intro hor
        exact hor.resolve_left Bool.false_ne_true
  | unload =>
    unfold step StepOk
    dsimp only
    rw [hfine, Bool.false_or]
    refine iff_of_true ?_ trivial
    cases hloaded : r.loaded with
    | true => exact sound_unload h hloaded
    | false => exact h
  | ioctl =>
    unfold step StepOk
    dsimp only
    rw [hfine, Bool.false_or]
    cases hloaded : r.loaded with
    | true =>
      rw [Bool.not_true, if_neg Bool.false_ne_true,
        sound_ioctl h hloaded]
      exact ⟨fun hne _ => hne, fun himp => himp rfl⟩
    | false => exact ⟨fun _ hload => (by cases hload), fun _ => h⟩
  | inetaddrUp id =>
    unfold step StepOk
    dsimp only
    rw [hfine, Bool.false_or]
    cases hloaded : r.loaded with
    | true =>
      rw [Bool.not_true, if_neg Bool.false_ne_true,
        sound_inetaddrUp h hloaded]
      exact ⟨fun hex _ => hex, fun himp => himp rfl⟩
    | false => exact ⟨fun _ hload => (by cases hload), fun _ => h⟩

end Steps

-- ================================================================== runs

/-- Once broken, for good. -/
theorem broken_unregisterDriver :
    ∀ {as : List Adapter} {r : RoceDrivers}, r.broken = true →
      (unregisterDriver as r).broken = true
  | [], _, h => h
  | a :: as, r, h => by
      show (unregisterDriver as (r.bxRemove a.rocedev)).broken = true
      apply broken_unregisterDriver
      unfold bxRemove
      split
      · rfl
      · split
        · rfl
        · show (r.broken || _) = true
          rw [h]
          rfl

/-- The RoCE driver is loaded, and the adapter has no device. -/
def Stranded (id : Nat) (r : RoceDrivers) : Prop :=
  r.broken = true
    ∨ r.loaded = true ∧ ∃ a ∈ r.adapters, a.id = id ∧ a.rocedev = none

/-- Neither the driver goes nor the adapter. -/
def Stays (id : Nat) : RoceAct → Prop
  | .unload => False
  | .remove id' => id' ≠ id
  | _ => True

theorem stranded_step {id : Nat} (r : RoceDrivers) (a : RoceAct)
    (h : Stranded id r) (ha : Stays id a) : Stranded id (r.step a) := by
  rcases h with hbroken | ⟨hloaded, b, hb, hid, hnone⟩
  · left
    have hsame : r.step a = r := by
      unfold step
      rw [hbroken]
      cases a with
      | _ => rfl
    rw [hsame]
    exact hbroken
  · cases hbroken : r.broken with
    | true =>
      left
      have hsame : r.step a = r := by
        unfold step
        rw [hbroken]
        cases a with
        | _ => rfl
      rw [hsame]
      exact hbroken
    | false =>
      unfold step
      cases a with
      | probe =>
        dsimp only
        rw [hbroken]
        exact Or.inr ⟨hloaded, b, List.mem_append_left _ hb, hid, hnone⟩
      | remove id' =>
        dsimp only
        rw [hbroken]
        refine Or.inr ⟨hloaded, b, ?_, hid, hnone⟩
        apply List.mem_filter.2 ⟨hb, _⟩
        rw [hid]
        exact decide_eq_true fun heq => ha heq.symm
      | load answer =>
        dsimp only
        rw [hloaded, Bool.or_true, if_pos rfl]
        exact Or.inr ⟨hloaded, b, hb, hid, hnone⟩
      | unload => exact absurd ha not_false
      | ioctl =>
        dsimp only
        rw [hbroken, hloaded]
        show Stranded id r.ioctl
        unfold ioctl
        split
        · exact Or.inl rfl
        · split
          · exact Or.inr ⟨hloaded, b, hb, hid, hnone⟩
          · exact Or.inl rfl
      | inetaddrUp id' =>
        dsimp only
        rw [hbroken, hloaded]
        show Stranded id (r.inetaddrUp id')
        unfold inetaddrUp
        split
        · exact Or.inl rfl
        · split
          · exact Or.inl rfl
          · split
            · exact Or.inl rfl
            · exact Or.inr ⟨hloaded, b, hb, hid, hnone⟩

/-- The loop of `bx_roce_unregister_driver`, cut in two. -/
theorem unregisterDriver_append (l l' : List Adapter) (r : RoceDrivers) :
    unregisterDriver (l ++ l') r
      = unregisterDriver l' (unregisterDriver l r) := by
  induction l generalizing r with
  | nil => rfl
  | cons a l ih => exact ih _

/-- The adapter is there and has no device, and the loop that unloads the
driver gets to `bx_remove` of none with it. -/
def Unserved (id : Nat) (r : RoceDrivers) : Prop :=
  ∃ before a after, r.adapters = before ++ a :: after ∧ a.id = id
    ∧ a.rocedev = none
    ∧ unregisterDriver r.adapters r
      = unregisterDriver after ((unregisterDriver before r).bxRemove none)

theorem Stranded.unserved {id : Nat} {r : RoceDrivers} (h : Stranded id r)
    (hgood : r.broken = false) : Unserved id r := by
  rcases h with hbroken | ⟨-, a, ha, hid, hnone⟩
  · rw [hgood] at hbroken
    exact Bool.noConfusion hbroken
  · obtain ⟨before, after, hsplit⟩ := List.append_of_mem ha
    refine ⟨before, a, after, hsplit, hid, hnone, ?_⟩
    rw [hsplit, unregisterDriver_append, unregisterDriver, hnone]

theorem Unserved.breaks {id : Nat} {r : RoceDrivers} (h : Unserved id r) :
    (unregisterDriver r.adapters r).broken = true := by
  obtain ⟨before, a, after, -, -, -, hloop⟩ := h
  rw [hloop]
  exact broken_unregisterDriver rfl

open Run in
/-- An adapter that comes while the RoCE driver is loaded never gets a
device, as long as nothing else breaks the kernel, and unloading the
driver does, at the `bx_remove` of none that the adapter's turn is. -/
theorem late_adapter_breaks {r : RoceDrivers} (hloaded : r.loaded = true)
    {acts : List RoceAct} (hacts : ∀ a ∈ acts, Stays r.nextAdapter a) :
    Always step (fun s => s.broken = false → Unserved r.nextAdapter s)
        (r.step .probe) acts
      ∧ ((exec step (r.step .probe) acts).step .unload).broken = true := by
  have hprobe : Stranded r.nextAdapter (r.step .probe) := by
    unfold step
    dsimp only
    cases hbroken : r.broken with
    | true => exact Or.inl hbroken
    | false =>
      refine Or.inr ⟨hloaded, ⟨r.nextAdapter, none⟩, ?_, rfl, rfl⟩
      exact List.mem_append_right _ List.mem_cons_self
  have hruns : Always step (Stranded r.nextAdapter) (r.step .probe) acts :=
    (each_of_forall_mem hacts _).always stranded_step hprobe
  refine ⟨hruns.mono fun s h hgood => h.unserved hgood, ?_⟩
  have hlast := hruns.last
  generalize exec step (r.step .probe) acts = t at hlast ⊢
  unfold step
  dsimp only
  cases hbroken : t.broken with
  | true => exact hbroken
  | false =>
    have hloaded' : t.loaded = true := by
      rcases hlast with hbad | ⟨hloaded', -⟩
      · rw [hbroken] at hbad
        cases hbad
      · exact hloaded'
    rw [hloaded']
    exact (hlast.unserved hbroken).breaks

/-- The RoCE driver is loaded for one adapter, and another one is plugged
in. Nothing breaks before the driver is unloaded. -/
theorem late_adapter_breaks_second :
    let r := Run.exec step start [.probe, .load fun _ => .added]
    (Run.exec step (r.step .probe) [.ioctl]).broken = false
      ∧ Unserved r.nextAdapter (Run.exec step (r.step .probe) [.ioctl])
      ∧ ((Run.exec step (r.step .probe) [.ioctl]).step .unload).broken
        = true := by
  intro r
  have hgood : (Run.exec step (r.step .probe) [.ioctl]).broken = false := by
    decide
  have hstays : ∀ a ∈ [RoceAct.ioctl], Stays r.nextAdapter a := by
    intro a ha
    rw [List.mem_singleton.1 ha]
    trivial
  obtain ⟨halways, hbreaks⟩ :=
    late_adapter_breaks (r := r) (by decide) hstays
  exact ⟨hgood, halways.last hgood, hbreaks⟩

end BxRnic.Kernel.RoceDrivers
