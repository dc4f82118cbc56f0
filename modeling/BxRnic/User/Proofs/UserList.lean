/-
The links of `dev->mr_list` are the list that the calls are about, over
every run of registrations and deregistrations, and the search finds in
memory what it finds in the list.

A registration links its element under the lock of the device, and a
deregistration takes its own out without. Their stores can come in any
order then. That is harmless exactly if the element that goes is not the
last one, which is the one the new element is linked behind.
-/
import BxRnic.User.Proofs.DeregMr
import BxRnic.User.UserList

namespace BxRnic.User

open LinkedList Window

variable {links : Links} {head : Nat} {xs : List Nat}

/-- The list lies in memory. -/
def Links.Holds (links : Links) (head : Nat) (xs : List Nat) : Prop :=
  Circular links.nextOf links.prevOf head xs

-- ================================================================ list.h

/-- What `userlist_add_tail` leaves. -/
theorem addTail_exec (links : Links) (new head : Nat) :
    (userlistAddTail new head).exec links
      = Function.update (Function.update (Function.update
          (Function.update links (head, .prev) new) (new, .next) head)
          (new, .prev) (links.prevOf head))
        (links.prevOf head, .next) new := rfl

/-- What `userlist_del` leaves. -/
theorem del_exec (links : Links) (entry : Nat) :
    (userlistDel entry).exec links
      = Function.update (Function.update (Function.update
          (Function.update links (links.nextOf entry, .prev)
            (links.prevOf entry))
          (links.prevOf entry, .next) (links.nextOf entry))
          (entry, .next) USERLIST_POISON1)
        (entry, .prev) USERLIST_POISON2 := rfl

theorem ne_of_addr {a b : Nat} (h : a ≠ b) (l l' : Link) :
    (a, l) ≠ (b, l') := fun heq => h (Prod.mk.inj heq).1

theorem next_ne_prev {a b : Nat} : (a, Link.next) ≠ (b, Link.prev) := by
  intro heq
  cases heq

theorem prev_ne_next {a b : Nat} : (a, Link.prev) ≠ (b, Link.next) := by
  intro heq
  cases heq

/-- An element is added at the end. -/
theorem Links.Holds.addTail (h : links.Holds head xs) {new : Nat}
    (hnew : new ∉ head :: xs) :
    Links.Holds ((userlistAddTail new head).exec links) head
      (xs ++ [new]) := by
  obtain ⟨hlast, -⟩ := h.ends
  have hne : new ≠ head := fun heq => hnew (by simp [heq])
  obtain ⟨ini, hini⟩ := exists_last head xs
  have hnelast : new ≠ xs.getLastD head := by
    intro heq
    apply hnew
    rw [hini, heq]
    simp
  rw [addTail_exec, hlast]
  apply Circular.addTail h hnew
  all_goals simp only [nextOf, prevOf]
  · rw [Function.update_self]
  · rw [Function.update_of_ne (ne_of_addr hnelast _ _),
      Function.update_of_ne next_ne_prev, Function.update_self]
  · rw [Function.update_of_ne prev_ne_next, Function.update_self]
  · rw [Function.update_of_ne prev_ne_next,
      Function.update_of_ne (ne_of_addr hne.symm _ _),
      Function.update_of_ne prev_ne_next, Function.update_self]
  · intro x hx hx'
    rw [Function.update_of_ne (ne_of_addr hx _ _),
      Function.update_of_ne next_ne_prev,
      Function.update_of_ne (ne_of_addr hx' _ _),
      Function.update_of_ne next_ne_prev]
  · intro y hy hy'
    rw [Function.update_of_ne prev_ne_next,
      Function.update_of_ne (ne_of_addr hy' _ _),
      Function.update_of_ne prev_ne_next,
      Function.update_of_ne (ne_of_addr hy _ _)]

/-- An element is taken out. -/
theorem Links.Holds.del {e : Nat} {pre post : List Nat}
    (h : links.Holds head (pre ++ e :: post)) :
    Links.Holds ((userlistDel e).exec links) head (pre ++ post) := by
  obtain ⟨hprev, hnext⟩ := h.at
  obtain ⟨ini, hini⟩ := exists_last head pre
  obtain ⟨fin, hfin⟩ := exists_first head post
  have hnodup := h.nodup
  rw [← List.cons_append] at hnodup
  obtain ⟨-, hpost, hapart⟩ := List.nodup_append.1 hnodup
  have hpne : pre.getLastD head ≠ e := by
    apply hapart _ _ _ List.mem_cons_self
    rw [hini]
    simp
  have hnne : post.headD head ≠ e := by
    cases post with
    | nil => exact hapart head List.mem_cons_self e List.mem_cons_self
    | cons n post =>
      intro heq
      apply (List.nodup_cons.1 hpost).1
      rw [← heq]
      exact List.mem_cons_self
  have hprev' : links.prevOf e = pre.getLastD head := hprev
  have hnext' : links.nextOf e = post.headD head := hnext
  rw [del_exec, hprev', hnext']
  apply Circular.unlink h
  all_goals simp only [nextOf, prevOf]
  · rw [Function.update_of_ne next_ne_prev,
      Function.update_of_ne (ne_of_addr hpne _ _), Function.update_self]
  · rw [Function.update_of_ne (ne_of_addr hnne _ _),
      Function.update_of_ne prev_ne_next,
      Function.update_of_ne prev_ne_next, Function.update_self]
  · intro x hx hx'
    rw [Function.update_of_ne next_ne_prev,
      Function.update_of_ne (ne_of_addr hx' _ _),
      Function.update_of_ne (ne_of_addr hx _ _),
      Function.update_of_ne next_ne_prev]
  · intro y hy hy'
    rw [Function.update_of_ne (ne_of_addr hy' _ _),
      Function.update_of_ne prev_ne_next,
      Function.update_of_ne prev_ne_next,
      Function.update_of_ne (ne_of_addr hy _ _)]

/-- A new list is empty. -/
theorem holds_init (links : Links) (head : Nat) :
    Links.Holds ((initUserlistHead head).exec links) head [] := by
  apply Circular.empty
  · show Function.update (Function.update links _ _) _ _ _ = _
    rw [Function.update_of_ne next_ne_prev, Function.update_self]
  · show Function.update (Function.update links _ _) _ _ _ = _
    rw [Function.update_self]

-- ========================================================== dev->mr_list

/-- Two tests that agree on a list find the same in it. -/
theorem find?_agree {p q : MrElem → Bool} {l : List MrElem}
    (h : ∀ e ∈ l, p e = q e) : l.find? p = l.find? q := by
  induction l with
  | nil => rfl
  | cons e l ih =>
    rw [List.find?_cons, List.find?_cons, h e List.mem_cons_self,
      ih fun e' he' => h e' (List.mem_cons_of_mem e he')]

/-- A deregistration that finds its element takes it off the list,
whatever the kernel and the server say. -/
theorem deregMr_found {dev : MrStores} {vmr : Nat} {e : MrElem}
    (h : dev.mrList.find? (isMr vmr) = some e) (env : DeregEnv) :
    ∃ ret dev', deregMr env dev vmr = .returns ret dev'
      ∧ dev'.mrList = dev.mrList.eraseP (isMr vmr) := by
  unfold deregMr
  rw [h]
  dsimp only
  split
  · exact ⟨_, _, rfl, rfl⟩
  · split
    · exact ⟨_, _, rfl, rfl⟩
    · exact ⟨_, _, rfl, rfl⟩

/-- The list in memory is the list. -/
structure MrNodes.Related (head : Nat) (s : MrNodes) (dev : MrStores) :
    Prop where
  holds : s.links.Holds head (dev.mrList.map MrElem.addr)
  node : ∀ e ∈ dev.mrList, s.node e.addr = e

namespace MrNodes.Related

variable {s : MrNodes} {dev : MrStores}

/-- The search finds what it finds in the list. -/
theorem search (h : s.Related head dev) (vmr : Nat) {fuel : Nat}
    (hfuel : dev.mrList.length < fuel) :
    s.search head vmr fuel
      = some ((dev.mrList.find? (isMr vmr)).map MrElem.addr) := by
  unfold MrNodes.search
  rw [h.holds.find_eq _ (by rw [List.length_map]; exact hfuel),
    List.find?_map]
  congr 2
  apply find?_agree
  intro e he
  show isMr vmr (s.node e.addr) = isMr vmr e
  rw [h.node e he]

/-- A registration. -/
theorem reg (h : s.Related head dev) {e : MrElem} (numSg : Nat)
    (hfresh : e.addr ∉ head :: dev.mrList.map MrElem.addr) :
    (s.reg head e numSg).Related head (listMr e numSg dev) := by
  have hnode : ∀ e' ∈ dev.mrList,
      Function.update s.node e.addr e e'.addr = e' := by
    intro e' he'
    have hne : e'.addr ≠ e.addr := by
      intro heq
      apply hfresh
      rw [← heq]
      exact List.mem_cons_of_mem head (List.mem_map_of_mem he')
    rw [Function.update_of_ne hne, h.node e' he']
  unfold MrNodes.reg listMr
  split
  · constructor
    · dsimp only
      rw [List.map_append, List.map_singleton]
      exact h.holds.addTail hfresh
    · intro e' he'
      dsimp only
      rcases List.mem_append.1 he' with hold | hnew
      · exact hnode e' hold
      · rw [List.mem_singleton.1 hnew, Function.update_self]
  · exact ⟨h.holds, hnode⟩

/-- A deregistration. -/
theorem dereg (h : s.Related head dev) (env : DeregEnv) (vmr : Nat)
    {fuel : Nat} (hfuel : dev.mrList.length < fuel) :
    match deregMr env dev vmr with
    | .wild => s.dereg head vmr fuel = none
    | .returns _ dev' =>
        ∃ s', s.dereg head vmr fuel = some s' ∧ s'.Related head dev' := by
  have hsearch := h.search vmr hfuel
  cases hfind : dev.mrList.find? (isMr vmr) with
  | none =>
    rw [hfind] at hsearch
    unfold deregMr MrNodes.dereg
    rw [hfind, hsearch]
    rfl
  | some e =>
    rw [hfind] at hsearch
    obtain ⟨xs, ys, hlist, -, -, herase⟩ := split_of_find? hfind
    have hdereg : s.dereg head vmr fuel
        = some { s with links := (userlistDel e.addr).exec s.links } := by
      unfold MrNodes.dereg
      rw [hsearch]
      rfl
    obtain ⟨ret, dev', hreturns, hlist'⟩ := deregMr_found hfind env
    rw [herase] at hlist'
    rw [hreturns]
    refine ⟨_, hdereg, ?_, ?_⟩
    · have hholds := h.holds
      rw [hlist, List.map_append, List.map_cons] at hholds
      rw [hlist', List.map_append]
      exact hholds.del
    · intro e' he'
      apply h.node
      rw [hlist]
      rw [hlist'] at he'
      rcases List.mem_append.1 he' with hbefore | hafter
      · exact List.mem_append_left _ hbefore
      · exact List.mem_append_right _ (List.mem_cons_of_mem e hafter)

end MrNodes.Related

section Dereg

variable {dev dev' : MrStores} {env : DeregEnv} {vmr : Nat}

theorem act_of_wild (h : deregMr env dev vmr = .wild) :
    dev.act (.dereg env vmr) = none := by
  unfold MrStores.act
  dsimp only
  rw [h]

theorem act_of_returns {ret : Int}
    (h : deregMr env dev vmr = .returns ret dev') :
    dev.act (.dereg env vmr) = some dev' := by
  unfold MrStores.act
  dsimp only
  rw [h]

end Dereg

/-- A call adds one element to the list at most. -/
theorem act_length {dev dev' : MrStores} {a : MrAct}
    (h : dev.act a = some dev') :
    dev'.mrList.length ≤ dev.mrList.length + 1 := by
  cases a with
  | reg e numSg =>
    injection h with heq
    subst heq
    unfold listMr
    split
    · rw [List.length_append]
      exact le_rfl
    · exact Nat.le_succ _
  | dereg env vmr =>
    cases hfind : dev.mrList.find? (isMr vmr) with
    | none =>
      have hwild : deregMr env dev vmr = .wild := by
        unfold deregMr
        rw [hfind]
      rw [act_of_wild hwild] at h
      cases h
    | some e =>
      obtain ⟨ret, dev'', hreturns, hlist⟩ := deregMr_found hfind env
      rw [act_of_returns hreturns] at h
      injection h with heq
      rw [← heq, hlist]
      exact (List.eraseP_sublist.length_le).trans (Nat.le_succ _)

/-- A run from related states ends in related states, or goes wild in
both. -/
theorem run_related {fuel : Nat} :
    ∀ {acts : List MrAct} {s : MrNodes} {dev : MrStores},
      s.Related head dev → FreshRun head dev acts →
      dev.mrList.length + acts.length < fuel →
      match Run.tryExec MrStores.act dev acts with
      | none => Run.tryExec (MrNodes.act head fuel) s acts = none
      | some dev' => ∃ s',
          Run.tryExec (MrNodes.act head fuel) s acts = some s'
            ∧ s'.Related head dev'
  | [], s, dev, h, _, _ => ⟨s, rfl, h⟩
  | .reg e numSg :: rest, s, dev, h, hfresh, hfuel => by
      have hlength : (listMr e numSg dev).mrList.length
          ≤ dev.mrList.length + 1 := act_length (a := .reg e numSg) rfl
      rw [List.length_cons] at hfuel
      have hfuel' : (listMr e numSg dev).mrList.length + rest.length
          < fuel := by omega
      have hrest :=
        run_related (h.reg numSg hfresh.1) (hfresh.2 _ rfl) hfuel'
      exact hrest
  | .dereg env vmr :: rest, s, dev, h, hfresh, hfuel => by
      rw [List.length_cons] at hfuel
      have hroom : dev.mrList.length < fuel := by omega
      have hstep := h.dereg env vmr hroom
      have hnode : s.act head fuel (.dereg env vmr)
          = s.dereg head vmr fuel := rfl
      rw [Run.tryExec, Run.tryExec, hnode]
      cases hdereg : deregMr env dev vmr with
      | wild =>
        rw [hdereg] at hstep
        dsimp only at hstep
        rw [act_of_wild hdereg, hstep]
        rfl
      | returns ret dev' =>
        rw [hdereg] at hstep
        dsimp only at hstep
        have hact := act_of_returns hdereg
        obtain ⟨s', hs', hrelated⟩ := hstep
        have hlength := act_length hact
        rw [hact, hs']
        exact run_related hrelated (hfresh.2 dev' hact) (by omega)

/-- Over every run of registrations and deregistrations, the links in
memory are the list; and a call that would go on with a cursor that is no
element does so in both. -/
theorem mrList_in_memory (head : Nat) (links : Links) (node : Nat → MrElem)
    {acts : List MrAct} (hfresh : FreshRun head ⟨[], [], [], []⟩ acts)
    {fuel : Nat} (hfuel : acts.length < fuel) :
    match Run.tryExec MrStores.act ⟨[], [], [], []⟩ acts with
    | none =>
        Run.tryExec (MrNodes.act head fuel) (.empty head links node) acts
          = none
    | some dev => ∃ s,
        Run.tryExec (MrNodes.act head fuel) (.empty head links node) acts
            = some s
          ∧ s.Related head dev := by
  apply run_related _ hfresh
  · exact (Nat.zero_add _).trans_lt hfuel
  · refine ⟨holds_init links head, ?_⟩
    intro e he
    cases he

/-- Two regions, at addresses of their own. -/
def firstMr : MrElem := ⟨0x10, 0x100, ⟨0x1000, 0x1000, 0, 0x7000⟩⟩
def secondMr : MrElem := ⟨0x20, 0x200, ⟨0x3000, 0x1000, 0, 0x9000⟩⟩

/-- They are registered, and the first is deregistered. -/
def twoRegsOneDereg : List MrAct :=
  [.reg firstMr 1, .reg secondMr 1, .dereg ⟨1, 0, 24⟩ 0x100]

theorem twoRegsOneDereg_fresh :
    FreshRun 8 ⟨[], [], [], []⟩ twoRegsOneDereg := by
  refine ⟨by decide, ?_⟩
  intro dev' hact
  injection hact with heq
  subst heq
  refine ⟨by decide, ?_⟩
  intro dev' hact
  injection hact with heq
  subst heq
  exact ⟨trivial, fun _ _ => trivial⟩

theorem mrList_in_memory_two :
    ∃ dev, Run.tryExec MrStores.act ⟨[], [], [], []⟩ twoRegsOneDereg
        = some dev
      ∧ dev.mrList = [secondMr]
      ∧ ∃ s, Run.tryExec (MrNodes.act 8 4)
          (.empty 8 (fun _ => 0) fun _ => firstMr) twoRegsOneDereg = some s
        ∧ s.Related 8 dev :=
  ⟨_, rfl, rfl, mrList_in_memory 8 (fun _ => 0) (fun _ => firstMr)
    twoRegsOneDereg_fresh (by decide)⟩

-- ================================================================ at once

/-- A registration is linking its element, and a deregistration has found
its own and is taking it out. -/
def regBesideDereg (links : Links) (head new e : Nat) :
    Race Bool (Nat × Link) Nat where
  regs := links
  thread t := if t then userlistAddTail new head else userlistDel e

/-- The links that the two stores go to, as long as these are apart. -/
def linkOwner (head new last e prev next : Nat) (l : Nat × Link) :
    Option Bool :=
  if l ∈ [(head, Link.prev), (new, .next), (new, .prev), (last, .next)] then
    some true
  else if l ∈ [(e, Link.prev), (e, .next), (next, .prev), (prev, .next)] then
    some false
  else none

theorem mem_of_getLastD (head : Nat) (xs : List Nat) :
    xs.getLastD head ∈ head :: xs := by
  obtain ⟨ini, hini⟩ := exists_last head xs
  rw [hini]
  exact List.mem_append_right _ List.mem_cons_self

/-- Behind the element that goes there is another one: the stores are
apart. -/
theorem stores_apart {e n new : Nat} {pre post : List Nat}
    (h : links.Holds head (pre ++ e :: n :: post))
    (hnew : new ∉ head :: (pre ++ e :: n :: post)) :
    ∀ t, ((regBesideDereg links head new e).thread t).Within
      (fun l => linkOwner head new ((n :: post).getLastD head) e
        (pre.getLastD head) n l = some t)
      (regBesideDereg links head new e).regs := by
  obtain ⟨hprev, hnext⟩ := h.at
  obtain ⟨hlast, -⟩ := h.ends
  have hlast' : (pre ++ e :: n :: post).getLastD head
      = (n :: post).getLastD head := by
    simp [List.getLastD_eq_getLast?, List.getLast?_cons]
  have hprev' : links (e, .prev) = pre.getLastD head := hprev
  have hnext' : links (e, .next) = n := hnext
  have hread : links (head, .prev) = (n :: post).getLastD head :=
    hlast.trans hlast'
  have hnodup := h.nodup
  rw [← List.cons_append] at hnodup
  obtain ⟨-, hpost, hapart⟩ := List.nodup_append.1 hnodup
  have hp := mem_of_getLastD head pre
  have hl : (n :: post).getLastD head ∈ n :: post := by
    rcases List.mem_cons.1 (mem_of_getLastD n post) with heq | hmem
    · rw [List.getLastD_cons, heq]
      exact List.mem_cons_self
    · rw [List.getLastD_cons]
      exact List.mem_cons_of_mem n hmem
  have hehead : e ≠ head :=
    (hapart head List.mem_cons_self e List.mem_cons_self).symm
  have hnhead : n ≠ head := (hapart head List.mem_cons_self n
    (List.mem_cons_of_mem e List.mem_cons_self)).symm
  have hmem : ∀ x, x ∈ head :: pre ∨ x ∈ e :: n :: post → x ≠ new := by
    intro x hx heq
    apply hnew
    rw [← heq, ← List.cons_append]
    exact List.mem_append.2 hx
  have henew : e ≠ new := hmem e (Or.inr List.mem_cons_self)
  have hnnew : n ≠ new :=
    hmem n (Or.inr (List.mem_cons_of_mem e List.mem_cons_self))
  have hpnew : pre.getLastD head ≠ new := hmem _ (Or.inl hp)
  have helast : e ≠ (n :: post).getLastD head := by
    intro heq
    rw [← heq] at hl
    exact (List.nodup_cons.1 hpost).1 hl
  have hplast : pre.getLastD head ≠ (n :: post).getLastD head :=
    hapart _ hp _ (List.mem_cons_of_mem e hl)
  generalize pre.getLastD head = p at hprev' hpnew hplast ⊢
  generalize (n :: post).getLastD head = last at hread helast hplast ⊢
  intro t
  cases t with
  | true =>
    show (userlistAddTail new head).Within _ links
    unfold userlistAddTail userlistAddBetween linkOwner
    simp only [Prog.Within, hread]
    simp
  | false =>
    show (userlistDel e).Within _ links
    unfold userlistDel linkOwner
    simp only [Prog.Within, hprev', hnext']
    simp [hehead, hnhead, henew, hnnew, hpnew, helast, hplast]

/-- However the stores of a registration and of a deregistration fall, the
list is as it should be, exactly if the element that goes is not the last
one. -/
theorem dereg_beside_reg_exactly {e new : Nat} {pre post : List Nat}
    (h : links.Holds head (pre ++ e :: post))
    (hnew : new ∉ head :: (pre ++ e :: post)) :
    (∀ ts, (Run.exec Race.access (regBesideDereg links head new e) ts).Quiet →
        Links.Holds
          (Run.exec Race.access (regBesideDereg links head new e) ts).regs
          head (pre ++ post ++ [new]))
      ↔ post ≠ [] := by
  cases post with
  | nil =>
    -- the registration has read the last element, which then goes
    refine ⟨fun hall => ?_, fun hne => absurd rfl hne⟩
    have hquiet : (Run.exec Race.access (regBesideDereg links head new e)
        [true, false, false, false, false, false, false, true, true, true,
          true]).Quiet := by
      intro t
      cases t with
      | true => rfl
      | false => rfl
    have hholds := hall _ hquiet
    have hregs : (Run.exec Race.access (regBesideDereg links head new e)
        [true, false, false, false, false, false, false, true, true, true,
          true]).regs
        = (userlistAddBetween new (links.prevOf head) head).exec
          ((userlistDel e).exec links) := rfl
    rw [hregs, List.append_nil] at hholds
    have hprev := hholds.at.1
    obtain ⟨hlast, -⟩ := h.ends
    have hlast' : links.prevOf head = e := by
      rw [show links.prevOf head = _ from hlast]
      simp [List.getLastD_eq_getLast?]
    rw [hlast'] at hprev
    have hstored : Links.prevOf ((userlistAddBetween new e head).exec
        ((userlistDel e).exec links)) new = e := by
      show Function.update (Function.update (Function.update
        (Function.update ((userlistDel e).exec links) (head, .prev) new)
        (new, .next) head) (new, .prev) e) (e, .next) new (new, .prev) = e
      rw [Function.update_of_ne prev_ne_next, Function.update_self]
    rw [hstored] at hprev
    have hnodup := h.nodup
    rw [← List.cons_append] at hnodup
    have hne := (List.nodup_append.1 hnodup).2.2 _
      (mem_of_getLastD head pre) e List.mem_cons_self
    exact absurd hprev.symm hne
  | cons n post =>
    refine ⟨fun _ hnil => (by cases hnil), fun _ ts hquiet => ?_⟩
    rw [Race.quiet_eq_exec (stores_apart h hnew) ts hquiet]
    have hadded := h.addTail hnew
    rw [List.append_assoc, List.cons_append] at hadded
    have hdone := hadded.del
    rw [← List.append_assoc] at hdone
    exact hdone

/-- Two elements, linked. -/
def twoLinks : Links :=
  (userlistAddTail 0x20 8).exec ((userlistAddTail 0x10 8).exec
    ((initUserlistHead 8).exec fun _ => 0))

theorem twoLinks_holds : twoLinks.Holds 8 [0x10, 0x20] :=
  ((holds_init _ 8).addTail (by decide)).addTail (by decide)

theorem dereg_beside_reg_exactly_first :
    (∀ ts, (Run.exec Race.access (regBesideDereg twoLinks 8 0x30 0x10)
          ts).Quiet →
        Links.Holds
          (Run.exec Race.access (regBesideDereg twoLinks 8 0x30 0x10)
            ts).regs 8 ([] ++ [0x20] ++ [0x30]))
      ↔ [0x20] ≠ [] :=
  dereg_beside_reg_exactly twoLinks_holds (by decide)

end BxRnic.User
