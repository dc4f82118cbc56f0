/-
The reference counts of the receive pages over whole runs: right exactly
if no packet takes the buffer of an entry that has none, and a ring that
is closed has given all of its own back.

That the driver fills only entries that are empty is part of what is
proved: an entry is emptied right before (`each_fills`).
-/
import BxRnic.Mac.Proofs.PageRefs

namespace BxRnic.Mac.PageRefs

open Run RefCount

variable {n : Nat}

namespace PageRing

-- ================================================================== runs

/-- The counts are right and nothing is broken. -/
def Counted (s : PageRing n) : Prop := Kept s.mem s.held s.out

/-- A packet takes only a buffer that is there. -/
def TakeOk (s : PageRing n) : PageAct n → Prop
  | .addRxFrag i => (s.descData i .buf).pa ≠ none
  | _ => True

instance (s : PageRing n) : ∀ act, Decidable (TakeOk s act)
  | .addRxFrag i =>
      inferInstanceAs (Decidable ((s.descData i .buf).pa ≠ none))
  | .map _ => isTrue trivial
  | .unmap _ => isTrue trivial
  | .freeLeft _ => isTrue trivial
  | .putFrag _ => isTrue trivial

/-- An entry that is filled is empty. -/
def FillOk (s : PageRing n) : PageAct n → Prop
  | .map i => (s.descData i .hdr).pa = none
  | _ => True

section Runs

variable (ans : Answers) (rxBufSize : Nat)

theorem sound_step (s : PageRing n) (act : PageAct n) (h : s.Sound)
    (htake : TakeOk s act) (hfill : FillOk s act) :
    (s.step ans rxBufSize act).Sound := by
  cases act with
  | map i => exact sound_map h ans rxBufSize i hfill
  | unmap i => exact sound_unmap h i
  | freeLeft part => exact sound_freeLeft h part
  | addRxFrag i => exact (sound_addRxFrag h i).1 htake
  | putFrag page => exact sound_putFrag h page

theorem takeOk_of_counted (s : PageRing n) (act : PageAct n) (h : s.Sound)
    (hnext : (s.step ans rxBufSize act).Counted) : TakeOk s act := by
  cases act with
  | addRxFrag i => exact (sound_addRxFrag h i).2 hnext.fine
  | _ => trivial

-- ------------------------------------------------- what is filled is empty

theorem ensurePages_descData (s : PageRing n) (part : Part) (order : Nat) :
    (s.ensurePages ans part order).2.descData = s.descData := by
  rcases ensurePages_cases ans s part order with
    ⟨-, heq⟩ | ⟨-, m, pa, -, heq⟩ | heq
  · rw [heq]
  · rw [heq]
  · rw [heq]

/-- Filling an entry leaves the others alone. -/
theorem mapRxBuffer_descData (s : PageRing n) {i i' : Fin n}
    (hne : i' ≠ i) :
    (s.mapRxBuffer ans rxBufSize i).2.descData i' = s.descData i' := by
  have hcut (s : PageRing n) (part : Part) (len : Nat) :
      (s.setBuffer i part len).descData i' = s.descData i' :=
    Function.update_of_ne hne _ _
  have hhdr := ensurePages_descData ans s .hdr 0
  unfold mapRxBuffer
  split
  · next s' heq =>
    rw [heq] at hhdr
    rw [hhdr]
  · next s' heq =>
    rw [heq] at hhdr
    have hbuf := ensurePages_descData ans s' .buf bufOrder
    split
    · next s'' heq' =>
      rw [heq'] at hbuf
      rw [hbuf, hhdr]
    · next s'' heq' =>
      rw [heq'] at hbuf
      dsimp only at hbuf hhdr ⊢
      rw [hcut, hcut, hbuf, hhdr]

/-- Emptied entries are empty. -/
theorem exec_unmap (entries : List (Fin n)) (s : PageRing n) (i : Fin n)
    (h : i ∈ entries ∨ s.descData i = fun _ => .zero) :
    (exec (step ans rxBufSize) s (entries.map .unmap)).descData i
      = fun _ => .zero := by
  induction entries generalizing s with
  | nil => exact h.resolve_left List.not_mem_nil
  | cons j entries ih =>
    apply ih
    rw [List.mem_cons] at h
    by_cases hi : i = j
    · right
      rw [hi]
      exact Function.update_self ..
    · have hsame : (s.step ans rxBufSize (.unmap j)).descData i
          = s.descData i := Function.update_of_ne hi _ _
      rw [hsame]
      exact h.imp_left fun h => h.resolve_left hi

theorem each_unmap (entries : List (Fin n)) (s : PageRing n) :
    Each (step ans rxBufSize) FillOk s (entries.map .unmap) := by
  induction entries generalizing s with
  | nil => trivial
  | cons j entries ih => exact ⟨trivial, ih _⟩

/-- Empty entries, each filled once. -/
theorem each_map {entries : List (Fin n)} (hnodup : entries.Nodup)
    (s : PageRing n) (h : ∀ i ∈ entries, (s.descData i .hdr).pa = none) :
    Each (step ans rxBufSize) FillOk s (entries.map .map) := by
  induction entries generalizing s with
  | nil => trivial
  | cons j entries ih =>
    rw [List.nodup_cons] at hnodup
    refine ⟨h j List.mem_cons_self, ih hnodup.2 _ ?_⟩
    intro i hi
    have hne : i ≠ j := by
      intro heq
      rw [heq] at hi
      exact hnodup.1 hi
    have hsame : (s.step ans rxBufSize (.map j)).descData i
        = s.descData i := mapRxBuffer_descData ans rxBufSize s hne
    rw [hsame]
    exact h i (List.mem_cons_of_mem j hi)

/-- Entries, each filled right after it is emptied. -/
theorem each_refill (entries : List (Fin n)) (s : PageRing n) :
    Each (step ans rxBufSize) FillOk s
      (entries.flatMap fun i => [.unmap i, .map i]) := by
  induction entries generalizing s with
  | nil => trivial
  | cons j entries ih =>
    rw [List.flatMap_cons, each_append]
    refine ⟨⟨trivial, ?_, trivial⟩, ih _⟩
    simp [FillOk, step, unmapDescData, RxBuffer.zero]

theorem call_fills (call : PageCall n) (s : PageRing n) :
    Each (step ans rxBufSize) FillOk s call.acts := by
  cases call with
  | start reached =>
    unfold PageCall.acts
    rw [each_append]
    refine ⟨each_unmap ans rxBufSize _ s, ?_⟩
    apply each_map ans rxBufSize
      ((List.nodup_finRange n).sublist (List.take_sublist _ _))
    intro i _
    rw [exec_unmap ans rxBufSize _ s i (Or.inl (List.mem_finRange i))]
    rfl
  | refresh entries => exact each_refill ans rxBufSize entries s
  | receive i => exact ⟨trivial, trivial⟩
  | close =>
    unfold PageCall.acts
    rw [each_append]
    exact ⟨each_unmap ans rxBufSize _ s, trivial, trivial, trivial⟩
  | consume page => exact ⟨trivial, trivial⟩

/-- The driver fills only entries that are empty. -/
theorem each_fills (calls : List (PageCall n)) (s : PageRing n) :
    Each (step ans rxBufSize) FillOk s (calls.flatMap PageCall.acts) := by
  induction calls generalizing s with
  | nil => trivial
  | cons call calls ih =>
    rw [List.flatMap_cons, each_append]
    exact ⟨call_fills ans rxBufSize call s, ih _⟩

-- ---------------------------------------------------------------- results

/-- Over every run of starts, refills, receptions and closes, with the
stack done with packets at any time: each page has as many references as
there are places and packets with one, is mapped as long as there is
somebody to unmap it, and is neither given back nor unmapped too often,
exactly if no packet takes the buffer of an entry that has none. -/
theorem pages_counted_exactly (calls : List (PageCall n)) :
    Always (step ans rxBufSize) Counted (fresh n)
        (calls.flatMap PageCall.acts)
      ↔ Each (step ans rxBufSize) TakeOk (fresh n)
        (calls.flatMap PageCall.acts) := by
  have hkept (s : PageRing n) (hs : s.Sound) : s.Counted := hs.kept
  apply always_iff_each_under hkept ?_ ?_ sound_fresh
    (each_fills ans rxBufSize calls (fresh n))
  · intro s act hs hfill htake
    exact sound_step ans rxBufSize s act hs htake hfill
  · intro s act hs _ hnext
    exact takeOk_of_counted ans rxBufSize s act hs hnext

/-- A closed ring holds nothing. -/
theorem held_close (s : PageRing n) :
    (exec (step ans rxBufSize) s PageCall.close.acts).held
      = fun _ => none := by
  unfold PageCall.acts
  rw [exec_append]
  have hempty (i : Fin n) := exec_unmap ans rxBufSize (List.finRange n) s i
    (Or.inl (List.mem_finRange i))
  generalize exec (step ans rxBufSize) s ((List.finRange n).map .unmap)
    = s' at hempty
  funext k
  cases k with
  | left part =>
    cases part with
    | _ => simp [held, step, freeLeft, PageAlloc.zero]
  | buf i part =>
    show (s'.descData i part).pa = none
    rw [hempty i]
    rfl
  | duty i part =>
    show (s'.descData i part).bd.paUnmap.pages = none
    rw [hempty i]
    rfl

/-- No packet takes a buffer while the ring is closed. -/
theorem close_takes (s : PageRing n) :
    Each (step ans rxBufSize) TakeOk s PageCall.close.acts := by
  have hnone : ∀ act ∈ (PageCall.close (n := n)).acts,
      ∀ i, act ≠ .addRxFrag i := by
    intro act hact i heq
    rw [heq] at hact
    simp [PageCall.acts] at hact
  apply (each_of_forall_mem hnone s).mono
  intro s act hact
  cases act with
  | addRxFrag i => exact absurd rfl (hact i)
  | _ => trivial

/-- After every run that ends with the ring closed, each page has exactly
the references that packets have to it, and none is mapped. -/
theorem closed_gives_all_back (calls : List (PageCall n))
    (h : Each (step ans rxBufSize) TakeOk (fresh n)
      (calls.flatMap PageCall.acts)) (page : Nat) :
    let s := exec (step ans rxBufSize) (fresh n)
      ((calls ++ [PageCall.close]).flatMap PageCall.acts)
    s.mem.broken = false ∧ s.mem.refs page = s.frags.count page
      ∧ s.mem.maps page = 0 := by
  have hacts : (calls ++ [PageCall.close]).flatMap PageCall.acts
      = calls.flatMap PageCall.acts ++ PageCall.close.acts := by
    simp
  have htake : Each (step ans rxBufSize) TakeOk (fresh n)
      ((calls ++ [PageCall.close]).flatMap PageCall.acts) := by
    rw [hacts, each_append]
    exact ⟨h, close_takes ans rxBufSize _⟩
  have hcounted := ((pages_counted_exactly ans rxBufSize _).2 htake).last
  have hheld := held_close ans rxBufSize
    (exec (step ans rxBufSize) (fresh n) (calls.flatMap PageCall.acts))
  rw [← exec_append, ← hacts] at hheld
  obtain ⟨hfine, hrefs, hmaps⟩ := hcounted
  rw [hheld] at hrefs hmaps
  rw [duties_none] at hmaps
  dsimp only
  refine ⟨hfine, ?_, ?_⟩
  · rw [hrefs page, holders_none, Nat.zero_add]
    rfl
  · rw [hmaps page, holders_none]
    rfl

/-- A packet that is still up when the ring is closed. -/
theorem closed_gives_all_back_received :
    let s := exec (step ⟨fun _ _ => true, fun _ => some 0⟩ 2048)
      (fresh 1) (([PageCall.start 1, .receive 0]
        ++ [PageCall.close]).flatMap PageCall.acts)
    s.mem.broken = false ∧ s.mem.refs 1 = s.frags.count 1
      ∧ s.mem.maps 1 = 0 :=
  closed_gives_all_back _ _ _ (by decide) 1

end Runs

end PageRing

end BxRnic.Mac.PageRefs
