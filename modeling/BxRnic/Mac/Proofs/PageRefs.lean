/-
The reference counts of the receive pages are right, whatever is done to
the entries that is allowed.

A reference is held by a ring's leftover, by a slice, or by the slice that
has the duty to unmap the page (`Holder`), or it has gone up in a packet.
The mappings are counted the same way, by the leftovers and the duties
alone: whoever is to unmap a page has a reference to it, so that no page
is free while it is mapped (`Kept.maps_of_free`).
-/
import Mathlib.Data.Fintype.Sigma
import Mathlib.Data.Fintype.Sum
import Mathlib.Tactic.DeriveFintype
import BxRnic.Lib.RefCount
import BxRnic.Mac.PageRefs
import BxRnic.Mac.Proofs.Slices

namespace BxRnic.Mac.PageRefs

open RefCount

-- =============================================================== holders

/-- Who holds a reference to a page. -/
inductive Holder (n : Nat)
  /-- What is left of the pages slices are cut from. -/
  | left (part : Part)
  /-- A slice. -/
  | buf (i : Fin n) (part : Part)
  /-- The slice that unmaps the page. -/
  | duty (i : Fin n) (part : Part)
deriving DecidableEq

instance : Fintype Part where
  elems := {.hdr, .buf}
  complete := by
    intro part
    cases part <;> simp

deriving instance Fintype for Holder

variable {n : Nat}

/-- The references that come with a duty to unmap the page. -/
def duties (held : Holder n → Option Nat) : Holder n → Option Nat
  | .left part => held (.left part)
  | .buf _ _ => none
  | .duty i part => held (.duty i part)

/-- What a page of the ring is held by. -/
def PageRing.held (s : PageRing n) : Holder n → Option Nat
  | .left part => (s.rxPa part).pages
  | .buf i part => (s.descData i part).pa
  | .duty i part => (s.descData i part).bd.paUnmap.pages

/-- The references that have gone up. -/
def PageRing.out (s : PageRing n) (page : Nat) : Nat := s.frags.count page

section Duties

variable {held : Holder n → Option Nat} {k : Holder n} {o : Option Nat}

theorem held_of_duties {page : Nat} (h : duties held k = some page) :
    held k = some page := by
  cases k with
  | left part => exact h
  | buf i part => cases h
  | duty i part => exact h

theorem duties_update_buf (i : Fin n) (part : Part) :
    duties (Function.update held (.buf i part) o) = duties held := by
  funext k
  cases k with
  | left part' => simp [duties]
  | buf i' part' => rfl
  | duty i' part' => simp [duties]

theorem duties_update (hk : ∀ i part, k ≠ .buf i part) :
    duties (Function.update held k o)
      = Function.update (duties held) k o := by
  funext k'
  by_cases heq : k' = k
  · subst heq
    rw [Function.update_self]
    cases k' with
    | left part => exact Function.update_self ..
    | buf i part => exact absurd rfl (hk i part)
    | duty i part => exact Function.update_self ..
  · rw [Function.update_of_ne heq]
    cases k' with
    | left part => exact Function.update_of_ne heq _ _
    | buf i part => rfl
    | duty i part => exact Function.update_of_ne heq _ _

end Duties

-- ========================================================= kept in memory

/-- The counts are right and nothing is broken. -/
structure Kept (m : PageMem) (held : Holder n → Option Nat)
    (out : Nat → Nat) : Prop where
  fine : m.broken = false
  refs : Balanced m.refs held out
  maps : Balanced m.maps (duties held) fun _ => 0

namespace Kept

variable {m : PageMem} {held : Holder n → Option Nat} {out : Nat → Nat}
  {k : Holder n} {page : Nat}

/-- A page that nobody has a reference to is not mapped. -/
theorem maps_of_free (h : Kept m held out) (hfree : m.refs page = 0) :
    m.maps page = 0 := by
  have hrefs := h.refs page
  have hmaps : m.maps page = holders (duties held) page + 0 := h.maps page
  have hmono : holders (duties held) page ≤ holders held page :=
    holders_mono fun _ => held_of_duties
  omega

/-- A reference is given back. The page, if it is free then, has been
unmapped: whoever is to do it would still hold a reference. -/
theorem of_putPage (hfine : m.broken = false) (hpos : m.refs page ≠ 0)
    (hrefs : Balanced (Function.update m.refs page (m.refs page - 1))
      held out)
    (hmaps : Balanced m.maps (duties held) fun _ => 0) :
    Kept (m.putPage page) held out := by
  have hkept : Kept ⟨_, m.maps, false⟩ held out := ⟨rfl, hrefs, hmaps⟩
  unfold PageMem.putPage
  rw [if_neg hpos]
  refine ⟨?_, hrefs, hmaps⟩
  dsimp only
  rw [hfine, Bool.false_or]
  by_cases hone : m.refs page = 1
  · have hfree : m.maps page = 0 := by
      apply hkept.maps_of_free
      show Function.update m.refs page (m.refs page - 1) page = 0
      rw [Function.update_self, hone]
    simp [hfree]
  · simp [hone]

/-- Pages come with a reference and a mapping. -/
theorem allocPage (h : Kept m held out) (hfree : m.refs page = 0)
    {part : Part} (hleft : held (.left part) = none) :
    Kept (m.allocPage page)
      (Function.update held (.left part) (some page)) out := by
  have hduty : duties held (.left part) = none := hleft
  have hrefs := h.refs.get hleft page
  have hmaps := h.maps.get hduty page
  rw [hfree] at hrefs
  rw [h.maps_of_free hfree, ← duties_update (by simp)] at hmaps
  exact ⟨h.fine, hrefs, hmaps⟩

/-- A slice takes a reference to a page that somebody has one to. -/
theorem getPage (h : Kept m held out) (hk : held k = some page)
    {i : Fin n} {part : Part} (hbuf : held (.buf i part) = none) :
    Kept (m.getPage (some page))
      (Function.update held (.buf i part) (some page)) out := by
  unfold PageMem.getPage
  dsimp only
  rw [if_neg (h.refs.pos hk)]
  refine ⟨h.fine, h.refs.get hbuf page, ?_⟩
  rw [duties_update_buf]
  exact h.maps

/-- The leftover's reference goes to the slice that is to unmap the
page. -/
theorem moveLeft (h : Kept m held out) {part part' : Part} {i : Fin n}
    (hleft : held (.left part) = some page)
    (hduty : held (.duty i part') = none) :
    Kept m (Function.update (Function.update held (.left part) none)
      (.duty i part') (some page)) out := by
  have hleft' : duties held (.left part) = some page := hleft
  have hduty' : duties held (.duty i part') = none := hduty
  refine ⟨h.fine, h.refs.move hleft hduty, ?_⟩
  rw [duties_update (by simp), duties_update (by simp)]
  exact h.maps.move hleft' hduty'

/-- A slice gives its reference back. -/
theorem putBuf (h : Kept m held out) {i : Fin n} {part : Part}
    (hbuf : held (.buf i part) = some page) :
    Kept (m.putPage page) (Function.update held (.buf i part) none)
      out := by
  apply of_putPage h.fine (h.refs.pos hbuf) (h.refs.put hbuf)
  rw [duties_update_buf]
  exact h.maps

/-- A page is unmapped and the reference given back. -/
theorem unmapPut (h : Kept m held out) (hbuf : ∀ i part, k ≠ .buf i part)
    (hk : held k = some page) :
    Kept ((m.dmaUnmapPage page).putPage page)
      (Function.update held k none) out := by
  have hduty : duties held k = some page := by
    cases k with
    | left part => exact hk
    | buf i part => exact absurd rfl (hbuf i part)
    | duty i part => exact hk
  have hmaps := h.maps.put hduty
  rw [← duties_update hbuf] at hmaps
  unfold PageMem.dmaUnmapPage
  rw [if_neg (h.maps.pos hduty)]
  exact of_putPage h.fine (h.refs.pos hk) (h.refs.put hk) hmaps

/-- The stack gives a reference back. -/
theorem putOut (h : Kept m held out) (hout : out page ≠ 0) :
    Kept (m.putPage page) held
      (Function.update out page (out page - 1)) := by
  have hpos : m.refs page ≠ 0 := by
    have := h.refs page
    omega
  exact of_putPage h.fine hpos (h.refs.putOut hout) h.maps

/-- What holds no pages has none to unmap. -/
theorem unmapAlloc (h : Kept m held out) {pa : PageAlloc}
    (hbuf : ∀ i part, k ≠ .buf i part) (hk : held k = pa.pages) :
    Kept (m.unmapAlloc pa) (Function.update held k none) out := by
  cases hpages : pa.pages with
  | none =>
    have hsame : m.unmapAlloc pa = m := by
      unfold PageMem.unmapAlloc
      rw [hpages]
    rw [hpages] at hk
    rw [hsame, ← hk, Function.update_eq_self]
    exact h
  | some page =>
    have hput : m.unmapAlloc pa = (m.dmaUnmapPage page).putPage page := by
      unfold PageMem.unmapAlloc
      rw [hpages]
    rw [hpages] at hk
    rw [hput]
    exact h.unmapPut hbuf hk

end Kept

-- ========================================================== the buffers

namespace PageRing

variable {s : PageRing n} {i : Fin n} {part : Part} {len : Nat}

/-- A slice that is cut last takes over the leftover. -/
theorem setBufferData_cases (pg : Pages) (bd : BufferData)
    (pa : PageAlloc) (len : Nat) :
    (setBufferData pg bd pa len).1.maps = pg.maps
      ∧ ((setBufferData pg bd pa len).2.1.paUnmap.pages = pa.pages
          ∧ (setBufferData pg bd pa len).2.2.pages = none
        ∨ (setBufferData pg bd pa len).2.1.paUnmap = bd.paUnmap
          ∧ (setBufferData pg bd pa len).2.2.pages = pa.pages) := by
  unfold setBufferData
  dsimp only
  split
  · exact ⟨rfl, Or.inl ⟨rfl, rfl⟩⟩
  · exact ⟨rfl, Or.inr ⟨rfl, rfl⟩⟩

theorem setBuffer_rxPa (part' : Part) :
    ((s.setBuffer i part len).rxPa part').pages
      = if part' = part then
          (setBufferData s.pg (s.descData i part).bd (s.rxPa part)
            len).2.2.pages
        else (s.rxPa part').pages := by
  by_cases hpart : part' = part
  · subst hpart
    simp [setBuffer]
  · simp [setBuffer, hpart]

theorem setBuffer_descData (i' : Fin n) (part' : Part) :
    (s.setBuffer i part len).descData i' part'
      = if i' = i ∧ part' = part then
          ⟨(setBufferData s.pg (s.descData i part).bd (s.rxPa part)
            len).2.1, (s.rxPa part).pages⟩
        else s.descData i' part' := by
  by_cases hi : i' = i
  · subst hi
    by_cases hpart : part' = part
    · subst hpart
      simp [setBuffer]
    · simp [setBuffer, hpart]
  · simp [setBuffer, hi]

/-- The places after a slice is cut: it has a reference of its own, and
takes over the leftover's if it is cut last. -/
theorem held_setBuffer (s : PageRing n) (i : Fin n) (part : Part)
    (len : Nat) :
    (s.setBuffer i part len).held
        = Function.update s.held (.buf i part) (s.rxPa part).pages
      ∨ (s.setBuffer i part len).held
        = Function.update (Function.update
            (Function.update s.held (.buf i part) (s.rxPa part).pages)
            (.left part) none)
          (.duty i part) (s.rxPa part).pages := by
  obtain ⟨-, hcases⟩ :=
    setBufferData_cases s.pg (s.descData i part).bd (s.rxPa part) len
  rcases hcases with ⟨hunmap, hpa⟩ | ⟨hunmap, hpa⟩
  · right
    funext k
    cases k with
    | left part' =>
      by_cases hpart : part' = part
      · simp [held, setBuffer_rxPa, hpart, hpa]
      · simp [held, setBuffer_rxPa, hpart]
    | buf i' part' =>
      by_cases hi : i' = i ∧ part' = part
      · simp [held, setBuffer_descData, hi]
      · simp [held, setBuffer_descData, hi]
    | duty i' part' =>
      by_cases hi : i' = i ∧ part' = part
      · simp [held, setBuffer_descData, hi, hunmap]
      · simp [held, setBuffer_descData, hi]
  · left
    funext k
    cases k with
    | left part' =>
      by_cases hpart : part' = part
      · simp [held, setBuffer_rxPa, hpart, hpa]
      · simp [held, setBuffer_rxPa, hpart]
    | buf i' part' =>
      by_cases hi : i' = i ∧ part' = part
      · simp [held, setBuffer_descData, hi]
      · simp [held, setBuffer_descData, hi]
    | duty i' part' =>
      by_cases hi : i' = i ∧ part' = part
      · simp [held, setBuffer_descData, hi, hunmap]
      · simp [held, setBuffer_descData, hi]

/-- A slice is cut for an entry that holds none. -/
theorem setBuffer_kept {page : Nat} (h : Kept s.mem s.held s.out)
    (hleft : (s.rxPa part).pages = some page)
    (hbuf : s.held (.buf i part) = none)
    (hduty : s.held (.duty i part) = none) (len : Nat) :
    Kept (s.setBuffer i part len).mem (s.setBuffer i part len).held
      (s.setBuffer i part len).out := by
  have hleft' : s.held (.left part) = some page := hleft
  have hget := h.getPage hleft' hbuf
  rw [← hleft] at hget
  rcases held_setBuffer s i part len with hheld | hheld
  · rw [hheld]
    exact hget
  · rw [hheld, hleft]
    rw [hleft] at hget
    have hstill : Function.update s.held (.buf i part) (some page)
        (.left part) = some page := by
      rw [Function.update_of_ne (by simp)]
      exact hleft'
    have hnone : Function.update s.held (.buf i part) (some page)
        (.duty i part) = none := by
      rw [Function.update_of_ne (by simp)]
      exact hduty
    unfold setBuffer
    dsimp only
    rw [hleft]
    exact hget.moveLeft hstill hnone

-- ================================================================ sound

/-- The counts are right, and an entry without a header slice holds
nothing. -/
structure Sound (s : PageRing n) : Prop where
  kept : Kept s.mem s.held s.out
  below : ∀ page, s.mem.refs page ≠ 0 → page < s.pg.maps.length
  bare : ∀ i, s.held (.buf i .hdr) = none →
    s.held (.buf i .buf) = none ∧ ∀ part, s.held (.duty i part) = none

/-- Nothing holds anything. -/
theorem held_fresh : (fresh n).held = fun _ => none := by
  funext k
  cases k with
  | _ => rfl

theorem duties_none : duties (fun _ : Holder n => none) = fun _ => none := by
  funext k
  cases k with
  | _ => rfl

theorem sound_fresh : (fresh n).Sound := by
  constructor
  · constructor
    · rfl
    · rw [held_fresh]
      exact Balanced.empty
    · rw [held_fresh, duties_none]
      exact Balanced.empty
  · intro page hpage
    exact absurd rfl hpage
  · intro i _
    exact ⟨rfl, fun _ => rfl⟩

-- ----------------------------------------------------------- new pages

theorem ensurePages_cases (ans : Answers) (s : PageRing n) (part : Part)
    (order : Nat) :
    (s.rxPa part).pages.isSome = true
        ∧ s.ensurePages ans part order = (true, s)
      ∨ (s.rxPa part).pages = none ∧ (∃ m pa,
        pa.pages = some s.pg.maps.length
          ∧ s.ensurePages ans part order
            = (true, { s with
              pg := { s.pg with
                calls := s.pg.calls + 1
                maps := s.pg.maps ++ [m] }
              mem := s.mem.allocPage s.pg.maps.length
              rxPa := Function.update s.rxPa part pa }))
      ∨ s.ensurePages ans part order
        = (false, { s with pg := { s.pg with calls := s.pg.calls + 1 } })
      := by
  unfold ensurePages
  cases hpages : (s.rxPa part).pages with
  | some page => exact Or.inl ⟨rfl, rfl⟩
  | none =>
    right
    rcases allocPages_cases ans s.pg order with ⟨m, -, halloc⟩ | halloc
    · left
      refine ⟨rfl, m, ⟨some s.pg.maps.length, m.len, 0, m.dma⟩, rfl, ?_⟩
      rw [halloc]
      rfl
    · right
      rw [halloc]
      rfl

/-- What `mac_map_rx_buffer` does first leaves the entries alone. -/
structure Ready (s s' : PageRing n) : Prop where
  sound : s'.Sound
  descData : s'.descData = s.descData
  frags : s'.frags = s.frags

theorem ensurePages_ready (h : s.Sound) (ans : Answers) (part : Part)
    (order : Nat) :
    Ready s (s.ensurePages ans part order).2
      ∧ ((s.ensurePages ans part order).1 = true →
        ((s.ensurePages ans part order).2.rxPa part).pages ≠ none)
      ∧ ∀ part', (s.rxPa part').pages ≠ none →
        ((s.ensurePages ans part order).2.rxPa part').pages ≠ none := by
  rcases ensurePages_cases ans s part order with
    ⟨hsome, heq⟩ | ⟨hnone, m, pa, hpa, heq⟩ | heq
  · rw [heq]
    refine ⟨⟨h, rfl, rfl⟩, ?_, fun _ hpart => hpart⟩
    intro _ hnone
    rw [hnone] at hsome
    cases hsome
  · rw [heq]
    have hfree : s.mem.refs s.pg.maps.length = 0 := by
      by_contra hheld
      exact Nat.lt_irrefl _ (h.below _ hheld)
    have hleft : s.held (.left part) = none := hnone
    have hkept := h.kept.allocPage hfree hleft
    have hheld : held { s with
        pg := { s.pg with
          calls := s.pg.calls + 1
          maps := s.pg.maps ++ [m] }
        mem := s.mem.allocPage s.pg.maps.length
        rxPa := Function.update s.rxPa part pa }
        = Function.update s.held (.left part)
          (some s.pg.maps.length) := by
      funext k
      cases k with
      | left part' =>
        by_cases hpart : part' = part
        · subst hpart
          simp [held, hpa]
        · simp [held, hpart]
      | buf i part' => simp [held]
      | duty i part' => simp [held]
    refine ⟨⟨⟨?_, ?_, ?_⟩, rfl, rfl⟩, ?_, ?_⟩
    · rw [hheld]
      exact hkept
    · intro page hpage
      show page < (s.pg.maps ++ [m]).length
      rw [List.length_append, List.length_singleton]
      by_cases hnew : page = s.pg.maps.length
      · omega
      · have hold : s.mem.refs page ≠ 0 := by
          intro hzero
          apply hpage
          show Function.update s.mem.refs s.pg.maps.length 1 page = 0
          rw [Function.update_of_ne hnew]
          exact hzero
        have := h.below page hold
        omega
    · intro i hbuf
      exact h.bare i hbuf
    · intro _
      dsimp only
      rw [Function.update_self, hpa]
      exact Option.some_ne_none _
    · intro part' hpart'
      have hne : part' ≠ part := by
        intro hpart
        rw [hpart] at hpart'
        exact hpart' hnone
      dsimp only
      rw [Function.update_of_ne hne]
      exact hpart'
  · rw [heq]
    refine ⟨⟨⟨h.kept, h.below, h.bare⟩, rfl, rfl⟩, ?_,
      fun _ hpart => hpart⟩
    intro hfalse
    cases hfalse

-- ------------------------------------------------------------ filling

theorem setBuffer_refs {page : Nat}
    (h : (s.setBuffer i part len).mem.refs page ≠ 0) :
    s.mem.refs page ≠ 0 := by
  unfold setBuffer PageMem.getPage at h
  dsimp only at h
  split at h
  · exact h
  · next page' _ =>
    split at h
    · exact h
    · next hpos =>
      by_cases hpage : page = page'
      · rw [hpage]
        exact hpos
      · dsimp only at h
        rw [Function.update_of_ne hpage] at h
        exact h

theorem setBuffer_maps :
    (s.setBuffer i part len).pg.maps = s.pg.maps :=
  (setBufferData_cases s.pg (s.descData i part).bd (s.rxPa part) len).1

theorem held_setBuffer_self :
    (s.setBuffer i part len).held (.buf i part)
      = (s.rxPa part).pages := by
  simp [held, setBuffer_descData]

theorem held_setBuffer_buf {i' : Fin n} {part' : Part}
    (hne : ¬ (i' = i ∧ part' = part)) :
    (s.setBuffer i part len).held (.buf i' part')
      = s.held (.buf i' part') := by
  simp [held, setBuffer_descData, hne]

theorem held_setBuffer_duty {i' : Fin n} {part' : Part}
    (hne : ¬ (i' = i ∧ part' = part)) :
    (s.setBuffer i part len).held (.duty i' part')
      = s.held (.duty i' part') := by
  simp [held, setBuffer_descData, hne]

theorem Sound.setBuffer {page : Nat} (h : s.Sound)
    (hleft : (s.rxPa part).pages = some page)
    (hbuf : s.held (.buf i part) = none)
    (hduty : s.held (.duty i part) = none)
    (hhdr : part = .hdr ∨ s.held (.buf i .hdr) ≠ none) (len : Nat) :
    (s.setBuffer i part len).Sound := by
  constructor
  · exact setBuffer_kept h.kept hleft hbuf hduty len
  · intro page' hpage'
    rw [setBuffer_maps]
    exact h.below page' (setBuffer_refs hpage')
  · intro i' hbare
    by_cases hi : i' = i
    · -- the entry has its header slice
      exfalso
      rw [hi] at hbare
      by_cases hpart : part = .hdr
      · rw [← hpart, held_setBuffer_self, hleft] at hbare
        cases hbare
      · rw [held_setBuffer_buf (by simp [Ne.symm hpart])] at hbare
        exact hhdr.elim hpart fun hne => hne hbare
    · have hne : ∀ part', ¬ (i' = i ∧ part' = part) :=
        fun _ hboth => hi hboth.1
      rw [held_setBuffer_buf (hne _)] at hbare
      obtain ⟨hnone, hduties⟩ := h.bare i' hbare
      rw [held_setBuffer_buf (hne _)]
      refine ⟨hnone, ?_⟩
      intro part'
      rw [held_setBuffer_duty (hne _)]
      exact hduties part'

/-- Both slices of an empty entry are cut from leftovers. -/
theorem sound_setBuffers (h : s.Sound)
    (hready : ∀ part, (s.rxPa part).pages ≠ none)
    (hnone : s.held (.buf i .hdr) = none) (len len' : Nat) :
    ((s.setBuffer i .hdr len).setBuffer i .buf len').Sound := by
  obtain ⟨page, hpage⟩ := Option.ne_none_iff_exists'.1 (hready .hdr)
  obtain ⟨page', hpage'⟩ := Option.ne_none_iff_exists'.1 (hready .buf)
  have hpage'' : ((s.setBuffer i .hdr len).rxPa .buf).pages
      = some page' := by
    rw [setBuffer_rxPa, if_neg (by simp)]
    exact hpage'
  obtain ⟨hbuf, hduty⟩ := h.bare i hnone
  have hfirst := h.setBuffer hpage hnone (hduty .hdr) (Or.inl rfl) len
  apply hfirst.setBuffer hpage''
  · rw [held_setBuffer_buf (by simp)]
    exact hbuf
  · rw [held_setBuffer_duty (by simp)]
    exact hduty .buf
  · right
    rw [held_setBuffer_self, hpage]
    exact Option.some_ne_none page

/-- An empty entry is filled, if there are pages for it. -/
theorem sound_map (h : s.Sound) (ans : Answers) (rxBufSize : Nat)
    (i : Fin n) (hnone : (s.descData i .hdr).pa = none) :
    (s.mapRxBuffer ans rxBufSize i).2.Sound := by
  obtain ⟨hready, hpages, -⟩ := ensurePages_ready h ans .hdr 0
  unfold mapRxBuffer
  split
  · next s₁ heq =>
    rw [heq] at hready
    exact hready.sound
  · next s₁ heq =>
    rw [heq] at hready hpages
    obtain ⟨hready', hpages', hold⟩ :=
      ensurePages_ready hready.sound ans .buf bufOrder
    split
    · next s₂ heq' =>
      rw [heq'] at hready'
      exact hready'.sound
    · next s₂ heq' =>
      rw [heq'] at hready' hpages' hold
      apply sound_setBuffers hready'.sound
      · intro part
        cases part with
        | hdr => exact hold .hdr (hpages rfl)
        | buf => exact hpages' rfl
      · unfold held
        rw [hready'.descData, hready.descData]
        exact hnone

-- ----------------------------------------------------------- emptying

section Emptying

variable {m : PageMem} {page : Nat}

theorem putPage_refs (page' : Nat) (h : (m.putPage page').refs page ≠ 0) :
    m.refs page ≠ 0 := by
  unfold PageMem.putPage at h
  split at h
  · exact h
  · next hpos =>
    by_cases hpage : page = page'
    · rw [hpage]
      exact hpos
    · dsimp only at h
      rw [Function.update_of_ne hpage] at h
      exact h

theorem unmapAlloc_refs {pa : PageAlloc}
    (h : (m.unmapAlloc pa).refs page ≠ 0) : m.refs page ≠ 0 := by
  unfold PageMem.unmapAlloc at h
  split at h
  · exact h
  · next page' _ =>
    have hunmap := putPage_refs page' h
    unfold PageMem.dmaUnmapPage at hunmap
    split at hunmap
    · exact hunmap
    · exact hunmap

theorem unmapBuffer_refs {b : RxBuffer}
    (h : (unmapBuffer m b).refs page ≠ 0) : m.refs page ≠ 0 := by
  have hput := unmapAlloc_refs h
  split at hput
  · exact hput
  · exact putPage_refs _ hput

/-- A buffer is given up, with its duty. -/
theorem unmapBuffer_kept {held : Holder n → Option Nat} {out : Nat → Nat}
    (h : Kept m held out) {b : RxBuffer} (hbuf : held (.buf i part) = b.pa)
    (hduty : held (.duty i part) = b.bd.paUnmap.pages) :
    Kept (unmapBuffer m b)
      (Function.update (Function.update held (.buf i part) none)
        (.duty i part) none) out := by
  have hduty' : Function.update held (.buf i part) none (.duty i part)
      = b.bd.paUnmap.pages := by
    rw [Function.update_of_ne (by simp)]
    exact hduty
  unfold unmapBuffer
  cases hpa : b.pa with
  | none =>
    rw [hpa] at hbuf
    rw [← hbuf, Function.update_eq_self] at hduty' ⊢
    rw [hbuf]
    exact h.unmapAlloc (by simp) hduty
  | some page =>
    rw [hpa] at hbuf
    exact (h.putBuf hbuf).unmapAlloc (by simp) hduty'

end Emptying

/-- An emptied entry holds nothing. -/
theorem held_unmapDescData (s : PageRing n) (i : Fin n) :
    (s.unmapDescData i).held
      = Function.update (Function.update (Function.update
          (Function.update s.held (.buf i .hdr) none) (.duty i .hdr) none)
          (.buf i .buf) none) (.duty i .buf) none := by
  funext k
  cases k with
  | left part => simp [held, unmapDescData]
  | buf i' part =>
    by_cases hi : i' = i
    · subst hi
      cases part with
      | _ => simp [held, unmapDescData, RxBuffer.zero]
    · simp [held, unmapDescData, hi]
  | duty i' part =>
    by_cases hi : i' = i
    · subst hi
      cases part with
      | _ =>
        simp [held, unmapDescData, RxBuffer.zero, BufferData.zero,
          PageAlloc.zero]
    · simp [held, unmapDescData, hi]

theorem sound_unmap (h : s.Sound) (i : Fin n) :
    (s.unmapDescData i).Sound := by
  constructor
  · rw [held_unmapDescData]
    have hbuf : s.held (.buf i .hdr) = (s.descData i .hdr).pa := rfl
    have hduty : s.held (.duty i .hdr)
        = (s.descData i .hdr).bd.paUnmap.pages := rfl
    apply unmapBuffer_kept (unmapBuffer_kept h.kept hbuf hduty)
    · rw [Function.update_of_ne (by simp), Function.update_of_ne (by simp)]
      rfl
    · rw [Function.update_of_ne (by simp), Function.update_of_ne (by simp)]
      rfl
  · intro page hpage
    exact h.below page (unmapBuffer_refs (unmapBuffer_refs hpage))
  · intro i' hbare
    by_cases hi : i' = i
    · subst hi
      constructor
      · simp [held, unmapDescData, RxBuffer.zero]
      · intro part
        simp [held, unmapDescData, RxBuffer.zero, BufferData.zero,
          PageAlloc.zero]
    · have hsame : (s.unmapDescData i).descData i' = s.descData i' := by
        simp [unmapDescData, hi]
      unfold held at hbare ⊢
      dsimp only at hbare ⊢
      rw [hsame] at hbare ⊢
      exact h.bare i' hbare

theorem sound_freeLeft (h : s.Sound) (part : Part) :
    (s.freeLeft part).Sound := by
  have hheld : (s.freeLeft part).held
      = Function.update s.held (.left part) none := by
    funext k
    cases k with
    | left part' =>
      by_cases hpart : part' = part
      · subst hpart
        simp [held, freeLeft, PageAlloc.zero]
      · simp [held, freeLeft, hpart]
    | buf i part' => simp [held, freeLeft]
    | duty i part' => simp [held, freeLeft]
  constructor
  · rw [hheld]
    exact h.kept.unmapAlloc (by simp) rfl
  · intro page hpage
    exact h.below page (unmapAlloc_refs hpage)
  · intro i hbare
    exact h.bare i hbare

-- ---------------------------------------------------------- going up

/-- A packet may take the buffer of an entry exactly if there is one. -/
theorem sound_addRxFrag (h : s.Sound) (i : Fin n) :
    ((s.descData i .buf).pa ≠ none → (s.addRxFrag i).Sound)
      ∧ ((s.addRxFrag i).mem.broken = false →
        (s.descData i .buf).pa ≠ none) := by
  cases hpa : (s.descData i .buf).pa with
  | none =>
    constructor
    · intro hne
      exact absurd rfl hne
    · intro hfine
      unfold addRxFrag at hfine
      dsimp only at hfine
      rw [hpa] at hfine
      cases hfine
  | some page =>
    refine ⟨?_, fun _ => Option.some_ne_none page⟩
    intro _
    have heq : s.addRxFrag i
        = { s with
          descData := Function.update s.descData i
            (Function.update (s.descData i) .buf
              { s.descData i .buf with pa := none })
          frags := page :: s.frags } := by
      unfold addRxFrag
      dsimp only
      rw [hpa]
    have hheld : (s.addRxFrag i).held
        = Function.update s.held (.buf i .buf) none := by
      rw [heq]
      funext k
      cases k with
      | left part => simp [held]
      | buf i' part =>
        by_cases hi : i' = i
        · subst hi
          cases part with
          | _ => simp [held]
        · simp [held, hi]
      | duty i' part =>
        by_cases hi : i' = i
        · subst hi
          cases part with
          | _ => simp [held]
        · simp [held, hi]
    have hout : (s.addRxFrag i).out
        = Function.update s.out page (s.out page + 1) := by
      rw [heq]
      funext p
      by_cases hp : p = page
      · rw [hp, Function.update_self]
        exact List.count_cons_self
      · rw [Function.update_of_ne hp]
        exact List.count_cons_of_ne (Ne.symm hp)
    constructor
    · rw [hheld, hout, heq]
      refine ⟨h.kept.fine, h.kept.refs.lose hpa, ?_⟩
      rw [duties_update_buf]
      exact h.kept.maps
    · intro p hp
      rw [heq] at hp ⊢
      exact h.below p hp
    · intro i' hbare
      rw [hheld] at hbare ⊢
      rw [Function.update_of_ne (by simp)] at hbare
      obtain ⟨hbuf, hduty⟩ := h.bare i' hbare
      constructor
      · by_cases hi : i' = i
        · rw [hi, Function.update_self]
        · rw [Function.update_of_ne (by simpa using hi)]
          exact hbuf
      · intro part
        rw [Function.update_of_ne (by simp)]
        exact hduty part

theorem sound_putFrag (h : s.Sound) (page : Nat) :
    (s.putFrag page).Sound := by
  unfold putFrag
  split
  · next hmem =>
    have hout : s.out page ≠ 0 := by
      unfold out
      rw [← List.count_pos_iff] at hmem
      omega
    have hfrags : (fun p => (s.frags.erase page).count p)
        = Function.update s.out page (s.out page - 1) := by
      funext p
      by_cases hp : p = page
      · rw [hp, Function.update_self]
        exact List.count_erase_self
      · rw [Function.update_of_ne hp]
        exact List.count_erase_of_ne hp
    have hput := h.kept.putOut hout
    rw [← hfrags] at hput
    constructor
    · exact hput
    · intro p hp
      exact h.below p (putPage_refs page hp)
    · intro i hbare
      exact h.bare i hbare
  · exact h

end PageRing

end BxRnic.Mac.PageRefs
