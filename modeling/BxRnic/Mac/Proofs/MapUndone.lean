/-
Which packets that cannot be mapped leave the ring as it was.

The loop of `err_out` goes over the entries that the walk has used as long
as `start_index` is less than `cur_index`. Four things escape it: every
entry, when the index has passed 2^32 in between; an entry whose address
is 0, which stands for no mapping; the kind of a linear piece whose entry
is still flagged from an earlier packet; and, when more pieces were mapped
than there are entries, those that were overwritten. It also takes what
an earlier packet has left in the entry of the context descriptor for its
own.
-/
import BxRnic.Mac.Proofs.TxRollback

namespace BxRnic.Mac

open Held

variable {dma : Nat → Option U64} {skb : Skb} {logs : TxLogs}
  {ring : TxRing} {k : Nat}

/-- A packet that could not be mapped, with `k` pieces mapped from entry
`ctx` on: the call returns 0 and leaves the ring as it was. It has undone
what it had mapped, each mapping once, and nothing else. -/
structure MapUndone (ctx k : Nat) (logs : TxLogs) (ring : TxRing)
    (out : TxLogs × TxRing × Bool) : Prop where
  returned : out.2.2 = false
  cur : out.2.1.cur = ring.cur
  cleared : ∀ j, ctx ≤ j → j < ctx + k →
    (out.2.1.datas ring.cur.toNat j).Clean
  undone : ∃ maps unmaps, out.1.maps = logs.maps ++ maps
    ∧ out.1.unmaps = logs.unmaps ++ unmaps
    ∧ unmaps.Perm (undoing logs.maps.length maps)

/-- The rollback undoes the first `k` pieces of a packet. -/
structure TxRing.RollsBack (ring : TxRing) (dma : Nat → Option U64)
    (skb : Skb) (k : Nat) : Prop where
  /-- Every piece has an entry of its own. -/
  fits : k ≤ txDescCnt.toNat
  addresses : ∀ i, i < k → dma i ≠ some 0
  /-- No entry of a linear piece is flagged as mapped as a page. -/
  kinds : ∀ i piece, i < k → skb.layout[i]? = some piece →
    piece.src = .linear →
    (ring.datas ring.cur.toNat (skb.contextCount ring + i)).mappedAsPage
      = false
  /-- The entry of the context descriptor has no mapping, unless the last
  piece has come round to it. -/
  context : skb.contextCount ring = 1 → k < txDescCnt.toNat →
    (ring.datas ring.cur.toNat 0).skbDma = 0

-- ================================================================ calls

/-- The calls for the entry of a context descriptor that no piece has come
round to. -/
def TxRing.contextCalls (ring : TxRing) (skb : Skb) (k : Nat) :
    List TxUnmap :=
  if skb.contextCount ring = 1 ∧ k < 4096 then
    (ring.datas ring.cur.toNat 0).unmapCalls
  else []

theorem skb_contextCount_le (skb : Skb) (ring : TxRing) :
    skb.contextCount ring ≤ 1 := by
  unfold Skb.contextCount
  split <;> omega

/-- A call that undoes something has an address. -/
theorem unmapCalls_nonzero {d : TxDescData} {u : TxUnmap}
    (hu : u ∈ d.unmapCalls) : u.dma ≠ 0 := by
  unfold TxDescData.unmapCalls at hu
  split at hu
  · next hne =>
    rw [List.mem_singleton.1 hu]
    exact hne
  · exact absurd hu List.not_mem_nil

theorem unmapCalls_eq_nil_iff {d : TxDescData} :
    d.unmapCalls = [] ↔ d.skbDma = 0 := by
  unfold TxDescData.unmapCalls
  split
  · next hne =>
    constructor
    · intro hnil
      cases hnil
    · exact fun heq => absurd heq hne
  · next heq => exact ⟨fun _ => not_not.1 heq, fun _ => rfl⟩

theorem contextCalls_nonzero {u : TxUnmap}
    (hu : u ∈ ring.contextCalls skb k) : u.dma ≠ 0 := by
  unfold TxRing.contextCalls at hu
  split at hu
  · exact unmapCalls_nonzero hu
  · exact absurd hu List.not_mem_nil

theorem contextCalls_eq_nil_iff :
    ring.contextCalls skb k = []
      ↔ (skb.contextCount ring = 1 → k < txDescCnt.toNat →
        (ring.datas ring.cur.toNat 0).skbDma = 0) := by
  unfold TxRing.contextCalls
  by_cases h : skb.contextCount ring = 1 ∧ k < 4096
  · rw [if_pos h, unmapCalls_eq_nil_iff]
    exact ⟨fun heq _ _ => heq, fun hall => hall h.1 h.2⟩
  · rw [if_neg h]
    exact ⟨fun _ hctx hlt => absurd ⟨hctx, hlt⟩ h, fun _ => rfl⟩

theorem mem_undoing {n : Nat} {maps : List TxMapping} {u : TxUnmap}
    (hu : u ∈ undoing n maps) :
    ∃ i m, maps[i]? = some m
      ∧ u = ⟨some (n + i), m.piece.src ≠ .linear, m.dma, m.piece.len⟩ := by
  induction maps generalizing n with
  | nil => exact absurd hu List.not_mem_nil
  | cons m maps ih =>
    obtain rfl | hrest := List.mem_cons.1 hu
    · exact ⟨0, m, rfl, rfl⟩
    · obtain ⟨i, m', hget, heq⟩ := ih hrest
      refine ⟨i + 1, m', hget, ?_⟩
      rw [heq, Nat.add_assoc, Nat.add_comm 1 i]

theorem mem_unmapping {datas : Nat → TxDescData} {a n i : Nat}
    {maps : List TxMapping} {m : TxMapping} (hget : maps[i]? = some m) :
    ⟨some (n + i), m.piece.src ≠ .linear || (datas (a + i)).mappedAsPage,
      m.dma, m.piece.len⟩ ∈ unmapping datas a n maps := by
  induction maps generalizing a n i with
  | nil => cases hget
  | cons m' maps ih =>
    cases i with
    | zero =>
      cases hget
      exact List.mem_cons_self
    | succ i =>
      have hrest := ih (a := a + 1) (n := n + 1) hget
      rw [Nat.add_assoc, Nat.add_assoc, Nat.add_comm 1 i] at hrest
      exact List.mem_cons_of_mem _ hrest

theorem unmapping_nonzero_iff (datas : Nat → TxDescData) (a n : Nat)
    (maps : List TxMapping) :
    (∀ u ∈ unmapping datas a n maps, u.dma ≠ 0) ↔ ∀ m ∈ maps, m.dma ≠ 0 := by
  induction maps generalizing a n with
  | nil => exact ⟨fun _ m hm => absurd hm List.not_mem_nil,
      fun _ u hu => absurd hu List.not_mem_nil⟩
  | cons m maps ih =>
    rw [unmapping, List.forall_mem_cons, List.forall_mem_cons, ih]

/-- Other calls, and those for some mappings as their entries are flagged:
together they undo the mappings, each once, only if there are no others,
every address counts and every kind is right. -/
theorem undoing_perm_iff {other : List TxUnmap}
    (hother : ∀ u ∈ other, u.dma ≠ 0) (datas : Nat → TxDescData)
    (a n : Nat) (maps : List TxMapping) :
    (other ++ (unmapping datas a n maps).filter fun u => u.dma ≠ 0).Perm
        (undoing n maps)
      ↔ other = [] ∧ (∀ m ∈ maps, m.dma ≠ 0)
        ∧ ∀ i m, maps[i]? = some m → m.piece.src = .linear →
          (datas (a + i)).mappedAsPage = false := by
  constructor
  · intro hperm
    -- a call that was made has an address
    have haddress : ∀ m ∈ maps, m.dma ≠ 0 := by
      rw [← undoing_nonzero_iff n]
      intro u hu
      obtain hin | hin := List.mem_append.1 (hperm.mem_iff.2 hu)
      · exact hother u hin
      · exact of_decide_eq_true (List.mem_filter.1 hin).2
    have hfilter := List.filter_eq_self.2 fun u hu => decide_eq_true
      ((unmapping_nonzero_iff datas a n maps).2 haddress u hu)
    rw [hfilter] at hperm
    have hlen := hperm.length_eq
    rw [List.length_append, length_unmapping, length_undoing] at hlen
    obtain rfl : other = [] := List.length_eq_zero_iff.1 (by omega)
    rw [List.nil_append] at hperm
    refine ⟨rfl, haddress, fun i m hget hlinear => ?_⟩
    -- the call of a mapping is known by the mapping's number
    obtain ⟨i', m', hget', heq⟩ :=
      mem_undoing (hperm.mem_iff.1 (mem_unmapping hget))
    rw [TxUnmap.mk.injEq, Option.some.injEq] at heq
    obtain rfl : i' = i := by omega
    rw [hget] at hget'
    cases hget'
    rw [hlinear] at heq
    simpa using heq.2.1
  · rintro ⟨rfl, haddress, hkinds⟩
    have hfilter := List.filter_eq_self.2 fun u hu => decide_eq_true
      ((unmapping_nonzero_iff datas a n maps).2 haddress u hu)
    rw [List.nil_append, hfilter, unmapping_eq_iff.2 hkinds]

-- ============================================================== the call

section Call

variable {out : TxLogs × TxRing × Bool}

theorem held_length_le {d : Nat → TxDescData} (n : Nat) :
    (held n fun i => (d i).unmapCalls).length ≤ n := by
  induction n with
  | zero => exact Nat.le_refl 0
  | succ n ih =>
    have hone : (d n).unmapCalls.length ≤ 1 := by
      unfold TxDescData.unmapCalls
      split
      · exact Nat.le_refl 1
      · exact Nat.zero_le 1
    rw [held, List.range_succ, List.flatMap_append, List.length_append,
      List.flatMap_singleton]
    exact Nat.add_le_add ih hone

/-- A rollback that goes over every entry undoes all that they hold. -/
theorem unmapFrom_all {left : Nat} (hleft : 4096 ≤ left) (a : Nat)
    (logs : TxLogs) {ring : TxRing} (hsized : ring.Sized) :
    ∃ unmaps, (unmapFrom left (BitVec.ofNat 32 a) logs ring).1.unmaps
        = logs.unmaps ++ unmaps
      ∧ unmaps.Perm ring.heldCalls := by
  obtain ⟨unmaps, hlogs, hheld⟩ :=
    unmapFrom_held left (BitVec.ofNat 32 a) logs hsized
  have hafter : (unmapFrom left (BitVec.ofNat 32 a) logs ring).2.Sized :=
    (congrArg TxRing.dmaDescCount
      (unmapFrom_kept left (BitVec.ofNat 32 a) logs ring).1).trans hsized
  have hnone : (unmapFrom left (BitVec.ofNat 32 a) logs ring).2.heldCalls
      = [] := by
    rw [TxRing.heldCalls]
    apply held_eq_nil
    intro p hp
    rw [TxRing.Sized] at hafter
    rw [hafter] at hp
    change p < 4096 at hp
    refine unmapCalls_eq_nil_iff.2 (unmapFrom_clean left a logs hsized
      (Or.inr ⟨(p + (4096 - a % 4096)) % 4096, ?_, ?_⟩)).skbDma
    · exact (Nat.mod_lt _ (by decide)).trans_le hleft
    · omega
  rw [hnone, List.append_nil] at hheld
  exact ⟨unmaps, hlogs, hheld⟩

/-- What the walk leaves in the entries from that of the first piece on,
if no entry is used twice. -/
theorem mapped_datas (hsized : ring.Sized) {maps : List TxMapping}
    (hmaps : newMaps dma skb 0 skb.layout = maps)
    (hfits : maps.length ≤ 4096) {j : Nat} (hj : j < 4096) :
    (ring.mapped dma skb logs).datas
        (ring.cur.toNat + skb.contextCount ring) j
      = (ring.datas (ring.cur.toNat + skb.contextCount ring) j).after 0
        logs.maps.length maps j := by
  rw [← hmaps] at hfits ⊢
  exact mapAll_spec dma skb skb.layout (ring.mapStart skb logs) 0 hsized
    rfl (by rw [Nat.zero_add]; exact hfits) hj

/-- The pieces have come round to the entry of the context descriptor:
every entry holds one of them. -/
theorem mapped_heldCalls (logs : TxLogs) (hsized : ring.Sized)
    {maps : List TxMapping} (hmaps : newMaps dma skb 0 skb.layout = maps)
    (hlen : maps.length = 4096) :
    (ring.mapped dma skb logs).heldCalls.Perm
      ((unmapping (ring.datas (ring.cur.toNat + skb.contextCount ring)) 0
        logs.maps.length maps).filter fun u => u.dma ≠ 0) := by
  refine (held_datas (mapped_sized dma skb logs hsized) (·.unmapCalls)
    (ring.cur.toNat + skb.contextCount ring)).trans ?_
  rw [← flatMap_unmapCalls, hlen, ← List.range_eq_range']
  refine List.Perm.of_eq (List.flatMap_congr fun j hj => ?_)
  rw [mapped_datas hsized hmaps (Nat.le_of_eq hlen) (List.mem_range.1 hj)]

theorem unmapping_shift (datas : Nat → TxDescData) (a b n : Nat)
    (maps : List TxMapping) :
    unmapping (fun j => datas (a + j)) b n maps
      = unmapping datas (a + b) n maps := by
  induction maps generalizing b n with
  | nil => rfl
  | cons m maps ih =>
    rw [unmapping, unmapping, ih (b + 1) (n + 1)]
    rfl

theorem datas_add (ring : TxRing) (c a : Nat) :
    ring.datas (c + a) = fun j => ring.datas c (a + j) := by
  funext j
  unfold TxRing.datas
  rw [Nat.add_assoc]

/-- The entry of a context descriptor, where the rollback gets to it
first. -/
theorem contextCalls_eq (h : skb.contextCount ring + k ≤ 4096) :
    ((List.range' 0 (skb.contextCount ring)).flatMap
        fun j => (ring.datas ring.cur.toNat j).unmapCalls)
      = ring.contextCalls skb k := by
  unfold TxRing.contextCalls
  obtain hnone | hone : skb.contextCount ring = 0
      ∨ skb.contextCount ring = 1 := by
    have hle := skb_contextCount_le skb ring
    omega
  · rw [hnone, if_neg (by omega)]
    rfl
  · rw [hone] at h ⊢
    rw [if_pos ⟨rfl, by omega⟩]
    exact List.flatMap_singleton _ _

/-- What a failed call undoes when it rolls back: what the pieces left in
their entries, and what is in the entry of the context descriptor. -/
theorem mapTxSkb_undoes {logs' : TxLogs} {ring' : TxRing}
    {maps : List TxMapping} (hsized : ring.Sized)
    (hmaps : newMaps dma skb 0 skb.layout = maps)
    (hfits : maps.length ≤ 4096)
    (hwrap : ring.cur.toNat + (skb.contextCount ring + maps.length)
      < 2 ^ 32)
    (hmap : TxRing.mapTxSkb dma skb logs
      { ring with pktInfo := ring.prepared skb } = (logs', ring', false)) :
    ∃ unmaps, logs'.unmaps = logs.unmaps ++ unmaps
      ∧ unmaps.Perm (ring.contextCalls skb maps.length
        ++ (unmapping (ring.datas ring.cur.toNat) (skb.contextCount ring)
          logs.maps.length maps).filter fun u => u.dma ≠ 0) := by
  have hrolled : ring.rolled (skb.contextCount ring + maps.length)
      = skb.contextCount ring + maps.length := if_pos hwrap
  by_cases hroom : skb.contextCount ring + maps.length ≤ 4096
  · obtain ⟨-, hlogs, -⟩ := mapTxSkb_rolled hsized hroom hmaps hmap
    rw [hrolled] at hlogs
    subst hlogs
    refine ⟨_, rfl, List.Perm.of_eq ?_⟩
    rw [List.flatMap_map, ← contextCalls_eq hroom]
    exact flatMap_used (ring.datas ring.cur.toNat) _ _ maps
  · -- a context descriptor and a piece for every entry
    have hctx := skb_contextCount_le skb ring
    have hlen : maps.length = 4096 := by omega
    obtain ⟨pkt, heq⟩ := mapTxSkb_back hmaps hmap
    rw [hrolled] at heq
    have hleft : 4096 ≤ skb.contextCount ring + maps.length := by omega
    obtain ⟨unmaps, hlogs, hheld⟩ := unmapFrom_all hleft ring.cur.toNat
      { logs with maps := logs.maps ++ maps }
      (mapped_sized dma skb logs hsized)
    rw [BitVec.ofNat_toNat, BitVec.setWidth_eq] at hlogs
    cases heq
    refine ⟨unmaps, hlogs, hheld.trans ?_⟩
    have hnone : ring.contextCalls skb maps.length = [] :=
      if_neg fun h => absurd h.2 (by omega)
    rw [hnone, List.nil_append]
    have hall := mapped_heldCalls logs hsized hmaps hlen
    rw [datas_add, unmapping_shift, Nat.add_zero] at hall
    exact hall

/-- What a failed call leaves in the entries it has used when it rolls
back. -/
theorem mapTxSkb_clears {logs' : TxLogs} {ring' : TxRing}
    {maps : List TxMapping} (hsized : ring.Sized)
    (hmaps : newMaps dma skb 0 skb.layout = maps)
    (hwrap : ring.cur.toNat + (skb.contextCount ring + maps.length)
      < 2 ^ 32)
    (hmap : TxRing.mapTxSkb dma skb logs
      { ring with pktInfo := ring.prepared skb } = (logs', ring', false))
    {j : Nat} (hj : j < skb.contextCount ring + maps.length) :
    (ring'.datas ring.cur.toNat j).Clean := by
  obtain ⟨pkt, heq⟩ := mapTxSkb_back hmaps hmap
  rw [show ring.rolled (skb.contextCount ring + maps.length)
    = skb.contextCount ring + maps.length from if_pos hwrap] at heq
  have hclean := unmapFrom_clean (skb.contextCount ring + maps.length)
    ring.cur.toNat { logs with maps := logs.maps ++ maps }
    (mapped_sized dma skb logs hsized) (Or.inr ⟨j, hj, rfl⟩)
  rw [BitVec.ofNat_toNat, BitVec.setWidth_eq] at hclean
  cases heq
  exact hclean

theorem unmapFrom_maps (left : Nat) (idx : U32) (logs : TxLogs)
    (ring : TxRing) : (unmapFrom left idx logs ring).1.maps = logs.maps := by
  induction left generalizing idx logs ring with
  | zero => rfl
  | succ left ih =>
    rw [unmapFrom, unmapTxDesc_eq]
    exact ih _ _ _

/-- What a failed call maps and returns. -/
theorem mapTxSkb_leaves {logs' : TxLogs} {ring' : TxRing}
    {maps : List TxMapping}
    (hmaps : newMaps dma skb 0 skb.layout = maps)
    (hmap : TxRing.mapTxSkb dma skb logs
      { ring with pktInfo := ring.prepared skb } = (logs', ring', false)) :
    ring'.cur = ring.cur ∧ logs'.maps = logs.maps ++ maps := by
  obtain ⟨pkt, heq⟩ := mapTxSkb_back hmaps hmap
  cases heq
  constructor
  · exact (congrArg TxRing.cur (unmapFrom_kept _ _ _ _).1).trans
      (mapped_cur ring dma skb logs)
  · exact unmapFrom_maps _ _ _ _

/-- With more pieces than entries some are overwritten, and so more is
mapped than is undone. -/
theorem mapTxSkb_overrun {logs' : TxLogs} {ring' : TxRing}
    {maps : List TxMapping} (hsized : ring.Sized)
    (hmaps : newMaps dma skb 0 skb.layout = maps)
    (hmap : TxRing.mapTxSkb dma skb logs
      { ring with pktInfo := ring.prepared skb } = (logs', ring', false)) :
    ∃ unmaps, logs'.unmaps = logs.unmaps ++ unmaps
      ∧ unmaps.length ≤ 4096 := by
  obtain ⟨pkt, heq⟩ := mapTxSkb_back hmaps hmap
  have hmapped := mapped_sized dma skb logs hsized
  obtain ⟨unmaps, hlogs, hheld⟩ := unmapFrom_held
    (ring.rolled (skb.contextCount ring + maps.length)) ring.cur
    { logs with maps := logs.maps ++ maps } hmapped
  have hbound : (ring.mapped dma skb logs).heldCalls.length ≤ 4096 := by
    rw [TxRing.heldCalls, show _ = txDescCnt from hmapped]
    exact held_length_le 4096
  have hlen := hheld.length_eq
  rw [List.length_append] at hlen
  cases heq
  exact ⟨unmaps, hlogs, by omega⟩

end Call

-- ========================================================== the packets

section Packets

variable {logs' : TxLogs} {ring' : TxRing}

/-- Short of 2^32 it is a matter of the entries and the addresses. -/
theorem undone_rolled_iff (hsized : ring.Sized)
    (hlen : (newMaps dma skb 0 skb.layout).length = k)
    (hwrap : ring.cur.toNat + (skb.contextCount ring + k) < 2 ^ 32)
    (hmap : TxRing.mapTxSkb dma skb logs
      { ring with pktInfo := ring.prepared skb } = (logs', ring', false)) :
    MapUndone (skb.contextCount ring) k logs ring (logs', ring', false)
      ↔ ring.RollsBack dma skb k := by
  obtain ⟨hcur, hmaps⟩ := mapTxSkb_leaves rfl hmap
  have haddresses := newMaps_nonzero_iff hlen
  simp only [Nat.zero_add] at haddresses
  have hpieces : ∀ i piece, i < k → skb.layout[i]? = some piece →
      ∃ m, (newMaps dma skb 0 skb.layout)[i]? = some m
        ∧ m.piece = piece := fun i piece hi hget => by
    obtain ⟨m, hm⟩ : ∃ m, (newMaps dma skb 0 skb.layout)[i]? = some m :=
      ⟨_, List.getElem?_eq_getElem (hlen ▸ hi)⟩
    have hpiece := (newMaps_get hm).1
    rw [hget] at hpiece
    exact ⟨m, hm, (Option.some.inj hpiece).symm⟩
  constructor
  · rintro ⟨-, -, -, maps, unmaps, hmaps', hunmaps', hperm⟩
    obtain rfl := List.append_cancel_left (hmaps.symm.trans hmaps')
    have hfits : k ≤ 4096 := by
      obtain ⟨unmaps₂, hunmaps₂, hle⟩ := mapTxSkb_overrun hsized rfl hmap
      obtain rfl := List.append_cancel_left (hunmaps₂.symm.trans hunmaps')
      have hall := hperm.length_eq
      rw [length_undoing, hlen] at hall
      omega
    obtain ⟨unmaps₂, hunmaps₂, hundoes⟩ := mapTxSkb_undoes hsized rfl
      (by rw [hlen]; exact hfits) (by rw [hlen]; exact hwrap) hmap
    obtain rfl := List.append_cancel_left (hunmaps₂.symm.trans hunmaps')
    obtain ⟨hcontext, haddr, hkinds⟩ := (undoing_perm_iff
      (fun u hu => contextCalls_nonzero hu) _ _ _ _).1
      (hundoes.symm.trans hperm)
    rw [hlen] at hcontext
    refine ⟨hfits, haddresses.1 haddr, fun i piece hi hget hlinear => ?_,
      contextCalls_eq_nil_iff.1 hcontext⟩
    obtain ⟨m, hm, rfl⟩ := hpieces i piece hi hget
    exact hkinds i m hm hlinear
  · rintro ⟨hfits, haddr, hkinds, hcontext⟩
    obtain ⟨unmaps, hunmaps, hundoes⟩ := mapTxSkb_undoes hsized rfl
      (by rw [hlen]; exact hfits) (by rw [hlen]; exact hwrap) hmap
    refine ⟨rfl, hcur, fun j _ hj => ?_, _, unmaps, hmaps, hunmaps,
      hundoes.trans ?_⟩
    · exact mapTxSkb_clears hsized rfl (by rw [hlen]; exact hwrap) hmap
        (by rw [hlen]; exact hj)
    · refine (undoing_perm_iff (fun u hu => contextCalls_nonzero hu) _ _ _
        _).2 ⟨?_, haddresses.2 haddr, fun i m hm hlinear => ?_⟩
      · rw [hlen]
        exact contextCalls_eq_nil_iff.2 hcontext
      · have hi := (List.getElem?_eq_some_iff.1 hm).1
        exact hkinds i m.piece (hlen ▸ hi) (newMaps_get hm).1 hlinear

/-- From 2^32 on nothing is undone. -/
theorem undone_wrapped_iff
    (hlen : (newMaps dma skb 0 skb.layout).length = k)
    (hwrap : ¬ ring.cur.toNat + (skb.contextCount ring + k) < 2 ^ 32)
    (hmap : TxRing.mapTxSkb dma skb logs
      { ring with pktInfo := ring.prepared skb } = (logs', ring', false)) :
    MapUndone (skb.contextCount ring) k logs ring (logs', ring', false)
      ↔ k = 0 := by
  obtain ⟨hcur, hmaps⟩ := mapTxSkb_leaves rfl hmap
  obtain ⟨pkt, heq⟩ := mapTxSkb_back rfl hmap
  rw [hlen, show ring.rolled (skb.contextCount ring + k) = 0 from
    if_neg hwrap] at heq
  have hunmaps : logs'.unmaps = logs.unmaps :=
    congrArg (fun out => out.1.unmaps) heq
  constructor
  · rintro ⟨-, -, -, maps, unmaps, hmaps', hunmaps', hperm⟩
    obtain rfl := List.append_cancel_left (hmaps.symm.trans hmaps')
    obtain rfl : unmaps = [] := by
      rw [hunmaps] at hunmaps'
      exact List.self_eq_append_right.1 hunmaps'
    have hall := hperm.length_eq
    rw [length_undoing, hlen] at hall
    exact hall.symm
  · rintro rfl
    rw [List.length_eq_zero_iff.1 hlen] at hmaps
    refine ⟨rfl, hcur, fun j hlo hhi => ?_, [], [], hmaps, ?_,
      List.Perm.refl []⟩
    · exact absurd hhi (Nat.not_lt.2 hlo)
    · rw [hunmaps, List.append_nil]

/-- Exactly which packets that cannot be mapped leave the ring as it
was. -/
theorem map_undone_iff (logs : TxLogs) (hsized : ring.Sized)
    (hk : k < skb.layout.length) (hok : ∀ i, i < k → (dma i).isSome)
    (hfail : dma k = none) :
    MapUndone (skb.contextCount ring) k logs ring
        (TxRing.mapTxSkb dma skb logs
          { ring with pktInfo := ring.prepared skb })
      ↔ if ring.cur.toNat + (skb.contextCount ring + k) < 2 ^ 32 then
          ring.RollsBack dma skb k
        else k = 0 := by
  have hlen := length_newMaps_layout hk hok hfail
  obtain ⟨logs', ring', hmap⟩ := mapTxSkb_fails logs ring hk hfail
  rw [hmap]
  by_cases hwrap : ring.cur.toNat + (skb.contextCount ring + k) < 2 ^ 32
  · rw [if_pos hwrap]
    exact undone_rolled_iff hsized hlen hwrap hmap
  · rw [if_neg hwrap]
    exact undone_wrapped_iff hlen hwrap hmap

/-- The kernel maps two pieces. -/
def mapsTwo : Nat → Option U64
  | 0 => some 0x1000
  | 1 => some 0x2000
  | _ + 2 => none

/-- A ring without packets, with its index at `cur`. -/
def emptyAt (cur : U32) : TxRing :=
  { TxRing.fresh with cur := cur, dirty := cur }

theorem isSome_mapsTwo : ∀ i, i < 2 → (mapsTwo i).isSome := by decide

/-- The headers and the rest of the linear part are mapped, the first
fragment is not. -/
theorem map_undone_fresh :
    MapUndone 1 2 .none (emptyAt 0)
      (TxRing.mapTxSkb mapsTwo taggedTso .none
        { emptyAt 0 with pktInfo := (emptyAt 0).prepared taggedTso }) := by
  refine (map_undone_iff .none (show (emptyAt 0).Sized from rfl)
    (by rw [length_layout_taggedTso]; decide) isSome_mapsTwo rfl).2 ?_
  rw [if_pos (by decide)]
  exact ⟨by decide, by decide, fun _ _ _ _ _ => rfl, fun _ _ => rfl⟩

/-- The kernel maps one piece. -/
def mapsOne : Nat → Option U64
  | 0 => some 0x1000
  | _ + 1 => none

/-- The index passes 2^32 within the packet: the mapping of the first part
is never undone. -/
theorem mapping_leaks_at_wrap :
    ¬ MapUndone 0 1 .none (emptyAt 0xFFFFFFFF)
      (TxRing.mapTxSkb mapsOne twoParts .none
        { emptyAt 0xFFFFFFFF with
          pktInfo := (emptyAt 0xFFFFFFFF).prepared twoParts }) := by
  intro hundone
  have hk : 1 < twoParts.layout.length := by
    rw [length_layout_twoParts]
    decide
  obtain ⟨logs', ring', hmap⟩ :=
    mapTxSkb_fails .none (emptyAt 0xFFFFFFFF) hk
      (show mapsOne 1 = none from rfl)
  rw [hmap] at hundone
  have hlen : (newMaps mapsOne twoParts 0 twoParts.layout).length = 1 :=
    length_newMaps_layout hk (by decide) rfl
  have hzero := (undone_wrapped_iff hlen (by decide) hmap).1 hundone
  cases hzero

end Packets

end BxRnic.Mac
