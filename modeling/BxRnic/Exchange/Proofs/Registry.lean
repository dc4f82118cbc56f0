/-
The exchange server as a registry: what the pool holds after any
sequence of requests, compared with the multiset of regions that were
written and not yet removed.

# The abstract registry

`Registry.Step` is the purpose of the server in its own terms: a write
adds a region, a removal takes one matching region out (and nothing when
none matches), a read changes nothing.

# Where the server leaves it

- `CMD_WRITE` does not look at the capacity.
- `CMD_REMOVE` without a match still shortens the pool.
- `bxroce_remove_mr` hands `memmove` a count of entries where bytes are
  meant: of the `behind` entries that should move down, only the first
  `behind` bytes do. The removed entry is gone only if it was the last
  one, or if the few bytes that moved happen to spell the right entries
  (`removal_exact`).

`RequestOk` is the exact condition under which one request keeps to the
registry, and `registry_kept_iff` lifts it to runs.
-/
import BxRnic.Exchange.Server
import Mathlib.Data.Multiset.AddSub
import Mathlib.Algebra.Order.Group.Multiset
import Mathlib.Tactic.Abel

namespace BxRnic.Exchange

open Word Run

-- ================================================== the abstract registry

/-- What a request does to the multiset of registered regions. -/
def Registry.Step (regions : Multiset MrPhyInfo) (req : QpVaddr)
    (regions' : Multiset MrPhyInfo) : Prop :=
  if req.cmd = cmdWrite then
    regions' = ⟨req.phyaddr, req.vaddr, req.rkey, req.len⟩ ::ₘ regions
  else if req.cmd = cmdRemove then
    (∃ mr ∈ regions, removeMatches req.rkey req.vaddr mr = true
        ∧ mr ::ₘ regions' = regions)
      ∨ (∀ mr ∈ regions, removeMatches req.rkey req.vaddr mr = false)
        ∧ regions' = regions
  else
    regions' = regions

instance (regions : Multiset MrPhyInfo) (req : QpVaddr)
    (regions' : Multiset MrPhyInfo) :
    Decidable (Registry.Step regions req regions') :=
  letI : Decidable (∃ mr ∈ regions,
      removeMatches req.rkey req.vaddr mr = true
        ∧ mr ::ₘ regions' = regions) := Multiset.decidableExistsMultiset
  letI : Decidable (∀ mr ∈ regions,
      removeMatches req.rkey req.vaddr mr = false) :=
    Multiset.decidableForallMultiset
  inferInstanceAs (Decidable (ite _ _ _))

/-- The regions after a request, kept in the order they were written. -/
def Registry.after (regions : List MrPhyInfo) (req : QpVaddr) :
    List MrPhyInfo :=
  if req.cmd = cmdWrite then
    regions ++ [⟨req.phyaddr, req.vaddr, req.rkey, req.len⟩]
  else if req.cmd = cmdRemove then
    regions.eraseP (removeMatches req.rkey req.vaddr)
  else regions

/-- Keeping the order is a way to keep the registry. -/
theorem Registry.step_after (regions : List MrPhyInfo) (req : QpVaddr) :
    Registry.Step regions req (Registry.after regions req) := by
  unfold Registry.Step Registry.after
  by_cases hwrite : req.cmd = cmdWrite
  · rw [if_pos hwrite, if_pos hwrite, ← Multiset.coe_add,
      Multiset.coe_singleton, ← Multiset.singleton_add, add_comm]
  by_cases hremove : req.cmd = cmdRemove
  · rw [if_neg hwrite, if_neg hwrite, if_pos hremove, if_pos hremove]
    by_cases hany : ∃ mr ∈ regions,
        removeMatches req.rkey req.vaddr mr = true
    · obtain ⟨mr, hmem, hmatch⟩ := hany
      obtain ⟨first, before, behind, -, hfirst, heq, herase⟩ :=
        List.exists_of_eraseP hmem hmatch
      refine Or.inl ⟨first, ?_, hfirst, ?_⟩
      · rw [Multiset.mem_coe, heq]
        exact List.mem_append_right before List.mem_cons_self
      · rw [herase, heq, Multiset.cons_coe]
        exact Multiset.coe_eq_coe.2 List.perm_middle.symm
    · have hnone : ∀ mr ∈ regions,
          removeMatches req.rkey req.vaddr mr = false := fun mr hmem =>
        Bool.of_not_eq_true fun hmatch => hany ⟨mr, hmem, hmatch⟩
      refine Or.inr ⟨hnone, ?_⟩
      rw [List.eraseP_of_forall_not fun mr hmem => by
        rw [hnone mr hmem]
        exact Bool.false_ne_true]
  · rw [if_neg hwrite, if_neg hwrite, if_neg hremove, if_neg hremove]

/-- The length stays within the allocation. -/
def Server.InBounds (srv : Server) : Prop :=
  0 ≤ srv.mrLen ∧ srv.mrLen ≤ mrCapacity

/-- The request does to the pool what it should do to the registry, and
leaves the length within the allocation. -/
def World.RegistryKept (w : World) (req : Request) : Prop :=
  Registry.Step w.srv.entries req.vaddr (w.step req).srv.entries
    ∧ (w.step req).srv.InBounds

-- ========================================================= the condition

/-- The entry `mr` is spelled by the first `k` bytes of `new` and, from
there on, by the bytes of `old`. -/
def Spells (k : Nat) (new old mr : MrPhyInfo) : Prop :=
  (SameFirst (min 8 k) new.phyaddr mr.phyaddr
      ∧ SameRest (min 8 k) old.phyaddr mr.phyaddr)
    ∧ (SameFirst (min 8 (k - 8)) new.vaddr mr.vaddr
      ∧ SameRest (min 8 (k - 8)) old.vaddr mr.vaddr)
    ∧ (SameFirst (min 4 (k - 16)) new.rkey mr.rkey
      ∧ SameRest (min 4 (k - 16)) old.rkey mr.rkey)
    ∧ SameFirst (min 4 (k - 20)) new.len mr.len
      ∧ SameRest (min 4 (k - 20)) old.len mr.len

/-- Removing the entry `i` of `srv` is harmless. With `behind` entries
after it, `behind / 32` of them move down whole and one more gives its
first `behind % 32` bytes: either there is nothing behind, or that cut
entry spells the last one (which is about to be dropped), or the last
one may go instead because it has the same key, and the cut entry spells
the entry `i` again. -/
def RemovalOk (srv : Server) (rkey : U32) (vaddr : U64) (i : Nat) : Prop :=
  let behind := srv.mrLen.toNat - 1 - i
  let cut := i + behind / sizeofMrPhyInfo
  let last := srv.mrPool (i + behind : Nat)
  let spells := Spells (behind % sizeofMrPhyInfo)
    (srv.mrPool (cut + 1 : Nat)) (srv.mrPool cut)
  behind = 0 ∨ spells last
    ∨ removeMatches rkey vaddr last = true ∧ spells (srv.mrPool i)

/-- The condition on one request and the pool it meets: room for a
write, a harmless match for a removal. -/
def RequestOk (srv : Server) (req : QpVaddr) : Prop :=
  if req.cmd = cmdWrite then
    srv.mrLen < mrCapacity
  else if req.cmd = cmdRemove then
    ∃ i, srv.scan (removeMatches req.rkey req.vaddr) = some i
      ∧ RemovalOk srv req.rkey req.vaddr i
  else
    True

-- ================================================= runs of pool entries

/-- The `n` entries from `a` on. -/
private def segment (mrPool : Int → MrPhyInfo) (a n : Nat) :
    List MrPhyInfo :=
  (List.range' a n).map fun i : Nat => mrPool i

private theorem entries_eq_segment (srv : Server) :
    srv.entries = segment srv.mrPool 0 srv.mrLen.toNat := by
  rw [Server.entries, segment, List.range_eq_range']

private theorem segment_add (mrPool : Int → MrPhyInfo) (a m n : Nat) :
    segment mrPool a (m + n)
      = segment mrPool a m ++ segment mrPool (a + m) n := by
  simp only [segment, ← List.map_append, List.range'_append_1]

private theorem segment_one (mrPool : Int → MrPhyInfo) (a : Nat) :
    segment mrPool a 1 = [mrPool a] := rfl

/-- Two pools agree on a run of entries when they agree on each, up to a
shift of the second. -/
private theorem segment_congr {p q : Int → MrPhyInfo} {a b n : Nat}
    (h : ∀ k < n, p (a + k : Nat) = q (b + k : Nat)) :
    segment p a n = segment q b n := by
  simp only [segment, List.range'_eq_map_range, List.map_map]
  refine List.map_congr_left fun k hk => ?_
  exact h k (List.mem_range.1 hk)

-- ======================================================== the byte move

theorem copyBytes_eq_iff {k : Nat} {new old mr : MrPhyInfo} :
    copyBytes k new old = mr ↔ Spells k new old mr := by
  rw [MrPhyInfo.ext_iff, Spells]
  simp only [copyBytes]
  rw [overlay_eq_iff (by omega), overlay_eq_iff (by omega),
    overlay_eq_iff (by omega), overlay_eq_iff (by omega)]

theorem copyBytes_full {k : Nat} (hk : sizeofMrPhyInfo ≤ k)
    (new old : MrPhyInfo) : copyBytes k new old = new := by
  unfold sizeofMrPhyInfo at hk
  refine MrPhyInfo.ext ?_ ?_ ?_ ?_
  · exact overlay_full (by omega) _ _
  · exact overlay_full (by omega) _ _
  · exact overlay_full (by omega) _ _
  · exact overlay_full (by omega) _ _

theorem copyBytes_none (new old : MrPhyInfo) :
    copyBytes 0 new old = old := by
  refine MrPhyInfo.ext ?_ ?_ ?_ ?_ <;> exact overlay_zero _ _

/-- An entry in front of the moved range, or behind it, stays. -/
private theorem memmoveDown_stays {mrPool : Int → MrPhyInfo}
    {i bytes k : Nat}
    (hk : k < i ∨ i + bytes / sizeofMrPhyInfo < k) :
    memmoveDown mrPool i bytes k = mrPool k := by
  unfold memmoveDown
  rcases hk with hfront | hbehind
  · rw [if_neg (by omega)]
  · have hzero : bytes - sizeofMrPhyInfo * ((k : Int).toNat - i) = 0 := by
      unfold sizeofMrPhyInfo at hbehind ⊢
      omega
    have hi : (i : Int) ≤ k := Int.ofNat_le.2 <| Nat.le_of_lt <|
      Nat.lt_of_le_of_lt (Nat.le_add_right _ _) hbehind
    rw [if_pos hi, hzero, copyBytes_none]

/-- The whole entries of the moved range come down. -/
private theorem memmoveDown_moves {mrPool : Int → MrPhyInfo}
    {i bytes k : Nat} (hi : i ≤ k)
    (hk : k < i + bytes / sizeofMrPhyInfo) :
    memmoveDown mrPool i bytes k = mrPool (k + 1 : Nat) := by
  unfold memmoveDown
  have hfull : sizeofMrPhyInfo
      ≤ bytes - sizeofMrPhyInfo * ((k : Int).toNat - i) := by
    unfold sizeofMrPhyInfo at hk ⊢
    omega
  rw [if_pos (by omega), copyBytes_full hfull, Nat.cast_add, Nat.cast_one]

/-- The entry the move stops in is cut. -/
private theorem memmoveDown_cut {mrPool : Int → MrPhyInfo}
    {i bytes : Nat} :
    memmoveDown mrPool i bytes (i + bytes / sizeofMrPhyInfo : Nat)
      = copyBytes (bytes % sizeofMrPhyInfo)
          (mrPool (i + bytes / sizeofMrPhyInfo + 1 : Nat))
          (mrPool (i + bytes / sizeofMrPhyInfo : Nat)) := by
  unfold memmoveDown
  have hcut : bytes - sizeofMrPhyInfo
      * (((i + bytes / sizeofMrPhyInfo : Nat) : Int).toNat - i)
        = bytes % sizeofMrPhyInfo := by
    unfold sizeofMrPhyInfo
    omega
  have hi : (i : Int) ≤ (i + bytes / sizeofMrPhyInfo : Nat) :=
    Int.ofNat_le.2 (Nat.le_add_right _ _)
  rw [if_pos hi, hcut, Nat.cast_add _ 1, Nat.cast_one]

-- ======================================================= one removal

/-- What a removal with `behind` entries after it leaves, counted
against what was there: the entry `i` and the last one are gone, and the
cut entry has come in. -/
private theorem segment_memmoveDown (mrPool : Int → MrPhyInfo)
    {i behind : Nat} (hpos : 0 < behind) :
    (segment (memmoveDown mrPool i behind) 0 (i + behind) : Multiset _)
        + {mrPool i, mrPool (i + behind : Nat)}
      = (segment mrPool 0 (i + behind + 1) : Multiset _)
        + {copyBytes (behind % sizeofMrPhyInfo)
            (mrPool (i + behind / sizeofMrPhyInfo + 1 : Nat))
            (mrPool (i + behind / sizeofMrPhyInfo : Nat))} := by
  obtain ⟨rest, hrest⟩ :
      ∃ rest, behind = behind / sizeofMrPhyInfo + 1 + rest :=
    ⟨behind - behind / sizeofMrPhyInfo - 1, by
      unfold sizeofMrPhyInfo; omega⟩
  -- the pool after the move, cut at the entry the move stops in
  have hafter : segment (memmoveDown mrPool i behind) 0 (i + behind)
      = segment mrPool 0 i
        ++ segment mrPool (i + 1) (behind / sizeofMrPhyInfo)
        ++ [copyBytes (behind % sizeofMrPhyInfo)
            (mrPool (i + behind / sizeofMrPhyInfo + 1 : Nat))
            (mrPool (i + behind / sizeofMrPhyInfo : Nat))]
        ++ segment mrPool (i + behind / sizeofMrPhyInfo + 1) rest := by
    have hlen : i + behind
        = i + behind / sizeofMrPhyInfo + 1 + rest := by omega
    rw [hlen, segment_add, segment_add, segment_add, segment_one]
    simp only [Nat.zero_add]
    rw [memmoveDown_cut]
    congr 1
    · congr 1
      congr 1
      · refine segment_congr fun k hk => ?_
        exact memmoveDown_stays (Or.inl (by omega))
      · refine segment_congr fun k hk => ?_
        rw [memmoveDown_moves (by omega) (by omega)]
        congr 2
        omega
    · refine segment_congr fun k hk => ?_
      exact memmoveDown_stays (Or.inr (by omega))
  -- the pool before it, cut at the removed entry and at the last one
  have hbefore : segment mrPool 0 (i + behind + 1)
      = segment mrPool 0 i ++ [mrPool i]
        ++ segment mrPool (i + 1) (behind / sizeofMrPhyInfo)
        ++ segment mrPool (i + behind / sizeofMrPhyInfo + 1) rest
        ++ [mrPool (i + behind : Nat)] := by
    have hlen : i + behind + 1
        = i + 1 + behind / sizeofMrPhyInfo + rest + 1 := by omega
    rw [hlen, segment_add, segment_add, segment_add, segment_add,
      segment_one, segment_one]
    simp only [Nat.zero_add]
    rw [show i + 1 + behind / sizeofMrPhyInfo
        = i + behind / sizeofMrPhyInfo + 1 by omega,
      show i + behind / sizeofMrPhyInfo + 1 + rest = i + behind by omega]
  rw [hafter, hbefore]
  simp only [← Multiset.coe_add, Multiset.coe_singleton,
    Multiset.insert_eq_cons, ← Multiset.singleton_add]
  abel

/-- Two pairs are the same multiset when they agree in some order. -/
private theorem pair_eq_pair_iff {α : Type*} {a b c d : α} :
    ({a, b} : Multiset α) = {c, d} ↔ a = c ∧ b = d ∨ a = d ∧ b = c := by
  simp only [Multiset.insert_eq_cons, Multiset.cons_eq_cons,
    Multiset.singleton_eq_cons_iff, Multiset.singleton_inj]
  constructor
  · intro h
    rcases h with ⟨rfl, rfl⟩ | ⟨-, cs, ⟨rfl, rfl⟩, rfl, -⟩
    · exact Or.inl ⟨rfl, rfl⟩
    · exact Or.inr ⟨rfl, rfl⟩
  · intro h
    rcases h with ⟨rfl, rfl⟩ | ⟨rfl, rfl⟩
    · exact Or.inl ⟨rfl, rfl⟩
    · by_cases hab : a = b
      · exact Or.inl ⟨hab, hab.symm⟩
      · exact Or.inr ⟨hab, 0, ⟨rfl, rfl⟩, rfl, rfl⟩

/-- The indices of a match at `i`: `behind` entries come after it. -/
private theorem exists_behind {srv : Server} {p : MrPhyInfo → Bool}
    {i : Nat} (hscan : srv.scan p = some i) :
    ∃ behind : Nat, srv.mrLen = i + behind + 1 := by
  obtain ⟨-, hi, -⟩ := Server.scan_eq_some.1 hscan
  exact ⟨srv.mrLen.toNat - 1 - i, by omega⟩

private theorem mem_entries {srv : Server} {k : Nat}
    (hk : k < srv.mrLen.toNat) : srv.mrPool k ∈ srv.entries :=
  List.mem_map.2 ⟨k, List.mem_range.2 hk, rfl⟩

/-- Removing the last entry: it is zeroed, and the pool ends before
it. -/
private theorem cons_entries_last {srv : Server} {req : QpVaddr} {i : Nat}
    (hscan : srv.scan (removeMatches req.rkey req.vaddr) = some i)
    (hlen : srv.mrLen = i + 1) :
    srv.mrPool i ::ₘ ((serverRemove srv req).entries : Multiset _)
      = srv.entries := by
  have hmove : srv.mrLen - (i : Int) - 1 = 0 := by omega
  have hn : srv.mrLen.toNat = i + 1 := by omega
  have hn' : (srv.mrLen - 1).toNat = i := by omega
  rw [serverRemove, hscan]
  simp only [bxroceRemoveMr, if_pos hmove]
  rw [entries_eq_segment, entries_eq_segment]
  simp only [hn, hn']
  rw [segment_add, segment_one, segment_congr (p := Function.update _ _ _)
    (q := srv.mrPool) (b := 0) fun k hk =>
      Function.update_of_ne (by omega) _ _]
  rw [Nat.zero_add, ← Multiset.coe_add, Multiset.coe_singleton,
    ← Multiset.singleton_add, add_comm]

/-- Removing an entry with others behind it: what is missing afterwards
is `mr` alone iff the cut entry makes up for the other one lost. -/
private theorem cons_entries_middle {srv : Server} {req : QpVaddr}
    {i behind : Nat}
    (hscan : srv.scan (removeMatches req.rkey req.vaddr) = some i)
    (hlen : srv.mrLen = i + behind + 1) (hpos : 0 < behind)
    (mr : MrPhyInfo) :
    let cut := copyBytes (behind % sizeofMrPhyInfo)
      (srv.mrPool (i + behind / sizeofMrPhyInfo + 1 : Nat))
      (srv.mrPool (i + behind / sizeofMrPhyInfo : Nat))
    mr ::ₘ ((serverRemove srv req).entries : Multiset _) = srv.entries
      ↔ mr = srv.mrPool i ∧ cut = srv.mrPool (i + behind : Nat)
        ∨ mr = srv.mrPool (i + behind : Nat) ∧ cut = srv.mrPool i := by
  intro cut
  have hmove : srv.mrLen - (i : Int) - 1 ≠ 0 := by omega
  have hbytes : (srv.mrLen - (i : Int) - 1).toNat = behind := by omega
  have hn : srv.mrLen.toNat = i + behind + 1 := by omega
  have hn' : (srv.mrLen - 1).toNat = i + behind := by omega
  rw [serverRemove, hscan]
  simp only [bxroceRemoveMr, if_neg hmove]
  rw [entries_eq_segment, entries_eq_segment]
  simp only [hn, hn', hbytes]
  rw [← pair_eq_pair_iff,
    ← add_left_inj {srv.mrPool i, srv.mrPool (i + behind : Nat)},
    Multiset.cons_add, segment_memmoveDown srv.mrPool hpos,
    ← Multiset.singleton_add, add_left_comm, add_right_inj,
    Multiset.singleton_add, Multiset.insert_eq_cons,
    Multiset.insert_eq_cons]

/-- A removal that found its entry takes a matching region out of the
registry, and no more, exactly when it is harmless. -/
theorem removal_exact {srv : Server} {req : QpVaddr} {i : Nat}
    (hscan : srv.scan (removeMatches req.rkey req.vaddr) = some i) :
    (∃ mr ∈ (srv.entries : Multiset _),
        removeMatches req.rkey req.vaddr mr = true
          ∧ mr ::ₘ ((serverRemove srv req).entries : Multiset _)
            = srv.entries)
      ↔ RemovalOk srv req.rkey req.vaddr i := by
  obtain ⟨hmatch, hi, -⟩ := Server.scan_eq_some.1 hscan
  obtain ⟨behind, hlen⟩ := exists_behind hscan
  have hbehind : srv.mrLen.toNat - 1 - i = behind := by omega
  unfold RemovalOk
  simp only [hbehind, ← copyBytes_eq_iff]
  by_cases hlast : behind = 0
  · subst hlast
    refine iff_of_true ?_ (Or.inl rfl)
    exact ⟨_, mem_entries hi, hmatch, cons_entries_last hscan hlen⟩
  have hpos : 0 < behind := Nat.pos_of_ne_zero hlast
  have hmiddle := cons_entries_middle hscan hlen hpos
  constructor
  · intro h
    obtain ⟨mr, -, hmr, heq⟩ := h
    refine Or.inr ?_
    rcases (hmiddle mr).1 heq with ⟨rfl, hcut⟩ | ⟨rfl, hcut⟩
    · exact Or.inl hcut
    · exact Or.inr ⟨hmr, hcut⟩
  · intro h
    rcases h with h | hcut | ⟨hmr, hcut⟩
    · exact absurd h hlast
    · exact ⟨_, mem_entries hi, hmatch, (hmiddle _).2 (Or.inl ⟨rfl, hcut⟩)⟩
    · exact ⟨_, mem_entries (by omega), hmr,
        (hmiddle _).2 (Or.inr ⟨rfl, hcut⟩)⟩

/-- A removal that found its entry shortens the pool by one. -/
private theorem mrLen_serverRemove {srv : Server} {req : QpVaddr} {i : Nat}
    (hscan : srv.scan (removeMatches req.rkey req.vaddr) = some i) :
    (serverRemove srv req).mrLen = srv.mrLen - 1 := by
  rw [serverRemove, hscan]
  simp only [bxroceRemoveMr]
  split <;> rfl

private theorem length_entries (srv : Server) :
    srv.entries.length = srv.mrLen.toNat := by
  simp [Server.entries]

/-- A removal without a match leaves the pool one entry short, or its
length negative. -/
private theorem removal_missed {srv : Server} {req : QpVaddr}
    (hb : srv.InBounds)
    (hscan : srv.scan (removeMatches req.rkey req.vaddr) = none) :
    (serverRemove srv req).entries.length ≠ srv.entries.length
      ∨ ¬ (serverRemove srv req).InBounds := by
  rw [length_entries, length_entries, serverRemove, hscan]
  obtain ⟨hlow, -⟩ := hb
  by_cases hzero : srv.mrLen = 0
  · refine Or.inr fun hb' => ?_
    have := hb'.1
    simp only at this
    omega
  · refine Or.inl ?_
    simp only
    omega

-- ============================================================ one write

/-- A write adds its region behind the last entry. -/
private theorem entries_serverWrite {srv : Server} (req : QpVaddr)
    (hb : srv.InBounds) :
    ((serverWrite srv req).entries : Multiset _)
      = (⟨req.phyaddr, req.vaddr, req.rkey, req.len⟩ : MrPhyInfo)
        ::ₘ srv.entries := by
  obtain ⟨n, hn⟩ := Int.eq_ofNat_of_zero_le hb.1
  have hlen : (srv.mrLen + 1).toNat = n + 1 := by omega
  have hlen' : srv.mrLen.toNat = n := by omega
  rw [entries_eq_segment, entries_eq_segment, serverWrite]
  simp only [hlen, hlen']
  rw [hn, segment_add, segment_one, segment_congr (p := Function.update _ _ _)
    (q := srv.mrPool) (b := 0) fun k hk =>
      Function.update_of_ne (by omega) _ _]
  rw [Nat.zero_add, Function.update_self, ← Multiset.coe_add,
    Multiset.coe_singleton, ← Multiset.singleton_add, add_comm]

-- ========================================================== one request

/-- What the request does to the pool, by command. -/
theorem srv_step (w : World) (req : Request) :
    (w.step req).srv
      = if req.vaddr.cmd = cmdWrite then serverWrite w.srv req.vaddr
        else if req.vaddr.cmd = cmdRemove then serverRemove w.srv req.vaddr
        else w.srv := by
  unfold World.step serverFun
  by_cases hread : req.vaddr.cmd = cmdRead
  · have hw : req.vaddr.cmd ≠ cmdWrite := by rw [hread]; decide
    have hr : req.vaddr.cmd ≠ cmdRemove := by rw [hread]; decide
    simp only [if_pos hread, if_neg hw, if_neg hr]
  · rw [if_neg hread]
    split
    · rfl
    · split <;> rfl

/-- The step lemma: one request keeps to the registry exactly when it
meets `RequestOk`. -/
theorem registry_kept_step {w : World} {req : Request}
    (hb : w.srv.InBounds) :
    w.RegistryKept req ↔ RequestOk w.srv req.vaddr := by
  unfold World.RegistryKept Registry.Step RequestOk
  rw [srv_step]
  by_cases hwrite : req.vaddr.cmd = cmdWrite
  · simp only [if_pos hwrite]
    constructor
    · intro h
      have := h.2.2
      simp only [serverWrite] at this
      omega
    · intro h
      refine ⟨entries_serverWrite req.vaddr hb, ?_⟩
      obtain ⟨hlow, -⟩ := hb
      unfold Server.InBounds serverWrite
      simp only
      omega
  by_cases hremove : req.vaddr.cmd = cmdRemove
  · simp only [if_neg hwrite, if_pos hremove]
    cases hscan : w.srv.scan
        (removeMatches req.vaddr.rkey req.vaddr.vaddr) with
    | none =>
        have hnone := Server.scan_eq_none.1 hscan
        refine iff_of_false (fun h => ?_) (fun h => ?_)
        · rcases removal_missed hb hscan with hlen | hbounds
          · rcases h.1 with ⟨mr, hmem, hmatch, -⟩ | ⟨-, heq⟩
            · rw [hnone mr hmem] at hmatch
              cases hmatch
            · exact hlen (congrArg Multiset.card heq)
          · exact hbounds h.2
        · obtain ⟨i, hi, -⟩ := h
          cases hi
    | some i =>
        obtain ⟨hmatch, hi, -⟩ := Server.scan_eq_some.1 hscan
        have hin : (serverRemove w.srv req.vaddr).InBounds := by
          obtain ⟨hlow, hhigh⟩ := hb
          unfold Server.InBounds
          rw [mrLen_serverRemove hscan]
          omega
        have hexact := removal_exact hscan
        constructor
        · intro h
          rcases h.1 with hfound | ⟨hnone, -⟩
          · exact ⟨i, rfl, hexact.1 hfound⟩
          · rw [hnone _ (mem_entries hi)] at hmatch
            cases hmatch
        · intro h
          obtain ⟨j, hj, hok⟩ := h
          obtain rfl : i = j := Option.some.inj hj
          exact ⟨Or.inl (hexact.2 hok), hin⟩
  · simp only [if_neg hwrite, if_neg hremove, true_and, iff_true]
    exact hb

-- ================================================================= runs

/-- The empty pool is within its bounds. -/
theorem inBounds_start : World.start.srv.InBounds := by
  unfold Server.InBounds
  decide

/-- The server keeps the registry over a run, from the empty pool, iff
every request of the run meets `RequestOk` where it is handled. -/
theorem registry_kept_iff (reqs : List Request) :
    Each World.step World.RegistryKept World.start reqs
      ↔ Each World.step (fun w req => RequestOk w.srv req.vaddr)
          World.start reqs :=
  each_iff_each_of_inv (I := fun w => w.srv.InBounds)
    (fun _ _ hb => registry_kept_step hb)
    (fun _ _ _ hkept => hkept.2) inBounds_start

/-- Two regions are registered and the first is removed again: one byte
moves, the removed region stays and the other one is gone. -/
theorem removal_moves_one_byte :
    let first : QpVaddr := ⟨cmdWrite, 1, 0x1000, 0x80001000, 0x100⟩
    let second : QpVaddr := ⟨cmdWrite, 2, 0x2000, 0x90002000, 0x200⟩
    let reqs : List Request :=
      [⟨0, first⟩, ⟨1, second⟩, ⟨0, { first with cmd := cmdRemove }⟩]
    (exec World.step World.start reqs).srv.entries
        = [⟨0x80001000, 0x1000, 1, 0x100⟩]
      ∧ ¬ Each World.step World.RegistryKept World.start reqs := by
  intro first second reqs
  have hentries : (exec World.step World.start reqs).srv.entries
      = [⟨0x80001000, 0x1000, 1, 0x100⟩] := by
    decide +kernel
  refine ⟨hentries, fun h => ?_⟩
  have hremove := h.2.2.1.1
  exact absurd hremove (by decide +kernel)

end BxRnic.Exchange
