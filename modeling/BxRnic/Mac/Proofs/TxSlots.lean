/-
What the logs of a channel say of the packets handed to the NIC.

Every descriptor that was posted stands for something (`TxSlot`): for a
context or for a mapping of its packet, and the last one of a packet for
the packet as a whole. `TxLogs.Kept` is what holds of the logs: packets
are freed and reported when their last descriptor is reclaimed, and a
mapping is undone, once, when its descriptor is. The logs change in three
ways that keep it: a failed packet is rolled back (`Kept.rolledBack`), a
descriptor is reclaimed (`Kept.reclaimed`) and a packet is accepted
(`Kept.accepted`).
-/
import BxRnic.Mac.Proofs.TxRollback

namespace BxRnic.Mac

-- ============================================================= the slots

/-- What a descriptor stands for. -/
structure TxSlot where
  skb : Nat
  bytes : U32
  /-- The number of its mapping; a context descriptor has none. -/
  mapping : Option Nat
  last : Bool
deriving DecidableEq

/-- How many of a packet's descriptors are for context. -/
def Accepted.contextCount (a : Accepted) : Nat := a.descCount - a.mapCount

/-- What descriptor `j` of a packet stands for. -/
def Accepted.slot (a : Accepted) (j : Nat) : TxSlot where
  skb := a.skb
  bytes := a.bytes
  mapping :=
    if j < a.contextCount then none
    else some (a.firstMap + (j - a.contextCount))
  last := j + 1 = a.descCount

def Accepted.slots (a : Accepted) : List TxSlot :=
  (List.range a.descCount).map a.slot

/-- The descriptor of a mapping. -/
theorem slot_mapping {a : Accepted} {j n : Nat}
    (h : (a.slot j).mapping = some n) :
    a.contextCount ≤ j ∧ n = a.firstMap + (j - a.contextCount) := by
  have hmapping : (if j < a.contextCount then none
    else some (a.firstMap + (j - a.contextCount))) = some n := h
  split at hmapping
  · cases hmapping
  · cases hmapping
    exact ⟨by omega, rfl⟩

/-- The slots of packets in a row. -/
def slotsOf (accepted : List Accepted) : List TxSlot :=
  accepted.flatMap Accepted.slots

def TxLogs.slots (logs : TxLogs) : List TxSlot := slotsOf logs.accepted

/-- Packets in a row, from position `start` on, each with a mapping for
its last descriptor. -/
def Placed : (start : Nat) → List Accepted → Prop
  | _, [] => True
  | start, a :: rest =>
      a.start = start ∧ 0 < a.mapCount ∧ a.mapCount ≤ a.descCount
        ∧ Placed (start + a.descCount) rest

section Slots

variable {accepted : List Accepted} {a : Accepted} {start : Nat}

theorem length_slots (a : Accepted) : a.slots.length = a.descCount := by
  rw [Accepted.slots, List.length_map, List.length_range]

theorem getElem?_slots {j : Nat} (hj : j < a.descCount) :
    a.slots[j]? = some (a.slot j) := by
  rw [Accepted.slots, List.getElem?_map, List.getElem?_range hj]
  rfl

theorem slotsOf_append (xs ys : List Accepted) :
    slotsOf (xs ++ ys) = slotsOf xs ++ slotsOf ys :=
  List.flatMap_append

theorem slotsOf_singleton (a : Accepted) : slotsOf [a] = a.slots :=
  List.flatMap_singleton _ _

theorem length_slotsOf (accepted : List Accepted) :
    (slotsOf accepted).length = (accepted.map (·.descCount)).sum := by
  induction accepted with
  | nil => rfl
  | cons a rest ih =>
    rw [slotsOf, List.flatMap_cons, List.length_append, length_slots,
      List.map_cons, List.sum_cons]
    exact congrArg (a.descCount + ·) ih

theorem length_slots_logs (logs : TxLogs) :
    logs.slots.length = logs.posted := length_slotsOf logs.accepted

theorem placed_append {xs ys : List Accepted} :
    Placed start (xs ++ ys)
      ↔ Placed start xs
        ∧ Placed (start + (xs.map (·.descCount)).sum) ys := by
  induction xs generalizing start with
  | nil =>
    rw [List.nil_append, List.map_nil, List.sum_nil, Nat.add_zero]
    exact ⟨fun h => ⟨trivial, h⟩, fun h => h.2⟩
  | cons x xs ih =>
    rw [List.cons_append, Placed, Placed, ih, List.map_cons,
      List.sum_cons, Nat.add_assoc]
    constructor
    · rintro ⟨hstart, hpos, hle, hxs, hys⟩
      exact ⟨⟨hstart, hpos, hle, hxs⟩, hys⟩
    · rintro ⟨⟨hstart, hpos, hle, hxs⟩, hys⟩
      exact ⟨hstart, hpos, hle, hxs, hys⟩

theorem Placed.count (h : Placed start accepted) (ha : a ∈ accepted) :
    a.mapCount ≤ a.descCount := by
  induction accepted generalizing start with
  | nil => exact absurd ha List.not_mem_nil
  | cons b rest ih =>
    obtain ⟨-, -, hle, hrest⟩ := h
    rcases List.mem_cons.1 ha with rfl | ha
    · exact hle
    · exact ih hrest ha

/-- Where the slots of a packet are. -/
theorem Placed.slot_at (h : Placed start accepted) (ha : a ∈ accepted)
    {j : Nat} (hj : j < a.descCount) :
    start ≤ a.start
      ∧ (slotsOf accepted)[a.start - start + j]? = some (a.slot j) := by
  induction accepted generalizing start with
  | nil => exact absurd ha List.not_mem_nil
  | cons b rest ih =>
    obtain ⟨hstart, -, -, hrest⟩ := h
    rw [slotsOf, List.flatMap_cons]
    rcases List.mem_cons.1 ha with rfl | ha
    · refine ⟨Nat.le_of_eq hstart.symm, ?_⟩
      rw [hstart, Nat.sub_self, Nat.zero_add,
        List.getElem?_append_left (by rw [length_slots]; exact hj)]
      exact getElem?_slots hj
    · obtain ⟨hafter, hat⟩ := ih hrest ha
      refine ⟨by omega, ?_⟩
      have hskip : a.start - start + j
          = b.slots.length + (a.start - (start + b.descCount) + j) := by
        rw [length_slots]
        omega
      rw [hskip, List.getElem?_append_right (Nat.le_add_right _ _),
        Nat.add_sub_cancel_left]
      exact hat

/-- The last slot of a packet, among its first `t`. -/
theorem filter_last_take (hpos : 0 < a.descCount) (t : Nat) :
    ((a.slots.take t).filter (·.last)).map (fun s => (s.skb, s.bytes))
      = if a.descCount ≤ t then [(a.skb, a.bytes)] else [] := by
  have hall : ∀ n, (((List.range n).map a.slot).filter (·.last)).map
        (fun s => (s.skb, s.bytes))
      = if a.descCount ≤ n then [(a.skb, a.bytes)] else [] := fun n => by
    induction n with
    | zero =>
      rw [if_neg (by omega)]
      rfl
    | succ n ih =>
      rw [List.range_succ, List.map_append, List.filter_append,
        List.map_append, ih]
      have hlast : (a.slot n).last = decide (n + 1 = a.descCount) := rfl
      rw [List.map_singleton, List.filter_singleton, hlast]
      rcases Nat.lt_trichotomy (n + 1) a.descCount with hlt | heq | hgt
      · rw [if_neg (by omega), if_neg (by omega), List.nil_append,
          decide_eq_false (by omega)]
        rfl
      · rw [if_neg (by omega), if_pos (by omega), List.nil_append,
          decide_eq_true heq]
        rfl
      · rw [if_pos (by omega), if_pos (by omega),
          decide_eq_false (by omega)]
        rfl
  rw [Accepted.slots, ← List.map_take, List.take_range, hall]
  refine if_congr ?_ rfl rfl
  omega

/-- The packets whose slots are all among the first. -/
theorem Placed.whole (h : Placed start accepted) (r : Nat) :
    (((slotsOf accepted).take (r - start)).filter (·.last)).map
        (fun s => (s.skb, s.bytes))
      = (accepted.filter fun a => a.start + a.descCount ≤ r).map
        fun a => (a.skb, a.bytes) := by
  induction accepted generalizing start with
  | nil =>
    rw [slotsOf, List.flatMap_nil, List.take_nil]
    rfl
  | cons a rest ih =>
    obtain ⟨hstart, hpos, hle, hrest⟩ := h
    have htake : r - start - a.descCount = r - (start + a.descCount) := by
      omega
    rw [slotsOf, List.flatMap_cons, List.take_append, length_slots, htake,
      List.filter_append, List.map_append,
      filter_last_take (by omega), List.filter_cons]
    have hih := ih hrest
    rw [slotsOf] at hih
    rw [hih]
    by_cases hin : a.start + a.descCount ≤ r
    · rw [if_pos (by omega), if_pos (decide_eq_true hin)]
      rfl
    · rw [if_neg (by omega), if_neg (by simpa using hin)]
      rfl

end Slots

-- =========================================================== the entries

/-- The call that undoes a mapping of number `n`. -/
def TxMapping.undo (m : TxMapping) (n : Nat) : TxUnmap :=
  ⟨some n, m.piece.src ≠ .linear, m.dma, m.piece.len⟩

/-- A call for a mapping that no accepted packet has. -/
def TxLogs.Foreign (logs : TxLogs) (u : TxUnmap) : Prop :=
  ∃ n, u.mapping = some n ∧ n < logs.maps.length
    ∧ ∀ s ∈ logs.slots, s.mapping ≠ some n

/-- An entry that holds nothing of an accepted packet. -/
structure TxLogs.Loose (logs : TxLogs) (d : TxDescData) : Prop where
  skb : d.skb = .none
  foreign : ∀ u ∈ d.unmapCalls, logs.Foreign u

/-- An entry holds what its descriptor stands for. -/
structure TxLogs.Holds (logs : TxLogs) (s : TxSlot) (d : TxDescData) :
    Prop where
  skb : d.skb = if s.last then some s.skb else .none
  bytes : s.last = true → d.bytes = s.bytes
  context : s.mapping = .none → ∀ u ∈ d.unmapCalls, logs.Foreign u
  mapping : ∀ n, s.mapping = some n →
    ∃ m, logs.maps[n]? = some m ∧ d.unmapCalls = [m.undo n]

/-- The packets whose last descriptors are reclaimed. -/
def TxLogs.lasts (logs : TxLogs) : List (Nat × U32) :=
  ((logs.slots.take logs.reclaimed).filter (·.last)).map
    fun s => (s.skb, s.bytes)

/-- Two descriptors are not for one mapping. -/
def TxSlot.Apart (s s' : TxSlot) : Prop :=
  ∀ n, s.mapping = some n → s'.mapping ≠ some n

/-- What holds of the logs. -/
structure TxLogs.Kept (logs : TxLogs) : Prop where
  placed : Placed 0 logs.accepted
  numbered : ∀ s ∈ logs.slots, ∀ n, s.mapping = some n →
    n < logs.maps.length
  apart : logs.slots.Pairwise TxSlot.Apart
  known : ∀ u ∈ logs.unmaps, ∃ n, u.mapping = some n
    ∧ n < logs.maps.length
  undone : ∀ k s n, logs.slots[k]? = some s → s.mapping = some n →
    ∃ m, logs.maps[n]? = some m ∧ m.skb = s.skb
      ∧ logs.unmaps.filter (fun u => u.mapping = some n)
        = if k < logs.reclaimed then [m.undo n] else []
  freed : logs.freed = logs.lasts.map (·.1)
  completed : logs.completedBytes = logs.lasts.map (·.2)
  sent : logs.sentBytes = logs.accepted.map (·.bytes)

-- =========================================================== the changes

section Changes

variable {logs : TxLogs} {new : List TxMapping} {u : TxUnmap}

/-- Logs with mappings made after them. -/
def TxLogs.mapped (logs : TxLogs) (new : List TxMapping) : TxLogs :=
  { logs with maps := logs.maps ++ new }

/-- Logs when a packet with these mappings is accepted. -/
def TxLogs.accept (logs : TxLogs) (a : Accepted) (new : List TxMapping) :
    TxLogs :=
  { logs with
    maps := logs.maps ++ new
    accepted := logs.accepted ++ [a]
    sentBytes := logs.sentBytes ++ [a.bytes] }

/-- Logs when a descriptor with this entry is reclaimed. -/
def TxLogs.reclaim (logs : TxLogs) (last : Bool) (d : TxDescData) :
    TxLogs :=
  { logs.unmapAll [d] with
    completedBytes :=
      if last then logs.completedBytes ++ [d.bytes]
      else logs.completedBytes
    reclaimed := logs.reclaimed + 1 }

theorem slots_accept (a : Accepted) :
    (logs.accept a new).slots = logs.slots ++ a.slots := by
  rw [TxLogs.slots, TxLogs.slots, TxLogs.accept, slotsOf_append,
    slotsOf_singleton]

theorem posted_accept (logs : TxLogs) (a : Accepted)
    (new : List TxMapping) :
    (logs.accept a new).posted = logs.posted + a.descCount := by
  rw [← length_slots_logs, slots_accept, List.length_append,
    length_slots_logs, length_slots]

/-- A slot, once a packet is accepted, is an old one or the packet's. -/
theorem slots_accept_cases {a : Accepted} {k : Nat} {s : TxSlot}
    (hk : (logs.accept a new).slots[k]? = some s) :
    logs.slots[k]? = some s
      ∨ ∃ j, j < a.descCount ∧ k = logs.posted + j ∧ s = a.slot j := by
  rw [slots_accept] at hk
  rcases Nat.lt_or_ge k logs.slots.length with hold | hnew
  · rw [List.getElem?_append_left hold] at hk
    exact Or.inl hk
  · rw [List.getElem?_append_right hnew, length_slots_logs] at hk
    rw [length_slots_logs] at hnew
    obtain ⟨hlt, -⟩ := List.getElem?_eq_some_iff.1 hk
    rw [length_slots] at hlt
    rw [getElem?_slots hlt] at hk
    exact Or.inr ⟨k - logs.posted, hlt, by omega,
      (Option.some.inj hk).symm⟩

theorem getElem?_mapped {n : Nat} {m : TxMapping}
    (h : logs.maps[n]? = some m) : (logs.maps ++ new)[n]? = some m := by
  obtain ⟨hlt, -⟩ := List.getElem?_eq_some_iff.1 h
  rw [List.getElem?_append_left hlt, h]

theorem TxLogs.Foreign.mapped (h : logs.Foreign u) :
    (logs.mapped new).Foreign u := by
  obtain ⟨n, hn, hlt, hnone⟩ := h
  refine ⟨n, hn, ?_, hnone⟩
  show n < (logs.maps ++ new).length
  rw [List.length_append]
  omega

theorem TxLogs.Loose.mapped {d : TxDescData} (h : logs.Loose d) :
    (logs.mapped new).Loose d :=
  ⟨h.skb, fun u hu => (h.foreign u hu).mapped⟩

theorem TxLogs.Holds.mapped {s : TxSlot} {d : TxDescData}
    (h : logs.Holds s d) : (logs.mapped new).Holds s d := by
  refine ⟨h.skb, h.bytes, fun hs u hu => (h.context hs u hu).mapped, ?_⟩
  intro n hn
  obtain ⟨m, hm, hcalls⟩ := h.mapping n hn
  exact ⟨m, getElem?_mapped hm, hcalls⟩

/-- The slots of a packet to come have numbers of their own. -/
theorem slot_numbers {a : Accepted} (hcount : a.mapCount ≤ a.descCount)
    {s : TxSlot} (hs : s ∈ a.slots) {n : Nat} (hn : s.mapping = some n) :
    a.firstMap ≤ n ∧ n < a.firstMap + a.mapCount := by
  obtain ⟨j, hj, rfl⟩ := List.mem_map.1 hs
  have hlt := List.mem_range.1 hj
  have hctx : a.contextCount = a.descCount - a.mapCount := rfl
  obtain ⟨hle, rfl⟩ := slot_mapping hn
  omega

theorem TxLogs.Foreign.accept (h : logs.Foreign u) {a : Accepted}
    (hfirst : a.firstMap = logs.maps.length)
    (hcount : a.mapCount ≤ a.descCount) :
    (logs.accept a new).Foreign u := by
  obtain ⟨n, hn, hlt, hnone⟩ := h
  refine ⟨n, hn, ?_, ?_⟩
  · show n < (logs.maps ++ new).length
    rw [List.length_append]
    omega
  · rw [slots_accept]
    refine List.forall_mem_append.2 ⟨hnone, fun s hs heq => ?_⟩
    have hnumbers := slot_numbers hcount hs heq
    omega

theorem TxLogs.Loose.accept {d : TxDescData} (h : logs.Loose d)
    {a : Accepted} (hfirst : a.firstMap = logs.maps.length)
    (hcount : a.mapCount ≤ a.descCount) :
    (logs.accept a new).Loose d :=
  ⟨h.skb, fun u hu => (h.foreign u hu).accept hfirst hcount⟩

theorem TxLogs.Holds.accept {s : TxSlot} {d : TxDescData}
    (h : logs.Holds s d) {a : Accepted}
    (hfirst : a.firstMap = logs.maps.length)
    (hcount : a.mapCount ≤ a.descCount) :
    (logs.accept a new).Holds s d := by
  refine ⟨h.skb, h.bytes,
    fun hs u hu => (h.context hs u hu).accept hfirst hcount, ?_⟩
  intro n hn
  obtain ⟨m, hm, hcalls⟩ := h.mapping n hn
  exact ⟨m, getElem?_mapped hm, hcalls⟩

/-- Calls for other mappings do not count. -/
theorem filter_foreign {calls : List TxUnmap} {n : Nat}
    (h : ∀ u ∈ calls, u.mapping ≠ some n) :
    calls.filter (fun u => u.mapping = some n) = [] :=
  List.filter_eq_nil_iff.2 fun u hu => by simpa using h u hu

/-- A failed packet is rolled back. -/
theorem TxLogs.Kept.rolledBack (h : logs.Kept) {ds : List TxDescData}
    (hds : ∀ d ∈ ds, (logs.mapped new).Loose d) :
    ((logs.mapped new).unmapAll ds).Kept := by
  have hcalls : ∀ u ∈ ds.flatMap (·.unmapCalls),
      (logs.mapped new).Foreign u := fun u hu => by
    obtain ⟨d, hd, hu⟩ := List.mem_flatMap.1 hu
    exact (hds d hd).foreign u hu
  have hfreed : ds.flatMap (·.skb.toList) = [] :=
    List.flatMap_eq_nil_iff.2 fun d hd => by rw [(hds d hd).skb]; rfl
  have hmore : ∀ n, n < logs.maps.length →
      n < (logs.maps ++ new).length := fun n hn => by
    rw [List.length_append]
    omega
  refine ⟨h.placed, fun s hs n hn => hmore n (h.numbered s hs n hn),
    h.apart, ?_, ?_, ?_, h.completed, h.sent⟩
  · refine List.forall_mem_append.2 ⟨fun u hu => ?_, fun u hu => ?_⟩
    · obtain ⟨n, hn, hlt⟩ := h.known u hu
      exact ⟨n, hn, hmore n hlt⟩
    · obtain ⟨n, hn, hlt, -⟩ := hcalls u hu
      exact ⟨n, hn, hlt⟩
  · intro k s n hk hn
    obtain ⟨m, hm, howner, hfilter⟩ := h.undone k s n hk hn
    refine ⟨m, getElem?_mapped hm, howner, ?_⟩
    show (logs.unmaps ++ _).filter _ = _
    rw [List.filter_append, hfilter, filter_foreign, List.append_nil]
    · rfl
    · intro u hu heq
      obtain ⟨n', hn', -, hnone⟩ := hcalls u hu
      rw [hn'] at heq
      cases heq
      exact hnone s (List.mem_of_getElem? hk) hn
  · show logs.freed ++ _ = _
    rw [hfreed, List.append_nil]
    exact h.freed

/-- One more descriptor. -/
theorem lasts_reclaim {s : TxSlot} {d : TxDescData}
    (hs : logs.slots[logs.reclaimed]? = some s) :
    (logs.reclaim s.last d).lasts
      = logs.lasts ++ if s.last then [(s.skb, s.bytes)] else [] := by
  show ((logs.slots.take (logs.reclaimed + 1)).filter (·.last)).map _ = _
  rw [List.take_add_one, hs, List.filter_append, List.map_append]
  refine congrArg (logs.lasts ++ ·) ?_
  rw [Option.toList_some, List.filter_singleton]
  cases s.last with
  | false => rfl
  | true => rfl

/-- The calls for a descriptor are for its mapping or for none of an
accepted packet. -/
theorem TxLogs.Kept.calls_apart (h : logs.Kept) {s s' : TxSlot}
    {d : TxDescData} {k k' n : Nat} (hs : logs.slots[k]? = some s)
    (hd : logs.Holds s d) (hs' : logs.slots[k']? = some s')
    (hn : s'.mapping = some n) (hne : k ≠ k') :
    ∀ u ∈ d.unmapCalls, u.mapping ≠ some n := by
  intro u hu heq
  cases hmapping : s.mapping with
  | none =>
    obtain ⟨n', hn', -, hnone⟩ := hd.context hmapping u hu
    rw [hn'] at heq
    cases heq
    exact hnone s' (List.mem_of_getElem? hs') hn
  | some n' =>
    obtain ⟨m, -, hcalls⟩ := hd.mapping n' hmapping
    rw [hcalls, List.mem_singleton] at hu
    rw [hu] at heq
    have hsame : n' = n := Option.some.inj heq
    subst hsame
    obtain ⟨hk, rfl⟩ := List.getElem?_eq_some_iff.1 hs
    obtain ⟨hk', rfl⟩ := List.getElem?_eq_some_iff.1 hs'
    have hpair := List.pairwise_iff_getElem.1 h.apart
    rcases Nat.lt_or_gt_of_ne hne with hlt | hgt
    · exact hpair k k' hk hk' hlt n' hmapping hn
    · exact hpair k' k hk' hk hgt n' hn hmapping

/-- A descriptor is reclaimed. -/
theorem TxLogs.Kept.reclaimed (h : logs.Kept) {s : TxSlot}
    {d : TxDescData} (hs : logs.slots[logs.reclaimed]? = some s)
    (hd : logs.Holds s d) : (logs.reclaim s.last d).Kept := by
  have hunmaps : (logs.reclaim s.last d).unmaps
      = logs.unmaps ++ d.unmapCalls :=
    congrArg (logs.unmaps ++ ·) (List.flatMap_singleton _ _)
  have hfreed : (logs.reclaim s.last d).freed
      = logs.freed ++ d.skb.toList :=
    congrArg (logs.freed ++ ·) (List.flatMap_singleton _ _)
  refine ⟨h.placed, h.numbered, h.apart, ?_, ?_, ?_, ?_, h.sent⟩
  · rw [hunmaps]
    refine List.forall_mem_append.2 ⟨h.known, fun u hu => ?_⟩
    cases hmapping : s.mapping with
    | none =>
      obtain ⟨n, hn, hlt, -⟩ := hd.context hmapping u hu
      exact ⟨n, hn, hlt⟩
    | some n =>
      obtain ⟨m, -, hcalls⟩ := hd.mapping n hmapping
      rw [hcalls, List.mem_singleton] at hu
      exact ⟨n, by rw [hu]; rfl,
        h.numbered s (List.mem_of_getElem? hs) n hmapping⟩
  · intro k s' n hk hn
    obtain ⟨m, hm, howner, hfilter⟩ := h.undone k s' n hk hn
    refine ⟨m, hm, howner, ?_⟩
    rw [hunmaps, List.filter_append, hfilter]
    show _ = if k < logs.reclaimed + 1 then _ else _
    by_cases hkr : k = logs.reclaimed
    · subst hkr
      obtain rfl : s = s' := Option.some.inj (hs.symm.trans hk)
      obtain ⟨m', hm', hcalls⟩ := hd.mapping n hn
      obtain rfl : m = m' := Option.some.inj (hm.symm.trans hm')
      rw [if_neg (Nat.lt_irrefl _), if_pos (Nat.lt_succ_self _), hcalls,
        List.nil_append]
      exact List.filter_cons_of_pos (decide_eq_true rfl)
    · rw [filter_foreign (h.calls_apart hs hd hk hn (Ne.symm hkr)),
        List.append_nil]
      exact if_congr (by omega) rfl rfl
  · rw [hfreed, h.freed, lasts_reclaim hs, List.map_append, hd.skb]
    cases s.last with
    | false => rfl
    | true => rfl
  · rw [lasts_reclaim hs, List.map_append, ← h.completed]
    show (if s.last then _ else _) = _
    cases hlast : s.last with
    | false => exact (List.append_nil _).symm
    | true =>
      exact congrArg (fun b => logs.completedBytes ++ [b])
        (hd.bytes hlast)

/-- A packet that comes is not done. -/
theorem lasts_accept (a : Accepted) (hdone : logs.reclaimed ≤ logs.posted) :
    (logs.accept a new).lasts = logs.lasts := by
  show (((logs.accept a new).slots.take logs.reclaimed).filter
    (·.last)).map _ = _
  rw [slots_accept, List.take_append_of_le_length
    (by rw [length_slots_logs]; exact hdone)]
  rfl

/-- A packet is accepted. -/
theorem TxLogs.Kept.accepted (h : logs.Kept) {a : Accepted}
    (hstart : a.start = logs.posted)
    (hfirst : a.firstMap = logs.maps.length)
    (hnew : a.mapCount = new.length) (hpos : 0 < a.mapCount)
    (hcount : a.mapCount ≤ a.descCount)
    (howner : ∀ m ∈ new, m.skb = a.skb)
    (hdone : logs.reclaimed ≤ logs.posted) :
    (logs.accept a new).Kept := by
  have hmaps : (logs.accept a new).maps.length
      = logs.maps.length + a.mapCount := by
    show (logs.maps ++ new).length = _
    rw [List.length_append, hnew]
  have hlen := length_slots_logs logs
  refine ⟨?_, ?_, ?_, ?_, ?_, ?_, ?_, ?_⟩
  · show Placed 0 (logs.accepted ++ [a])
    rw [placed_append, Nat.zero_add]
    exact ⟨h.placed, hstart, hpos, hcount, trivial⟩
  · rw [slots_accept, hmaps]
    refine List.forall_mem_append.2 ⟨fun s hs n hn => ?_,
      fun s hs n hn => ?_⟩
    · have hlt := h.numbered s hs n hn
      omega
    · have hnumbers := slot_numbers hcount hs hn
      omega
  · rw [slots_accept, List.pairwise_append]
    refine ⟨h.apart, ?_, fun s hs s' hs' n hn hn' => ?_⟩
    · rw [Accepted.slots, List.pairwise_map]
      refine List.pairwise_lt_range.imp ?_
      intro j j' hlt n hn hn'
      obtain ⟨hle, heq⟩ := slot_mapping hn
      obtain ⟨hle', heq'⟩ := slot_mapping hn'
      omega
    · have hlt := h.numbered s hs n hn
      have hnumbers := slot_numbers hcount hs' hn'
      omega
  · intro u hu
    obtain ⟨n, hn, hlt⟩ := h.known u hu
    exact ⟨n, hn, by omega⟩
  · rw [slots_accept]
    intro k s n hk hn
    rcases Nat.lt_or_ge k logs.slots.length with hold | hnewer
    · rw [List.getElem?_append_left hold] at hk
      obtain ⟨m, hm, hskb, hfilter⟩ := h.undone k s n hk hn
      exact ⟨m, getElem?_mapped hm, hskb, hfilter⟩
    · rw [List.getElem?_append_right hnewer] at hk
      have hs := List.mem_of_getElem? hk
      have hnumbers := slot_numbers hcount hs hn
      obtain ⟨j, -, rfl⟩ := List.mem_map.1 hs
      have hlt : n - logs.maps.length < new.length := by omega
      refine ⟨new[n - logs.maps.length], ?_,
        howner _ (List.getElem_mem hlt), ?_⟩
      · show (logs.maps ++ new)[n]? = _
        rw [List.getElem?_append_right (by omega),
          List.getElem?_eq_getElem hlt]
      · show _ = if k < logs.reclaimed then _ else _
        rw [if_neg (by omega)]
        refine filter_foreign fun u hu heq => ?_
        obtain ⟨n', hn', hless⟩ := h.known u hu
        rw [hn'] at heq
        have hsame := Option.some.inj heq
        omega
  · rw [lasts_accept a hdone]
    exact h.freed
  · rw [lasts_accept a hdone]
    exact h.completed
  · show logs.sentBytes ++ [a.bytes] = (logs.accepted ++ [a]).map _
    rw [h.sent, List.map_append]
    rfl

end Changes

end BxRnic.Mac
