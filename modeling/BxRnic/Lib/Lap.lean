/-
Queues of slots that are filled in laps: the producer goes up from slot
0 and may start over at any time, leaving a note (`limit`) of where the
lap ended; the consumer follows, and starts over where the note says.

# What goes wrong

There is one note only. So the consumer loses the producer when

- a lap ends while the consumer is on it with nothing left to take: the
  producer is at slot 0 then, the consumer where the lap ended
  (`Lap.restart`);
- a lap ends while the consumer is still on the one before;
- the consumer starts over by the note of an earlier lap although this
  one goes further (`Lap.pop`).

And the producer reaches the slots of the last lap that have not been
taken, when it goes past the consumer (`Lap.push`). `Lap.Holds` is kept
by every other step.
-/
import Mathlib.Data.List.Basic

namespace BxRnic

-- ============================================================ the places

/-- The two sides and the note. -/
structure Lap where
  head : Nat
  tail : Nat
  limit : Nat

namespace Lap

/-- The producer has filled `k` more slots. -/
def push (l : Lap) (k : Nat) : Lap := { l with head := l.head + k }

/-- The consumer has taken a slot. -/
def pop (l : Lap) : Lap := { l with tail := (l.tail + 1) % l.limit }

/-- The producer starts over. -/
def restart (l : Lap) : Lap := { l with head := 0, limit := l.head }

/-- `ks` are the filled slots, oldest first, and the consumer will get to
them in this order. -/
inductive Holds : Lap → List Nat → Prop
  /-- Both sides are on the same lap. -/
  | same {head tail limit n : Nat} :
      tail < limit → head = tail + n →
      Holds ⟨head, tail, limit⟩ (List.range' tail n)
  /-- The consumer has finished the lap and started over. -/
  | ahead {limit : Nat} : 0 < limit → Holds ⟨limit, 0, limit⟩ []
  /-- The consumer is on the last lap still. -/
  | behind {head tail limit : Nat} :
      head ≤ tail → tail < limit →
      Holds ⟨head, tail, limit⟩
        (List.range' tail (limit - tail) ++ List.range' 0 head)

variable {l : Lap} {ks : List Nat}

/-- An empty queue. -/
theorem holds_start {limit : Nat} (h : 0 < limit) :
    Holds ⟨0, 0, limit⟩ [] :=
  .same (n := 0) h rfl

theorem Holds.limit_pos (h : l.Holds ks) : 0 < l.limit := by
  cases h with
  | same hlt _ => exact Nat.lt_of_le_of_lt (Nat.zero_le _) hlt
  | ahead hpos => exact hpos
  | behind _ hlt => exact Nat.lt_of_le_of_lt (Nat.zero_le _) hlt

-- =========================================================== the producer

/-- The producer has room for `k` slots: it is on the consumer's lap, or
it stays below the consumer. -/
def Room (l : Lap) (inUse k : Nat) : Prop :=
  l.tail + inUse = l.head ∨ l.head + k ≤ l.tail

instance (l : Lap) (inUse k : Nat) : Decidable (l.Room inUse k) :=
  inferInstanceAs (Decidable (_ ∨ _))

/-- The slots the producer fills come last. -/
theorem Holds.push (h : l.Holds ks) {k : Nat}
    (hroom : l.Room ks.length k) :
    (l.push k).Holds (ks ++ List.range' l.head k) := by
  cases h with
  | same hlt hhead =>
      subst hhead
      rw [List.range'_append_1]
      exact .same hlt (Nat.add_assoc _ _ _)
  | ahead hpos =>
      rcases hroom with hroom | hroom
      · simp at hroom
        omega
      · simp at hroom
        omega
  | @behind head tail limit hle hlt =>
      rcases hroom with hroom | hroom
      · simp at hroom
        omega
      · have hsplit : List.range' 0 head ++ List.range' head k
            = List.range' 0 (head + k) := by
          have happ := List.range'_append_1 (s := 0) (m := head) (n := k)
          rwa [Nat.zero_add] at happ
        rw [List.append_assoc, hsplit]
        exact .behind hroom hlt

/-- Nor are they in use. -/
theorem Holds.notMem_of_room (h : l.Holds ks) {k : Nat}
    (hroom : l.Room ks.length k) {i : Nat} (hle : l.head ≤ i)
    (hlt : i < l.head + k) : i ∉ ks := by
  intro hmem
  cases h with
  | same htail hhead =>
      rw [List.mem_range'_1] at hmem
      simp only at hle
      omega
  | ahead hpos => cases hmem
  | behind hbehind htail =>
      rw [List.mem_append, List.mem_range'_1, List.mem_range'_1] at hmem
      rcases hroom with hroom | hroom
      · simp at hroom
        omega
      · simp only at hroom hle hlt
        omega

-- =========================================================== the consumer

/-- The consumer takes the oldest slot, unless it goes by the note of an
earlier lap. -/
theorem Holds.pop {k : Nat} (h : l.Holds (k :: ks))
    (hnote : l.tail + 1 = l.limit → l.head ≤ l.limit) :
    k = l.tail ∧ l.pop.Holds ks := by
  generalize hall : k :: ks = all at h
  cases h with
  | @same head tail limit n hlt hhead =>
      obtain ⟨n, rfl⟩ : ∃ m, n = m + 1 := by
        cases n with
        | zero => cases hall
        | succ n => exact ⟨n, rfl⟩
      rw [List.range'_succ] at hall
      obtain ⟨rfl, rfl⟩ := List.cons.inj hall
      refine ⟨rfl, ?_⟩
      by_cases hlast : k + 1 = limit
      · -- the end of the lap, which goes no further
        have hle := hnote hlast
        simp only at hle
        obtain rfl : n = 0 := by omega
        have hend : head = limit := by omega
        unfold Lap.pop
        simp only [hlast, Nat.mod_self, hend]
        exact .ahead (by omega)
      · unfold Lap.pop
        simp only [Nat.mod_eq_of_lt (show k + 1 < limit by omega)]
        exact .same (by omega) (by omega)
  | ahead hpos => cases hall
  | @behind head tail limit hle hlt =>
      obtain ⟨n, hn⟩ : ∃ n, limit - tail = n + 1 :=
        ⟨limit - tail - 1, by omega⟩
      rw [hn, List.range'_succ, List.cons_append] at hall
      obtain ⟨rfl, rfl⟩ := List.cons.inj hall
      refine ⟨rfl, ?_⟩
      unfold Lap.pop
      by_cases hlast : k + 1 = limit
      · -- the consumer starts over, on the producer's lap
        obtain rfl : n = 0 := by omega
        simp only [hlast, Nat.mod_self, List.range'_zero, List.nil_append]
        exact .same (by omega) (Nat.zero_add _).symm
      · simp only [Nat.mod_eq_of_lt (show k + 1 < limit by omega)]
        obtain rfl : n = limit - (k + 1) := by omega
        exact .behind (by omega) (by omega)

-- ============================================================== the laps

/-- The lap may end: the consumer has finished it too, or has some of it
left to take and nothing else. -/
def Ends (l : Lap) (inUse : Nat) : Prop :=
  l.head = l.limit ∧ l.tail = 0 ∨ 0 < inUse ∧ l.tail + inUse = l.head

instance (l : Lap) (inUse : Nat) : Decidable (l.Ends inUse) :=
  inferInstanceAs (Decidable (_ ∨ _))

/-- The producer starts over, the filled slots stay. -/
theorem Holds.restart (h : l.Holds ks) (hends : l.Ends ks.length) :
    l.restart.Holds ks := by
  cases h with
  | @same head tail limit n hlt hhead =>
      have hn : 0 < n := by
        rcases hends with hends | hends
        · simp only at hends
          omega
        · simpa using hends.1
      have hlen : n = head - tail := by omega
      rw [hlen]
      have hbehind := Holds.behind (Nat.zero_le tail)
        (show tail < head by omega)
      rwa [List.range'_zero, List.append_nil] at hbehind
  | ahead hpos => exact holds_start hpos
  | behind hle hlt =>
      rcases hends with hends | hends
      · simp only at hends
        omega
      · simp at hends
        omega

end Lap

end BxRnic
