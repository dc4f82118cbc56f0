/-
The consumer's side of a ring of `n` slots whose producer says through a
pointer register how far it has gone.

# Counters and pointers

The register holds an index; a write moves the pointer forward to it.
`Doorbell` counts instead what was posted and what was consumed in all,
so that how much the consumer owns is a difference (`owned`), and the two
registers are the counters modulo `n` (`wp`, `rp`).

# Keeping up

A producer that keeps indices of its own knows less: it may have filled
slots it has not posted, and does not see what was consumed since it last
looked. `Tracks` says that it is not wrong for all that. What is left
between its indices is then not the consumer's (`Tracks.notMem_owned`).
-/
import BxRnic.Lib.Ring

namespace BxRnic

open SlotRing

/-- What was posted and what was consumed, in all. -/
structure Doorbell where
  posted : Nat
  consumed : Nat
deriving DecidableEq

namespace Doorbell

variable {n idx : Nat} {d : Doorbell}

/-- The pointer is moved forward to an index, at most once round. -/
def ring (d : Doorbell) (n idx : Nat) : Doorbell :=
  { d with posted := d.posted + (idx + (n - d.posted % n)) % n }

/-- An entry is consumed, if there is one. -/
def consume (d : Doorbell) : Doorbell :=
  if d.consumed < d.posted then { d with consumed := d.consumed + 1 }
  else d

/-- The register of the producer's pointer. -/
def wp (d : Doorbell) (n : Nat) : Nat := d.posted % n

/-- The register of the consumer's pointer. -/
def rp (d : Doorbell) (n : Nat) : Nat := d.consumed % n

/-- The slots that are the consumer's. -/
def owned (d : Doorbell) (n : Nat) : List Nat :=
  slots n (d.consumed % n) (d.posted - d.consumed)

-- ============================================================ the pointer

@[simp] theorem consumed_ring : (d.ring n idx).consumed = d.consumed :=
  rfl

theorem le_posted_ring : d.posted ≤ (d.ring n idx).posted :=
  Nat.le_add_right _ _

/-- The way to the index ends at the index. -/
private theorem distance_modEq (hn : 0 < n) :
    d.posted + (idx + (n - d.posted % n)) ≡ idx [MOD n] := by
  have hlt := Nat.mod_lt d.posted hn
  have hdiv := Nat.mod_add_div d.posted n
  have heq : d.posted + (idx + (n - d.posted % n))
      = idx + n * (d.posted / n + 1) := by
    rw [Nat.mul_add, Nat.mul_one]
    omega
  rw [heq]
  exact Nat.add_mul_mod_self_left idx n _

/-- The register holds what was written to it, modulo the ring. -/
theorem wp_ring (hn : 0 < n) : (d.ring n idx).wp n = idx % n := by
  have hmod : d.posted + (idx + (n - d.posted % n)) % n
      ≡ d.posted + (idx + (n - d.posted % n)) [MOD n] :=
    Nat.ModEq.add_left _ (Nat.mod_modEq _ _)
  exact hmod.trans (distance_modEq hn)

/-- The pointer does not pass a place with that index. -/
theorem posted_ring_le (hn : 0 < n) {b : Nat} (hle : d.posted ≤ b)
    (hb : b % n = idx % n) : (d.ring n idx).posted ≤ b := by
  obtain ⟨e, rfl⟩ := Nat.exists_eq_add_of_le hle
  have hmod : idx + (n - d.posted % n) ≡ e [MOD n] :=
    Nat.ModEq.add_left_cancel' d.posted
      ((distance_modEq hn).trans (Nat.ModEq.symm hb))
  refine Nat.add_le_add_left ?_ d.posted
  rw [hmod]
  exact Nat.mod_le e n

theorem consumed_le_consume : d.consumed ≤ d.consume.consumed := by
  unfold consume
  split
  · exact Nat.le_succ _
  · exact Nat.le_refl _

@[simp] theorem posted_consume : d.consume.posted = d.posted := by
  unfold consume
  split
  · rfl
  · rfl

theorem consume_le (h : d.consumed ≤ d.posted) :
    d.consume.consumed ≤ d.consume.posted := by
  unfold consume
  split
  · rename_i hlt
    exact hlt
  · exact h

/-- The slot behind everything posted is not the consumer's, as long as
it is within one round of what was consumed. -/
theorem notMem_owned {b : Nat} (hconsumed : d.consumed ≤ d.posted)
    (hposted : d.posted ≤ b) (hb : b < d.consumed + n) :
    b % n ∉ d.owned n := by
  intro hmem
  obtain ⟨j, hj, heq⟩ := mem_slots.1 hmem
  rw [Nat.mod_add_mod] at heq
  -- two places with one index, less than a round apart
  have hzero := Nat.sub_mod_eq_zero_of_mod_eq heq.symm
  rw [Nat.mod_eq_of_lt (by omega)] at hzero
  omega

/-- What the consumer owns is in the ring. -/
theorem lt_of_mem_owned (hn : 0 < n) {i : Nat} (h : i ∈ d.owned n) :
    i < n := by
  obtain ⟨j, -, rfl⟩ := mem_slots.1 h
  exact Nat.mod_lt _ hn

-- =========================================================== keeping up

/-- The producer's indices are right about `built` entries filled, the
last of which may not be posted yet, and `seen` consumed, after which
more may have been. -/
structure Tracks (n head tail : Nat) (d : Doorbell) (built seen : Nat) :
    Prop where
  head_eq : head = built % n
  tail_eq : tail = seen % n
  seen_le : seen ≤ d.consumed
  consumed_le : d.consumed ≤ d.posted
  posted_le : d.posted ≤ built
  built_le : built ≤ seen + n

/-- An empty ring, at its start. -/
theorem tracks_start : Tracks n 0 0 ⟨0, 0⟩ 0 0 where
  head_eq := (Nat.zero_mod n).symm
  tail_eq := (Nat.zero_mod n).symm
  seen_le := Nat.le_refl 0
  consumed_le := Nat.le_refl 0
  posted_le := Nat.le_refl 0
  built_le := Nat.zero_le _

namespace Tracks

variable {head tail built seen : Nat}

/-- The consumer never owns more than the ring. -/
theorem inBounds (h : Tracks n head tail d built seen) :
    d.posted - d.consumed ≤ n := by
  have h₁ := h.seen_le
  have h₂ := h.posted_le
  have h₃ := h.built_le
  omega

/-- The producer looks how far the consumer is. -/
theorem look (h : Tracks n head tail d built seen) :
    Tracks n head (d.rp n) d built d.consumed where
  head_eq := h.head_eq
  tail_eq := rfl
  seen_le := Nat.le_refl _
  consumed_le := h.consumed_le
  posted_le := h.posted_le
  built_le := Nat.le_trans h.built_le
    (Nat.add_le_add_right h.seen_le n)

/-- The producer sees that the consumer has caught up. -/
theorem caughtUp (h : Tracks n head tail d built seen)
    (hmeet : head = tail) (hidle : d.posted = d.consumed)
    (hhead : d.consumed % n = head) :
    Tracks n head tail d d.posted d.posted where
  head_eq := by rw [hidle, hhead]
  tail_eq := by rw [hidle, hhead, hmeet]
  seen_le := Nat.le_of_eq hidle
  consumed_le := h.consumed_le
  posted_le := Nat.le_refl _
  built_le := Nat.le_add_right _ _

/-- The producer fills entries. -/
theorem fill (h : Tracks n head tail d built seen) {k : Nat}
    (hroom : built + k ≤ seen + n) :
    Tracks n ((head + k) % n) tail d (built + k) seen where
  head_eq := by rw [h.head_eq, Nat.mod_add_mod]
  tail_eq := h.tail_eq
  seen_le := h.seen_le
  consumed_le := h.consumed_le
  posted_le := Nat.le_trans h.posted_le (Nat.le_add_right _ _)
  built_le := hroom

/-- The pointer is moved forward to the index of a place that is filled:
to it, or short of it by rounds. -/
theorem ring (h : Tracks n head tail d built seen) (hn : 0 < n)
    {e idx : Nat} (hle : d.posted ≤ e) (hbuilt : e ≤ built)
    (hidx : e % n = idx % n) :
    Tracks n head tail (d.ring n idx) built seen where
  head_eq := h.head_eq
  tail_eq := h.tail_eq
  seen_le := h.seen_le
  consumed_le := Nat.le_trans h.consumed_le le_posted_ring
  posted_le := Nat.le_trans (posted_ring_le hn hle hidx) hbuilt
  built_le := h.built_le

/-- The pointer is moved forward to the head. -/
theorem ringHead (h : Tracks n head tail d built seen) (hn : 0 < n)
    {idx : Nat} (hidx : head = idx % n) :
    Tracks n head tail (d.ring n idx) built seen :=
  h.ring hn h.posted_le (Nat.le_refl _) (h.head_eq.symm.trans hidx)

/-- The pointer is moved forward to the end of the ring, which the
entries filled last have passed. -/
theorem ringEnd {k : Nat} (h : Tracks n head tail d (built + k) seen)
    (hn : 0 < n) (hle : d.posted ≤ built) (hwrap : n ≤ built % n + k) :
    Tracks n head tail (d.ring n n) (built + k) seen := by
  have hdiv := Nat.div_add_mod built n
  have hlt := Nat.mod_lt built hn
  -- the first multiple of `n` beyond what was filled before
  have hend : n * (built / n + 1) = n * (built / n) + n := by
    rw [Nat.mul_add, Nat.mul_one]
  refine h.ring hn (e := n * (built / n + 1)) (by omega) (by omega) ?_
  rw [Nat.mul_mod_right, Nat.mod_self]

/-- The producer goes back to what it has posted. -/
theorem back (h : Tracks n head tail d built seen) :
    Tracks n (d.wp n) tail d d.posted seen where
  head_eq := rfl
  tail_eq := h.tail_eq
  seen_le := h.seen_le
  consumed_le := h.consumed_le
  posted_le := Nat.le_refl _
  built_le := Nat.le_trans h.posted_le h.built_le

/-- The consumer goes on. -/
theorem consume (h : Tracks n head tail d built seen) :
    Tracks n head tail d.consume built seen where
  head_eq := h.head_eq
  tail_eq := h.tail_eq
  seen_le := Nat.le_trans h.seen_le consumed_le_consume
  consumed_le := consume_le h.consumed_le
  posted_le := by
    rw [posted_consume]
    exact h.posted_le
  built_le := h.built_le

/-- The head is as far ahead of the tail as there are entries. -/
theorem head_eq_next (h : Tracks n head tail d built seen) :
    head = (tail + (built - seen)) % n := by
  have h₁ := h.seen_le
  have h₂ := h.consumed_le
  have h₃ := h.posted_le
  rw [h.tail_eq, Nat.mod_add_mod, h.head_eq]
  congr 1
  omega

/-- The slots the producer has room for are not the consumer's. -/
theorem notMem_owned (h : Tracks n head tail d built seen) {j : Nat}
    (hroom : built + j < seen + n) : (head + j) % n ∉ d.owned n := by
  have h₁ := h.seen_le
  rw [h.head_eq, Nat.mod_add_mod]
  exact Doorbell.notMem_owned h.consumed_le
    (Nat.le_trans h.posted_le (Nat.le_add_right _ _)) (by omega)

end Tracks

end Doorbell

end BxRnic
