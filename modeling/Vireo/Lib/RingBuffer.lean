/-
  File:      Vireo/Lib/RingBuffer.lean
  Subject:   BOUNDED RING BUFFERS: a fixed array of cells with a head, a tail and a count.

  The indices move through the array and wrap at its end; the count tells a full buffer from an empty
  one. A cell that holds nothing is empty, so a cell that holds something owns it.
-/
import Mathlib.Data.List.Basic
import Mathlib.Data.Nat.ModEq
import Mathlib.Logic.Function.Basic

namespace Vireo.Lib

open Function

variable {τ : Type*}

/-- A ring buffer; `slots i` is meaningful for `i < capacity`. -/
structure RingBuffer (τ : Type*) where
  capacity : Nat
  slots : Nat → Option τ
  head : Nat
  tail : Nat
  count : Nat

namespace RingBuffer

/-- An empty buffer. -/
def empty (capacity : Nat) : RingBuffer τ := ⟨capacity, fun _ => none, 0, 0, 0⟩

/-- The next index, around the end. -/
def advance (r : RingBuffer τ) (i : Nat) : Nat := if i = r.capacity - 1 then 0 else i + 1

/-- Write at the tail. -/
def put (r : RingBuffer τ) (x : τ) : RingBuffer τ :=
  { r with
    slots := update r.slots r.tail (some x)
    tail := r.advance r.tail
    count := r.count + 1 }

/-- Clear the head. -/
def drop (r : RingBuffer τ) : RingBuffer τ :=
  { r with
    slots := update r.slots r.head none
    head := r.advance r.head
    count := r.count - 1 }

/-- Seen from the head, the cells hold `l` and then nothing. -/
structure Holds (r : RingBuffer τ) (l : List τ) : Prop where
  head_lt : r.head < r.capacity
  count_eq : r.count = l.length
  count_le : r.count ≤ r.capacity
  tail_eq : r.tail = (r.head + r.count) % r.capacity
  cells : ∀ i, i < r.capacity → r.slots ((r.head + i) % r.capacity) = l[i]?
  outside : ∀ i, r.capacity ≤ i → r.slots i = none

theorem holds_empty {capacity : Nat} (h : 0 < capacity) : (empty capacity : RingBuffer τ).Holds [] :=
  ⟨h, rfl, Nat.zero_le _, (Nat.mod_eq_of_lt h).symm, fun _ _ => rfl, fun _ _ => rfl⟩

theorem advance_eq {r : RingBuffer τ} {i : Nat} (h : i < r.capacity) :
    r.advance i = (i + 1) % r.capacity := by
  unfold advance
  split
  · rename_i hi
    have : i + 1 = r.capacity := by omega
    rw [this, Nat.mod_self]
  · exact (Nat.mod_eq_of_lt (by omega)).symm

theorem index_inj {c a i j : Nat} (hi : i < c) (hj : j < c) (h : (a + i) % c = (a + j) % c) : i = j := by
  have hm : i % c = j % c := Nat.ModEq.add_left_cancel' (n := c) a h
  rwa [Nat.mod_eq_of_lt hi, Nat.mod_eq_of_lt hj] at hm

namespace Holds

variable {r : RingBuffer τ} {l : List τ}

theorem pos (h : r.Holds l) : 0 < r.capacity := Nat.lt_of_le_of_lt (Nat.zero_le _) h.head_lt

theorem tail_lt (h : r.Holds l) : r.tail < r.capacity := by
  rw [h.tail_eq]
  exact Nat.mod_lt _ h.pos

theorem tail_empty (h : r.Holds l) (hroom : r.count < r.capacity) : r.slots r.tail = none := by
  rw [h.tail_eq, h.cells _ hroom, h.count_eq, List.getElem?_eq_none (le_refl _)]

/-- **Putting appends.** -/
theorem put (h : r.Holds l) (hroom : r.count < r.capacity) (x : τ) : (r.put x).Holds (l ++ [x]) := by
  refine ⟨h.head_lt, ?_, hroom, ?_, fun i hi => ?_, fun i hi => ?_⟩
  · show r.count + 1 = _
    rw [List.length_append, List.length_singleton, h.count_eq]
  · show r.advance r.tail = (r.head + (r.count + 1)) % r.capacity
    rw [advance_eq h.tail_lt, h.tail_eq, Nat.mod_add_mod, Nat.add_assoc]
  · show update r.slots r.tail (some x) ((r.head + i) % r.capacity) = _
    by_cases hic : i = r.count
    · rw [hic, ← h.tail_eq, update_self, h.count_eq, List.getElem?_concat_length]
    have hne : (r.head + i) % r.capacity ≠ r.tail := fun e => by
      rw [h.tail_eq] at e
      exact hic (index_inj hi hroom e)
    rw [update_of_ne hne, h.cells i hi]
    rw [h.count_eq] at hic
    by_cases hlt : i < l.length
    · rw [List.getElem?_append_left hlt]
    · rw [List.getElem?_eq_none (by omega),
        List.getElem?_eq_none (by rw [List.length_append, List.length_singleton]; omega)]
  · show update r.slots r.tail (some x) i = none
    have := h.tail_lt
    change r.capacity ≤ i at hi
    rw [update_of_ne (by omega)]
    exact h.outside i hi

theorem head_full {x : τ} (h : r.Holds (x :: l)) : r.slots r.head = some x := by
  have := h.cells 0 h.pos
  rwa [Nat.add_zero, Nat.mod_eq_of_lt h.head_lt] at this

/-- **Taking removes the first element.** -/
theorem take {x : τ} (h : r.Holds (x :: l)) : r.drop.Holds l := by
  have hcount := h.count_eq
  have hle := h.count_le
  rw [List.length_cons] at hcount
  have hadv : r.advance r.head = (r.head + 1) % r.capacity := advance_eq h.head_lt
  refine ⟨?_, ?_, ?_, ?_, fun i hi => ?_, fun i hi => ?_⟩
  · show r.advance r.head < r.capacity
    rw [hadv]
    exact Nat.mod_lt _ h.pos
  · show r.count - 1 = l.length
    omega
  · show r.count - 1 ≤ r.capacity
    omega
  · show r.tail = (r.advance r.head + (r.count - 1)) % r.capacity
    rw [h.tail_eq, hadv, Nat.mod_add_mod]
    congr 1
    omega
  · show update r.slots r.head none ((r.advance r.head + i) % r.capacity) = l[i]?
    change i < r.capacity at hi
    rw [hadv, Nat.mod_add_mod, Nat.add_assoc]
    by_cases hlast : i + 1 = r.capacity
    · -- once around: the cell that was cleared
      rw [Nat.add_comm 1 i, hlast, Nat.add_mod_right, Nat.mod_eq_of_lt h.head_lt,
        update_self, List.getElem?_eq_none (by omega)]
    · have hne : (r.head + (1 + i)) % r.capacity ≠ r.head := fun e => by
        have hz := index_inj (c := r.capacity) (a := r.head) (i := 1 + i) (j := 0) (by omega) h.pos
          (by rw [e, Nat.add_zero, Nat.mod_eq_of_lt h.head_lt])
        omega
      rw [update_of_ne hne, h.cells (1 + i) (by omega), Nat.add_comm 1 i, List.getElem?_cons_succ]
  · show update r.slots r.head none i = none
    have := h.head_lt
    change r.capacity ≤ i at hi
    rw [update_of_ne (by omega)]
    exact h.outside i hi

theorem ne_nil (h : r.Holds l) (hc : r.count ≠ 0) : ∃ x l', l = x :: l' := by
  cases l with
  | nil => exact absurd h.count_eq hc
  | cons x l => exact ⟨x, l, rfl⟩

end Holds

end RingBuffer

end Vireo.Lib
