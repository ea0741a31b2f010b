/-
  File:      Vireo/Lib/Region.lean
  Subject:   REGIONS OF MEMORY as lists: reading a piece and writing a piece in place.
-/
import Mathlib.Data.List.Basic

namespace Vireo.Lib

open List

variable {α : Type*}

variable (l : List α)

/-- The `n` cells from `pos` on. -/
def slice (pos n : Nat) : List α := (l.drop pos).take n

/-- The region after `xs` was copied to `pos`. -/
def overwrite (pos : Nat) (xs : List α) : List α :=
  l.take pos ++ xs ++ l.drop (pos + xs.length)

@[simp]
theorem slice_zero (pos : Nat) : slice l pos 0 = [] := List.take_zero ..

theorem length_slice {l : List α} {pos n : Nat} (h : pos + n ≤ l.length) : (slice l pos n).length = n := by
  unfold slice
  rw [length_take, length_drop]
  omega

theorem slice_add (pos m n : Nat) : slice l pos (m + n) = slice l pos m ++ slice l (pos + m) n := by
  unfold slice
  rw [take_add, drop_drop]

theorem drop_slice (pos n k : Nat) : (slice l pos n).drop k = slice l (pos + k) (n - k) := by
  unfold slice
  rw [drop_take, drop_drop]

section Overwrite

variable {l xs : List α} {pos : Nat}

theorem length_overwrite (h : pos + xs.length ≤ l.length) : (overwrite l pos xs).length = l.length := by
  unfold overwrite
  rw [length_append, length_append, length_take, length_drop]
  omega

theorem drop_overwrite (h : pos ≤ l.length) :
    (overwrite l pos xs).drop pos = xs ++ l.drop (pos + xs.length) := by
  unfold overwrite
  rw [append_assoc]
  exact drop_left' (length_take_of_le h)

theorem slice_overwrite (h : pos ≤ l.length) : slice (overwrite l pos xs) pos xs.length = xs := by
  unfold slice
  rw [drop_overwrite h]
  exact take_left

theorem slice_overwrite_of_le {p n : Nat} (h : p + n ≤ pos) (hp : pos ≤ l.length) :
    slice (overwrite l pos xs) p n = slice l p n := by
  unfold slice overwrite
  have hlen : (l.take pos).length = pos := length_take_of_le hp
  rw [append_assoc, drop_append_of_le_length (by omega),
    take_append_of_le_length (by rw [length_drop]; omega), drop_take, take_take]
  congr 1
  omega

theorem slice_overwrite_of_ge {p n : Nat} (h : pos + xs.length ≤ p) (hp : pos ≤ l.length) :
    slice (overwrite l pos xs) p n = slice l p n := by
  obtain ⟨k, rfl⟩ := Nat.exists_eq_add_of_le h
  unfold slice
  rw [Nat.add_assoc, ← drop_drop, drop_overwrite hp, ← drop_drop, drop_left, drop_drop, Nat.add_assoc]

theorem overwrite_append (ys : List α) (h : pos ≤ l.length) :
    overwrite (overwrite l pos xs) (pos + xs.length) ys = overwrite l pos (xs ++ ys) := by
  have hlen : (l.take pos ++ xs).length = pos + xs.length := by
    rw [length_append, length_take_of_le h]
  unfold overwrite
  rw [take_left' hlen, append_assoc _ xs ys, length_append]
  congr 1
  rw [← drop_drop, drop_left' hlen, drop_drop, Nat.add_assoc]

@[simp]
theorem overwrite_nil : overwrite l pos [] = l := by
  simp [overwrite]

end Overwrite

end Vireo.Lib
