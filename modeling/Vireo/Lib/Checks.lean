/-
  File:      Vireo/Lib/Checks.lean
  Subject:   A ROW OF CHECKS that ends at the first refusal.
-/
import Mathlib.Logic.Basic

namespace Vireo.Lib

variable {ε δ α β : Type}

/-- Go on only in this case. -/
def require (c : Prop) [Decidable c] (e : ε) : Except ε Unit := if c then .ok () else .error e

/-- The refusal of a call in other words. -/
def refusing (f : δ → ε) (x : Except δ α) : Except ε α :=
  match x with
  | .ok a => .ok a
  | .error d => .error (f d)

theorem bind_eq_ok {x : Except ε α} {f : α → Except ε β} {b : β} :
    (x >>= f) = .ok b ↔ ∃ a, x = .ok a ∧ f a = .ok b := by
  cases x with
  | error e =>
    refine ⟨fun h => (by cases h), ?_⟩
    rintro ⟨a, h, -⟩
    cases h
  | ok a => exact ⟨fun h => ⟨a, rfl, h⟩, fun ⟨a', h, hf⟩ => by cases h; exact hf⟩

theorem require_eq_ok {c : Prop} [Decidable c] {e : ε} {u : Unit} : require c e = .ok u ↔ c := by
  unfold require
  by_cases h : c <;> simp [h]

theorem refusing_eq_ok {f : δ → ε} {x : Except δ α} {a : α} : refusing f x = .ok a ↔ x = .ok a := by
  cases x <;> simp [refusing]

/-! ## Refusals -/

/-- Every refusal of a row is of this kind. -/
def RefusesWith (P : ε → Prop) (x : Except ε α) : Prop := ∀ e, x = .error e → P e

section RefusesWith

variable {P : ε → Prop}

theorem RefusesWith.ok (a : α) : RefusesWith P (.ok a : Except ε α) := fun _ h => by cases h

theorem RefusesWith.error {e : ε} (h : P e) : RefusesWith P (.error e : Except ε α) := fun _ h' => by
  cases h'
  exact h

theorem RefusesWith.bind {x : Except ε α} {f : α → Except ε β} (hx : RefusesWith P x) (hf : ∀ a, RefusesWith P (f a)) :
    RefusesWith P (x >>= f) := by
  cases x with
  | error e => exact fun e' h => hx e' (by cases h; rfl)
  | ok a => exact hf a

theorem RefusesWith.require {c : Prop} [Decidable c] {e : ε} (h : P e) : RefusesWith P (require c e) := by
  unfold Lib.require
  split
  · exact .ok _
  · exact .error h

theorem RefusesWith.refusing {f : δ → ε} {x : Except δ α} (h : ∀ d, P (f d)) : RefusesWith P (refusing f x) := by
  cases x with
  | ok a => exact .ok a
  | error d => exact .error (h d)

end RefusesWith

end Vireo.Lib
