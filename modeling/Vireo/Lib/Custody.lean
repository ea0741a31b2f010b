/-
  File:      Vireo/Lib/Custody.lean
  Subject:   CUSTODY: every live resource has exactly one holder.

  Holders and resources are arbitrary types; a holder has at most one resource. `Custody holds
  live` says that whoever holds something holds a live resource, that nobody else holds it, and
  that every live resource is held. A resource is taken in when it is created, handed on, and
  given up when it is destroyed:

  * **`Custody.take`**, **`Custody.hand`**, **`Custody.drop`** -- the three moves keep custody;
  * `Custody.existsUnique` -- the property in one sentence.
-/
import Mathlib.Logic.Function.Basic
import Mathlib.Tactic.Tauto

namespace Vireo.Lib

open Function

variable {H R : Type*}

/-- Every live resource has exactly one holder, and only live resources are held. -/
structure Custody (holds : H → Option R) (live : R → Prop) : Prop where
  sound : ∀ h r, holds h = some r → live r
  unique : ∀ h h' r, holds h = some r → holds h' = some r → h = h'
  total : ∀ r, live r → ∃ h, holds h = some r

namespace Custody

variable {holds : H → Option R} {live : R → Prop} {r : R}

theorem existsUnique (c : Custody holds live) (hr : live r) : ∃! h, holds h = some r := by
  obtain ⟨h, e⟩ := c.total r hr
  exact ⟨h, e, fun h' e' => c.unique h' h r e' e⟩

variable [DecidableEq H]

/-- A new resource is taken by a holder with empty hands. -/
theorem take (c : Custody holds live) {h : H} (hr : ¬ live r) (he : holds h = none) {live' : R → Prop}
    (hl : ∀ x, live' x ↔ live x ∨ x = r) :
    Custody (update holds h (some r)) live' := by
  have key : ∀ k x, update holds h (some r) k = some x → (k ≠ h ∧ holds k = some x) ∨ (k = h ∧ x = r) := by
    intro k x e
    by_cases hk : k = h
    · rw [hk, update_self] at e
      exact .inr ⟨hk, (Option.some.inj e).symm⟩
    · rw [update_of_ne hk] at e
      exact .inl ⟨hk, e⟩
  refine ⟨fun k x e => ?_, fun k k' x e e' => ?_, fun x hx => ?_⟩
  · rcases key k x e with ⟨-, e⟩ | ⟨-, rfl⟩
    · exact (hl x).mpr (.inl (c.sound k x e))
    · exact (hl x).mpr (.inr rfl)
  · rcases key k x e with ⟨-, e⟩ | ⟨hk, hx⟩ <;> rcases key k' x e' with ⟨-, e'⟩ | ⟨hk', hx'⟩
    · exact c.unique k k' x e e'
    · exact absurd (c.sound k x e) (hx' ▸ hr)
    · exact absurd (c.sound k' x e') (hx ▸ hr)
    · rw [hk, hk']
  · rcases (hl x).mp hx with hx | rfl
    · obtain ⟨k, e⟩ := c.total x hx
      refine ⟨k, ?_⟩
      rw [update_of_ne (fun ek => by rw [ek, he] at e; cases e)]
      exact e
    · exact ⟨h, update_self _ _ _⟩

theorem drop (c : Custody holds live) {h : H} (he : holds h = some r) {live' : R → Prop}
    (hl : ∀ x, live' x ↔ live x ∧ x ≠ r) :
    Custody (update holds h none) live' := by
  have key : ∀ k x, update holds h none k = some x → k ≠ h ∧ holds k = some x := by
    intro k x e
    by_cases hk : k = h
    · rw [hk, update_self] at e
      cases e
    · rw [update_of_ne hk] at e
      exact ⟨hk, e⟩
  refine ⟨fun k x e => ?_, fun k k' x e e' => ?_, fun x hx => ?_⟩
  · obtain ⟨hk, e⟩ := key k x e
    refine (hl x).mpr ⟨c.sound k x e, fun ex => hk ?_⟩
    exact c.unique k h x e (ex ▸ he)
  · exact c.unique k k' x (key k x e).2 (key k' x e').2
  · obtain ⟨hx, hne⟩ := (hl x).mp hx
    obtain ⟨k, e⟩ := c.total x hx
    refine ⟨k, ?_⟩
    rw [update_of_ne (fun ek => hne ?_)]
    · exact e
    · rw [ek, he] at e
      exact (Option.some.inj e).symm

theorem hand (c : Custody holds live) {h h' : H} (he : holds h = some r) (he' : holds h' = none) :
    Custody (update (update holds h none) h' (some r)) live := by
  have hd : Custody (update holds h none) fun x => live x ∧ x ≠ r :=
    c.drop he fun _ => .rfl
  refine hd.take (fun hr => hr.2 rfl) ?_ fun x => ?_
  · by_cases hh : h' = h
    · rw [hh, update_self]
    · rw [update_of_ne hh, he']
  · refine ⟨fun hx => ?_, ?_⟩
    · by_cases ex : x = r
      · exact .inr ex
      · exact .inl ⟨hx, ex⟩
    · rintro (hx | rfl)
      · exact hx.1
      · exact c.sound h x he

end Custody

end Vireo.Lib
