/-
  File:      Vireo/Lib/Action.lean
  Subject:   PROGRAMS THAT ALWAYS RETURN: a value and the next state.

  A C function that keeps its first failure in the object it works on, and returns at every exit, is
  an `Action`: a state function with a value. Two ways of reasoning about one:

  * **`Triple`** -- a precondition and a postcondition of value and state, with a rule for each way of
    putting actions together;
  * `Keeps` -- a preorder on states that every run respects.
-/
import Mathlib.Logic.Basic

namespace Vireo.Lib

/-- A program over the state `σ` that returns a value. -/
def Action (σ α : Type) : Type := σ → α × σ

namespace Action

variable {σ α β : Type}

instance : Monad (Action σ) where
  pure a := fun s => (a, s)
  bind m f := fun s => f (m s).1 (m s).2

/-- Change the state. -/
def modify (f : σ → σ) : Action σ Unit := fun s => ((), f s)

/-- Read from the state. -/
def read (f : σ → α) : Action σ α := fun s => (f s, s)

/-- Run `m` only if `c` holds. -/
def when (c : Prop) [Decidable c] (m : Action σ Unit) : Action σ Unit := if c then m else pure ()

/-- `a && b`: the second is only run when the first holds. -/
def both (m n : Action σ Bool) : Action σ Bool := do
  let b ← m
  if b then n else pure false

/-- `a || b`: the second is only run when the first does not hold. -/
def either (m n : Action σ Bool) : Action σ Bool := do
  let b ← m
  if b then pure true else n

/-! ## 1. Triples -/

/-- Every run of `m` from a state with `P` ends with a value and a state in `Q`. -/
def Triple (P : σ → Prop) (m : Action σ α) (Q : α → σ → Prop) : Prop :=
  ∀ s, P s → Q (m s).1 (m s).2

section Rules

variable {P P' : σ → Prop} {Q Q' : α → σ → Prop} {m : Action σ α}

theorem Triple.pure {a : α} (h : ∀ s, P s → Q a s) : Triple P (Pure.pure a) Q := h

theorem Triple.modify {Q : Unit → σ → Prop} {f : σ → σ} (h : ∀ s, P s → Q () (f s)) :
    Triple P (Action.modify f) Q := h

theorem Triple.read {f : σ → α} (h : ∀ s, P s → Q (f s) s) : Triple P (Action.read f) Q := h

theorem Triple.bind {f : α → Action σ β} {R : β → σ → Prop} (hm : Triple P m Q)
    (hf : ∀ a, Triple (Q a) (f a) R) : Triple P (m >>= f) R :=
  fun s hs => hf _ _ (hm s hs)

theorem Triple.ite {c : Prop} [Decidable c] {m' : Action σ α} (ht : c → Triple P m Q)
    (hf : ¬ c → Triple P m' Q) : Triple P (if c then m else m') Q := by
  split
  · exact ht ‹_›
  · exact hf ‹_›

theorem Triple.when {Q : Unit → σ → Prop} {c : Prop} [Decidable c] {m : Action σ Unit}
    (ht : c → Triple P m Q) (hf : ¬ c → ∀ s, P s → Q () s) : Triple P (Action.when c m) Q :=
  Triple.ite ht fun hc => .pure (hf hc)

theorem Triple.mono (h : Triple P m Q) (hp : ∀ s, P' s → P s) (hq : ∀ a s, Q a s → Q' a s) :
    Triple P' m Q' :=
  fun s hs => hq _ _ (h s (hp s hs))

theorem Triple.post (h : Triple P m Q) (hq : ∀ a s, Q a s → Q' a s) : Triple P m Q' :=
  h.mono (fun _ hs => hs) hq

theorem Triple.pre (h : Triple P m Q) (hp : ∀ s, P' s → P s) : Triple P' m Q :=
  h.mono hp fun _ _ hq => hq

theorem Triple.exists {ι : Sort*} {P : ι → σ → Prop} (h : ∀ i, Triple (P i) m Q) :
    Triple (fun s => ∃ i, P i s) m Q :=
  fun s ⟨i, hs⟩ => h i s hs

theorem Triple.assume {φ : Prop} (h : φ → Triple P m Q) : Triple (fun s => φ ∧ P s) m Q :=
  fun s hs => h hs.1 s hs.2

end Rules

/-! ## 2. What every run keeps -/

/-- Every run of `m` goes from a state to an `R`-later one. -/
def Keeps (R : σ → σ → Prop) (m : Action σ α) : Prop := ∀ s, R s (m s).2

section Keeps

variable {R : σ → σ → Prop} {m : Action σ α} {f : α → Action σ β}

theorem Keeps.pure (hr : ∀ s, R s s) (a : α) : Keeps R (Pure.pure a : Action σ α) := hr

theorem Keeps.read (hr : ∀ s, R s s) (f : σ → α) : Keeps R (Action.read f) := hr

theorem Keeps.modify {f : σ → σ} (h : ∀ s, R s (f s)) : Keeps R (Action.modify f) := h

theorem Keeps.bind (ht : ∀ a b c, R a b → R b c → R a c) (hm : Keeps R m)
    (hf : ∀ a, Keeps R (f a)) : Keeps R (m >>= f) :=
  fun s => ht _ _ _ (hm s) (hf _ _)

theorem Keeps.ite {c : Prop} [Decidable c] {m' : Action σ α} (ht : Keeps R m) (hf : Keeps R m') :
    Keeps R (if c then m else m') := by
  split
  · exact ht
  · exact hf

theorem Keeps.when (hr : ∀ s, R s s) {c : Prop} [Decidable c] {m : Action σ Unit} (h : Keeps R m) :
    Keeps R (Action.when c m) :=
  Keeps.ite h (.pure hr ())

theorem Keeps.triple (h : Keeps R m) (s₀ : σ) (ht : ∀ a b c, R a b → R b c → R a c) :
    Triple (R s₀) m fun _ s => R s₀ s :=
  fun s hs => ht _ _ _ hs (h s)

end Keeps

end Action

end Vireo.Lib
