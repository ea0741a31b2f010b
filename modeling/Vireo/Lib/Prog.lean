/-
  File:      Vireo/Lib/Prog.lean
  Subject:   PROGRAMS THAT MAY FAIL AND KEEP THEIR STATE WHEN THEY DO.

  A C function that threads a result code through its calls and leaves its objects changed on every
  exit is a `Prog`: a state function with a value or an error. Three ways of reasoning about one:

  * `wp` -- the weakest precondition for a normal and an error postcondition, with a rule for each
    way of putting programs together;
  * **`Keeps`** -- a preorder on states that every run respects, whatever its outcome;
  * **`Sim`** -- a forward simulation of an abstract program that may be lost: a run either ends in
    the abstract outcome, or fails after the environment did.
-/
import Mathlib.Logic.Basic

namespace Vireo.Lib

/-- A program over the state `σ` that returns a value or fails, and keeps the state when it does. -/
def Prog (ε σ α : Type) : Type := σ → Except ε α × σ

namespace Prog

variable {ε σ τ α β : Type}

instance : Monad (Prog ε σ) where
  pure a := fun s => (.ok a, s)
  bind p f := fun s =>
    match p s with
    | (.ok a, s') => f a s'
    | (.error e, s') => (.error e, s')

/-- Give up with an error. -/
def fail (e : ε) : Prog ε σ α := fun s => (.error e, s)

/-- Change the state. -/
def modify (f : σ → σ) : Prog ε σ Unit := fun s => (.ok (), f s)

variable (p : Prog ε σ α)

/-- Run `p`; on an error change the state before passing it on. -/
def onError (h : ε → σ → σ) : Prog ε σ α := fun s =>
  match p s with
  | (.ok a, s') => (.ok a, s')
  | (.error e, s') => (.error e, h e s')

/-- Rename the errors of `p`. -/
def mapError (g : ε → ε) : Prog ε σ α := fun s =>
  match p s with
  | (.ok a, s') => (.ok a, s')
  | (.error e, s') => (.error (g e), s')

/-- Run `p` and then `c` in any case; the first error is the one that counts. -/
def always (c : Prog ε σ Unit) : Prog ε σ α := fun s =>
  match p s with
  | (.ok a, s') =>
    match c s' with
    | (.ok _, s'') => (.ok a, s'')
    | (.error e, s'') => (.error e, s'')
  | (.error e, s') => (.error e, (c s').2)

instance : LawfulMonad (Prog ε σ) := by
  refine LawfulMonad.mk' (Prog ε σ) (fun p => ?_) (fun _ _ => rfl) (fun p f g => ?_)
  · funext s
    show (match p s with
      | (.ok a, s') => (Except.ok a, s')
      | (.error e, s') => (.error e, s')) = p s
    rcases p s with ⟨_ | _, _⟩ <;> rfl
  · funext s
    show (match (match p s with
      | (.ok a, s') => f a s'
      | (.error e, s') => (.error e, s')) with
      | (.ok b, s') => g b s'
      | (.error e, s') => (.error e, s')) = (match p s with
      | (.ok a, s') => (match f a s' with
        | (.ok b, s'') => g b s''
        | (.error e, s'') => (.error e, s''))
      | (.error e, s') => (.error e, s'))
    rcases p s with ⟨_ | _, _⟩ <;> rfl

@[simp]
theorem fail_bind (e : ε) (f : α → Prog ε σ β) : (fail e : Prog ε σ α) >>= f = fail e := rfl

/-! ## 1. Weakest preconditions -/

/-- `p` run in `s` ends in `Q` with a value or in `E` with an error. -/
def wp (Q : α → σ → Prop) (E : ε → σ → Prop) (s : σ) : Prop :=
  match p s with
  | (.ok a, s') => Q a s'
  | (.error e, s') => E e s'

variable {p : Prog ε σ α} {f : α → Prog ε σ β} {Q Q' : α → σ → Prop} {E E' : ε → σ → Prop} {s : σ}

theorem wp_of_ok {a : α} {t : σ} (h : p s = (.ok a, t)) (hq : Q a t) : wp p Q E s := by
  unfold wp
  rw [h]
  exact hq

theorem wp_of_error {e : ε} {t : σ} (h : p s = (.error e, t)) (he : E e t) : wp p Q E s := by
  unfold wp
  rw [h]
  exact he

theorem wp_cases (h : wp p Q E s) :
    (∃ a t, p s = (.ok a, t) ∧ Q a t) ∨ ∃ e t, p s = (.error e, t) ∧ E e t := by
  unfold wp at h
  split at h
  · rename_i a t heq
    exact .inl ⟨a, t, heq, h⟩
  · rename_i e t heq
    exact .inr ⟨e, t, heq, h⟩

theorem wp_congr {q : Prog ε σ α} {t : σ} (h : p s = q t) : wp p Q E s ↔ wp q Q E t := by
  unfold wp
  rw [h]

theorem wp_mono (h : wp p Q E s) (hq : ∀ a s', Q a s' → Q' a s') (he : ∀ e s', E e s' → E' e s') :
    wp p Q' E' s := by
  unfold wp at h ⊢
  split at h
  · exact hq _ _ h
  · exact he _ _ h

theorem wp_and (h : wp p Q E s) (h' : wp p Q' E' s) :
    wp p (fun a s' => Q a s' ∧ Q' a s') (fun e s' => E e s' ∧ E' e s') s := by
  unfold wp at h h' ⊢
  split <;> rename_i e <;> rw [e] at h h' <;> exact ⟨h, h'⟩

@[simp]
theorem wp_pure {a : α} : wp (pure a : Prog ε σ α) Q E s ↔ Q a s := .rfl

@[simp]
theorem wp_fail {e : ε} : wp (fail e : Prog ε σ α) Q E s ↔ E e s := .rfl

@[simp]
theorem wp_modify {g : σ → σ} {Q : Unit → σ → Prop} :
    wp (modify g : Prog ε σ Unit) Q E s ↔ Q () (g s) := .rfl

@[simp]
theorem wp_bind {Q : β → σ → Prop} : wp (p >>= f) Q E s ↔ wp p (fun a s' => wp (f a) Q E s') E s := by
  show (match (match p s with
    | (.ok a, s') => f a s'
    | (.error e, s') => (.error e, s')) with
    | (.ok a, s') => Q a s'
    | (.error e, s') => E e s') ↔ _
  unfold wp
  rcases p s with ⟨_ | _, _⟩ <;> exact .rfl

theorem wp_onError {h : ε → σ → σ} : wp (onError p h) Q E s ↔ wp p Q (fun e s' => E e (h e s')) s := by
  unfold wp onError
  rcases p s with ⟨_ | _, _⟩ <;> exact .rfl

theorem wp_mapError {g : ε → ε} : wp (mapError p g) Q E s ↔ wp p Q (fun e s' => E (g e) s') s := by
  unfold wp mapError
  rcases p s with ⟨_ | _, _⟩ <;> exact .rfl

theorem wp_always {c : Prog ε σ Unit} : wp (always p c) Q E s ↔
      wp p (fun a s' => wp c (fun _ s'' => Q a s'') E s')
        (fun e s' => wp c (fun _ s'' => E e s'') (fun _ s'' => E e s'') s') s := by
  unfold wp always
  rcases p s with ⟨_ | _, s'⟩ <;> dsimp only
  · rcases c s' with ⟨_ | _, _⟩ <;> exact .rfl
  · rcases c s' with ⟨_ | _, _⟩ <;> exact .rfl

/-! ## 2. What every run keeps -/

/-- Every run of `p`, failed or not, goes from a state to an `R`-later one. -/
def Keeps (R : σ → σ → Prop) (p : Prog ε σ α) : Prop := ∀ s, R s (p s).2

section Keeps

variable {R : σ → σ → Prop}

theorem Keeps.wp (h : Keeps R p) (s : σ) : wp p (fun _ s' => R s s') (fun _ s' => R s s') s := by
  have hs := h s
  unfold Prog.wp
  split <;> rename_i e <;> rw [e] at hs <;> exact hs

theorem Keeps.of_wp (h : ∀ s, Prog.wp p (fun _ s' => R s s') (fun _ s' => R s s') s) : Keeps R p := by
  intro s
  have hs := h s
  unfold Prog.wp at hs
  split at hs <;> rename_i e <;> rw [e] <;> exact hs

theorem Keeps.pure (hr : ∀ s, R s s) (a : α) : Keeps R (Pure.pure a : Prog ε σ α) := hr

theorem Keeps.fail (hr : ∀ s, R s s) (e : ε) : Keeps R (Prog.fail e : Prog ε σ α) := hr

theorem Keeps.bind (ht : ∀ a b c, R a b → R b c → R a c) (hp : Keeps R p)
    (hf : ∀ a, Keeps R (f a)) : Keeps R (p >>= f) := by
  refine .of_wp fun s => wp_bind.mpr ?_
  refine wp_mono (hp.wp s) (fun a s' h => ?_) (fun _ _ h => h)
  exact wp_mono ((hf a).wp s') (fun _ _ h' => ht _ _ _ h h') (fun _ _ h' => ht _ _ _ h h')

theorem Keeps.ite {c : Prop} [Decidable c] {q : Prog ε σ α} (hp : Keeps R p) (hq : Keeps R q) :
    Keeps R (if c then p else q) := by
  split
  · exact hp
  · exact hq

theorem Keeps.onError (ht : ∀ a b c, R a b → R b c → R a c) (hp : Keeps R p) {h : ε → σ → σ}
    (hh : ∀ e s, R s (h e s)) : Keeps R (onError p h) := by
  refine .of_wp fun s => wp_onError.mpr ?_
  exact wp_mono (hp.wp s) (fun _ _ h => h) (fun e s' h' => ht _ _ _ h' (hh e s'))

theorem Keeps.mapError (hp : Keeps R p) (g : ε → ε) : Keeps R (mapError p g) :=
  Keeps.of_wp fun s => wp_mapError.mpr (hp.wp s)

theorem Keeps.always (ht : ∀ a b c, R a b → R b c → R a c) (hp : Keeps R p)
    {c : Prog ε σ Unit} (hc : Keeps R c) : Keeps R (always p c) := by
  refine .of_wp fun s => wp_always.mpr ?_
  refine wp_mono (hp.wp s) (fun a s' h => ?_) (fun e s' h => ?_)
  · exact wp_mono (hc.wp s') (fun _ _ h' => ht _ _ _ h h') (fun _ _ h' => ht _ _ _ h h')
  · exact wp_mono (hc.wp s') (fun _ _ h' => ht _ _ _ h h') (fun _ _ h' => ht _ _ _ h h')

end Keeps

/-! ## 3. Simulation up to a lost environment -/

/-- How a concrete state stands for an abstract one: `quiet` states have a meaning `view` and can go
    on; a `calm` state has one too, and may be the end; a `lost` state has seen the environment fail;
    `keep` is what holds between any two states of a run. -/
structure Abstraction (σ τ : Type) where
  quiet : σ → Prop
  calm : σ → Prop
  lost : σ → Prop
  keep : σ → σ → Prop
  view : σ → τ
  quiet_calm : ∀ s, quiet s → calm s
  refl : ∀ s, keep s s
  trans : ∀ a b c, keep a b → keep b c → keep a c

/-- **`p` simulates `P`.** A run of `p` from a quiet state ends in the outcome of `P` on the views, or it
    fails and the environment is lost. -/
def Sim (A : Abstraction σ τ) (p : Prog ε σ α) (P : Prog ε τ α) : Prop :=
  ∀ s, A.quiet s → wp p
    (fun a s' => A.keep s s' ∧ A.quiet s' ∧ P (A.view s) = (.ok a, A.view s'))
    (fun e s' => A.keep s s' ∧ (A.lost s' ∨ (A.calm s' ∧ P (A.view s) = (.error e, A.view s')))) s

section Sim

variable {A : Abstraction σ τ} {P P' : Prog ε τ α} {F : α → Prog ε τ β}

theorem Sim.pure (a : α) : Sim A (Pure.pure a : Prog ε σ α) (Pure.pure a) :=
  fun s hs => ⟨A.refl s, hs, rfl⟩

theorem bind_ok {P : Prog ε τ α} {F : α → Prog ε τ β} {t t' : τ} {a : α}
    (h : P t = (.ok a, t')) : (P >>= F) t = F a t' := by
  show (match P t with
    | (.ok a, s') => F a s'
    | (.error e, s') => (.error e, s')) = _
  rw [h]

theorem bind_error {P : Prog ε τ α} {F : α → Prog ε τ β} {t t' : τ} {e : ε}
    (h : P t = (.error e, t')) : (P >>= F) t = (.error e, t') := by
  show (match P t with
    | (.ok a, s') => F a s'
    | (.error e, s') => (.error e, s')) = _
  rw [h]

theorem Sim.bind (hp : Sim A p P) (hf : ∀ a, Sim A (f a) (F a)) : Sim A (p >>= f) (P >>= F) := by
  intro s hs
  refine wp_bind.mpr (wp_mono (hp s hs) ?_ ?_)
  · rintro a s' ⟨hk, hq, e⟩
    refine wp_mono (hf a s' hq) ?_ ?_
    · rintro b s'' ⟨hk', hq', e'⟩
      exact ⟨A.trans _ _ _ hk hk', hq', (bind_ok e).trans e'⟩
    · rintro err s'' ⟨hk', h⟩
      refine ⟨A.trans _ _ _ hk hk', h.imp_right ?_⟩
      rintro ⟨hq', e'⟩
      exact ⟨hq', (bind_ok e).trans e'⟩
  · rintro err s' ⟨hk, h⟩
    refine ⟨hk, h.imp_right ?_⟩
    rintro ⟨hq, e⟩
    exact ⟨hq, bind_error e⟩

theorem Sim.ite {c : Prop} [Decidable c] {p' : Prog ε σ α} (ht : c → Sim A p P) (hf : ¬ c → Sim A p' P') :
    Sim A (if c then p else p') (if c then P else P') := by
  by_cases hc : c
  · rw [if_pos hc, if_pos hc]
    exact ht hc
  · rw [if_neg hc, if_neg hc]
    exact hf hc

theorem Sim.congr (h : Sim A p P) (he : ∀ s, A.quiet s → P' (A.view s) = P (A.view s)) : Sim A p P' := by
  intro s hs
  rw [he s hs]
  exact h s hs

end Sim

-- from here on the rules are used: unfolding `wp` would run the program
attribute [irreducible] wp

end Prog

end Vireo.Lib
