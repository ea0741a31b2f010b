/-
  File:      Vireo/Lib/EventLog.lean
  Subject:   LAWS OF AN EVENT LOG: what is asked of every event, given the events before it.
-/
import Mathlib.Data.List.Basic

namespace Vireo.Lib

open List

variable {ε : Type*} {law : List ε → ε → Prop} {log more : List ε} {e : ε}

/-- Every event of the log is allowed after the events before it. -/
def Lawful (law : List ε → ε → Prop) (log : List ε) : Prop :=
  ∀ before e after, log = before ++ e :: after → law before e

@[simp]
theorem lawful_nil : Lawful law [] := fun before e after h => by
  cases before <;> cases h

@[simp]
theorem lawful_cons : Lawful law (e :: more) ↔ law [] e ∧ Lawful (fun before => law (e :: before)) more := by
  constructor
  · intro h
    exact ⟨h [] e more rfl, fun before e' after hs => h (e :: before) e' after (congrArg (e :: ·) hs)⟩
  · rintro ⟨he, h⟩ before e' after hs
    cases before with
    | nil =>
      obtain ⟨rfl, rfl⟩ := List.cons.inj hs
      exact he
    | cons x before =>
      obtain ⟨rfl, hrest⟩ := List.cons.inj hs
      exact h before e' after hrest

theorem lawful_append :
    Lawful law (log ++ more) ↔ Lawful law log ∧ Lawful (fun before => law (log ++ before)) more := by
  induction log generalizing law with
  | nil => exact (and_iff_right lawful_nil).symm
  | cons x log ih =>
    rw [cons_append, lawful_cons, lawful_cons, ih, and_assoc]
    rfl

theorem Lawful.snoc (h : Lawful law log) (he : law log e) : Lawful law (log ++ [e]) := by
  refine lawful_append.mpr ⟨h, lawful_cons.mpr ⟨?_, lawful_nil⟩⟩
  rw [List.append_nil]
  exact he

theorem mem_order {e' : ε} (he : e ∈ log) (he' : e' ∈ log) (hne : e ≠ e') :
    (∃ before after, log = before ++ e :: after ∧ e' ∈ before) ∨
      ∃ before after, log = before ++ e' :: after ∧ e ∈ before := by
  obtain ⟨before, after, rfl⟩ := append_of_mem he
  rcases mem_append.mp he' with hbefore | hafter
  · exact .inl ⟨before, after, rfl, hbefore⟩
  have hlate := (mem_cons.mp hafter).resolve_left (Ne.symm hne)
  obtain ⟨middle, rest, rfl⟩ := append_of_mem hlate
  exact .inr ⟨before ++ e :: middle, rest, by simp, by simp⟩

/-- **What may not come twice** is one event. -/
theorem Lawful.unique (h : Lawful law log) {p : ε → Prop}
    (hp : ∀ before e, law before e → p e → ∀ e' ∈ before, ¬ p e') {e' : ε} (he : e ∈ log) (he' : e' ∈ log)
    (hpe : p e) (hpe' : p e') : e = e' := by
  by_contra hne
  rcases mem_order he he' hne with ⟨before, after, hsplit, hmem⟩ | ⟨before, after, hsplit, hmem⟩
  · exact hp before e (h before e after hsplit) hpe e' hmem hpe'
  · exact hp before e' (h before e' after hsplit) hpe' e hmem hpe

theorem Lawful.countP_le_one (h : Lawful law log) {p : ε → Bool}
    (hp : ∀ before e, law before e → p e = true → ∀ e' ∈ before, p e' = false) : log.countP p ≤ 1 := by
  by_cases hmem : ∃ e ∈ log, p e = true
  · obtain ⟨e, he, hpe⟩ := hmem
    obtain ⟨before, after, rfl⟩ := append_of_mem he
    have hbefore : before.countP p = 0 :=
      countP_eq_zero.mpr fun e' he' => by simp [hp before e (h before e after rfl) hpe e' he']
    have hafter : after.countP p = 0 := by
      refine countP_eq_zero.mpr fun e' he' hpe' => ?_
      obtain ⟨middle, rest, rfl⟩ := append_of_mem he'
      have hlaw := h (before ++ e :: middle) e' rest (by simp)
      have := hp _ e' hlaw hpe' e (by simp)
      simp [hpe] at this
    have htotal : (before ++ e :: after).countP p = 1 := by
      rw [countP_append, countP_cons, hbefore, hafter, if_pos hpe]
    exact Nat.le_of_eq htotal
  · rw [countP_eq_zero.mpr fun e he hpe => hmem ⟨e, he, hpe⟩]
    exact Nat.zero_le 1

end Vireo.Lib
