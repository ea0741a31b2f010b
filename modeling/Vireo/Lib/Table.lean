/-
  File:      Vireo/Lib/Table.lean
  Subject:   TABLES AS LISTS OF ROWS, AND THEIR KEYS.

  A key of a table is a partial function of its rows: rows without a value of the key (SQL `NULL`) are
  outside it. `Unique key l` says that no two rows of `l` share a value. What a program may conclude
  from a unique key, and what keeps one:

  * **`Unique.select`** -- selecting by a value of a unique key finds at most one row;
  * `Unique.append` -- inserting a row;
  * `updateWhere`, `changed` -- an update of the selected rows, and how many of them it changes.
-/
import Mathlib.Data.List.Basic
import Mathlib.Data.List.Pairwise

namespace Vireo.Lib

open List

variable {α κ : Type}

/-- No two rows share a value of the key. -/
def Unique (key : α → Option κ) (l : List α) : Prop :=
  l.Pairwise fun a b => ∀ k, key a = some k → key b ≠ some k

instance [DecidableEq κ] (key : α → Option κ) (l : List α) : Decidable (Unique key l) :=
  haveI : DecidableRel fun a b : α => ∀ k, key a = some k → key b ≠ some k := fun a b =>
    match h : key a with
    | none => isTrue fun _ e => nomatch h.symm.trans e
    | some k => if hb : key b = some k then isFalse fun hk => hk k h hb
      else isTrue fun _ e => Option.some.inj (h.symm.trans e) ▸ hb
  List.instDecidablePairwise l

theorem mem_of_find {P : α → Prop} [DecidablePred P] {l : List α} {a : α}
    (h : l.find? (fun r => decide (P r)) = some a) : a ∈ l ∧ P a :=
  ⟨List.mem_of_find?_eq_some h, by simpa using List.find?_some h⟩

namespace Unique

variable {key : α → Option κ} {l : List α}

section

variable (h : Unique key l)
include h

theorem eq {a b : α} {k : κ} (ha : a ∈ l) (hb : b ∈ l) (hka : key a = some k)
    (hkb : key b = some k) : a = b := by
  induction l with
  | nil => exact (not_mem_nil ha).elim
  | cons c l ih =>
    obtain ⟨hc, hl⟩ := pairwise_cons.mp h
    rcases mem_cons.mp ha with rfl | ha'
    · rcases mem_cons.mp hb with rfl | hb'
      · rfl
      · exact absurd hkb (hc b hb' k hka)
    · rcases mem_cons.mp hb with rfl | hb'
      · exact absurd hka (hc a ha' k hkb)
      · exact ih hl ha' hb'

/-- **Selecting by a unique key**: the row with the value is all there is. -/
theorem select {p : α → Bool} {a : α} {k : κ} (ha : a ∈ l) (hpa : p a = true)
    (hp : ∀ b ∈ l, p b = true → key b = some k) : l.filter p = [a] := by
  induction l with
  | nil => exact (not_mem_nil ha).elim
  | cons c l ih =>
    obtain ⟨hc, hl⟩ := pairwise_cons.mp h
    have hka : key a = some k := hp a ha hpa
    rcases mem_cons.mp ha with rfl | ha
    · rw [filter_cons_of_pos hpa]
      congr 1
      refine filter_eq_nil_iff.mpr fun b hb hpb => ?_
      exact hc b hb k hka (hp b (mem_cons_of_mem _ hb) hpb)
    · rw [filter_cons_of_neg]
      · exact ih hl ha fun b hb => hp b (mem_cons_of_mem _ hb)
      · intro hpc
        exact hc a ha k (hp c mem_cons_self hpc) hka

theorem filter_eq {p : α → Bool} {k : κ}
    (hp : ∀ b ∈ l, p b = true → key b = some k) : l.filter p = (l.find? p).toList := by
  cases hf : l.find? p with
  | none =>
    refine filter_eq_nil_iff.mpr fun a ha => ?_
    exact List.find?_eq_none.mp hf a ha
  | some a => exact h.select (List.mem_of_find?_eq_some hf) (List.find?_some hf) hp

theorem append {b : α} (hb : ∀ a ∈ l, ∀ k, key b = some k → key a ≠ some k) : Unique key (l ++ [b]) := by
  refine pairwise_append.mpr ⟨h, pairwise_singleton _ _, fun a ha c hc k hk => ?_⟩
  rw [mem_singleton.mp hc]
  exact fun hkb => hb a ha k hkb hk

end

end Unique

/-! ## Updates -/

/-- Change the selected rows. -/
def updateWhere (p : α → Bool) (f : α → α) (l : List α) : List α :=
  l.map fun a => if p a then f a else a

/-- How many rows an update changes: a selected row that keeps its values is not counted. -/
def changed [DecidableEq α] (p : α → Bool) (f : α → α) (l : List α) : Nat :=
  (l.filter fun a => p a && decide (f a ≠ a)).length

theorem mem_updateWhere {p : α → Bool} {f : α → α} {l : List α} {b : α} :
    b ∈ updateWhere p f l ↔ ∃ a ∈ l, (if p a then f a else a) = b := mem_map

/-- A key stays unique when the changed rows keep their value of it or lose it. -/
theorem Unique.updateWhere {key : α → Option κ} {p : α → Bool} {f : α → α} {l : List α} (h : Unique key l)
    (hf : ∀ a ∈ l, p a = true → key (f a) = key a ∨ key (f a) = none) : Unique key (updateWhere p f l) := by
  have hkey : ∀ a ∈ l, ∀ k, key (if p a then f a else a) = some k → key a = some k := by
    intro a ha k hk
    split at hk
    · rcases hf a ha ‹_› with he | he
      · exact he.symm.trans hk
      · cases he.symm.trans hk
    · exact hk
  exact pairwise_map.mpr (h.imp_of_mem fun ha hb hab k hka hkb => hab k (hkey _ ha k hka) (hkey _ hb k hkb))

/-- **An update by a unique key** changes the one row that has the value. -/
theorem Unique.changed_eq_one [DecidableEq α] {key : α → Option κ} {p : α → Bool} {f : α → α} {l : List α}
    (h : Unique key l) {a : α} {k : κ} (ha : a ∈ l) (hpa : p a = true) (hf : f a ≠ a)
    (hp : ∀ b ∈ l, p b = true → key b = some k) : changed p f l = 1 := by
  have hone := h.select (p := fun b => p b && decide (f b ≠ b)) ha (by simp [hpa, hf]) fun b hb hpb =>
    hp b hb ((Bool.and_eq_true _ _).mp hpb).1
  exact congrArg length hone

/-! ## Counting -/

/-- A predicate that becomes true of one more member selects one more. -/
theorem length_filter_flip {l : List α} (hnd : l.Nodup) {x : α} (hx : x ∈ l) {p q : α → Bool}
    (hp : p x = false) (hq : q x = true) (h : ∀ y ∈ l, y ≠ x → p y = q y) :
    (l.filter q).length = (l.filter p).length + 1 := by
  obtain ⟨l₁, l₂, rfl⟩ := append_of_mem hx
  have hnot : ∀ y ∈ l₁ ++ l₂, y ≠ x := by
    rintro y hy rfl
    exact (nodup_cons.mp (perm_middle.nodup_iff.mp hnd)).1 hy
  have h₁ : l₁.filter p = l₁.filter q := filter_congr fun y hy =>
    h y (mem_append_left _ hy) (hnot y (mem_append_left _ hy))
  have h₂ : l₂.filter p = l₂.filter q := filter_congr fun y hy =>
    h y (mem_append_right _ (mem_cons_of_mem _ hy)) (hnot y (mem_append_right _ hy))
  rw [filter_append, filter_append, filter_cons_of_pos hq,
    filter_cons_of_neg (by rw [hp]; exact Bool.false_ne_true), h₁, h₂, length_append,
    length_append, length_cons]
  omega

end Vireo.Lib
