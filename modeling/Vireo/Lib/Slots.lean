/-
  File:      Vireo/Lib/Slots.lean
  Subject:   TABLES OF FIXED SIZE: slots that are taken and freed in place.

  What such a table holds is the list of the slots that are taken. Filling a free slot adds to it,
  freeing a slot takes away from it, up to the order.
-/
import Mathlib.Data.List.Perm.Basic
import Mathlib.Data.List.Basic

namespace Vireo.Lib

open List

variable {σ : Type*} {p : σ → Bool} {l : List σ} {i : Nat} {s t : σ}

section

variable (h : l[i]? = some s)
include h

theorem slots_split : l = l.take i ++ s :: l.drop (i + 1) := by
  obtain ⟨hi, rfl⟩ := List.getElem?_eq_some_iff.mp h
  rw [getElem_cons_drop, take_append_drop]

theorem slots_set (t : σ) : l.set i t = l.take i ++ t :: l.drop (i + 1) := by
  obtain ⟨hi, -⟩ := List.getElem?_eq_some_iff.mp h
  rw [set_eq_take_append_cons_drop, if_pos hi]

theorem filter_set_perm :
    ((l.set i t).filter p).Perm ([t].filter p ++ (l.take i ++ l.drop (i + 1)).filter p) := by
  rw [slots_set h t, filter_append, filter_append, filter_cons]
  cases ht : p t with
  | true => simp [ht, perm_middle]
  | false => simp [ht]

/-- **A free slot is filled.** -/
theorem filter_set_fill (hs : p s = false) (ht : p t = true) :
    ((l.set i t).filter p).Perm (t :: l.filter p) := by
  have hbefore : l.filter p = (l.take i ++ l.drop (i + 1)).filter p := by
    conv_lhs => rw [slots_split h]
    simp [hs]
  have hafter := filter_set_perm (t := t) (p := p) h
  rw [filter_cons, if_pos ht, filter_nil, singleton_append, ← hbefore] at hafter
  exact hafter

/-- **A slot that was taken is freed.** -/
theorem filter_set_free (hs : p s = true) (ht : p t = false) :
    (l.filter p).Perm (s :: (l.set i t).filter p) := by
  have hafter : (l.set i t).filter p = (l.take i ++ l.drop (i + 1)).filter p := by
    rw [slots_set h t]
    simp [ht]
  rw [hafter]
  conv_lhs => rw [slots_split h]
  rw [filter_append, filter_cons, if_pos hs, filter_append]
  exact perm_middle

end

theorem getElem?_set_cases {j : Nat} (h : (l.set i t)[j]? = some s) : (j = i ∧ s = t) ∨ (j ≠ i ∧ l[j]? = some s) := by
  rw [List.getElem?_set] at h
  split at h
  · rename_i heq
    split at h
    · exact .inl ⟨heq.symm, (Option.some.inj h).symm⟩
    · cases h
  · rename_i hne
    exact .inr ⟨fun heq => hne heq.symm, h⟩

/-- **The keys of a table stay apart** when a slot gives up keys or takes ones that nobody has. -/
theorem flatMap_set_nodup {κ : Type*} {f : σ → List κ} (h : l[i]? = some s) (hl : (l.flatMap f).Nodup)
    (ht : (f t).Nodup) (hnew : ∀ k ∈ f t, k ∈ f s ∨ k ∉ l.flatMap f) : ((l.set i t).flatMap f).Nodup := by
  have hbefore : l.flatMap f = (l.take i).flatMap f ++ (f s ++ (l.drop (i + 1)).flatMap f) := by
    conv_lhs => rw [slots_split h]
    rw [flatMap_append, flatMap_cons]
  rw [slots_set h t, flatMap_append, flatMap_cons]
  rw [hbefore] at hl hnew
  generalize (l.take i).flatMap f = before at hl hnew ⊢
  generalize (l.drop (i + 1)).flatMap f = after at hl hnew ⊢
  have hparts := nodup_append.mp hl
  have hrest := nodup_append.mp hparts.2.1
  refine nodup_append.mpr ⟨hparts.1, nodup_append.mpr ⟨ht, hrest.2.1, fun a ha b hb heq => ?_⟩,
    fun a ha b hb heq => ?_⟩
  · rw [heq] at ha
    rcases hnew b ha with old | new
    · exact hrest.2.2 b old b hb rfl
    · exact new (mem_append_right _ (mem_append_right _ hb))
  · rw [← heq] at hb
    rcases mem_append.mp hb with mine | theirs
    · rcases hnew a mine with old | new
      · exact hparts.2.2 a ha a (mem_append_left _ old) rfl
      · exact new (mem_append_left _ ha)
    · exact hparts.2.2 a ha a (mem_append_right _ theirs) rfl

/-- **What is not in the rest of a list without repetition is what went.** -/
theorem filter_not_mem_perm {σ : Type*} [DecidableEq σ] {l went rest : List σ}
    (h : l.Perm (went ++ rest)) (hl : l.Nodup) : (l.filter (· ∉ rest)).Perm went := by
  have hapart := nodup_append.mp (h.nodup_iff.mp hl)
  have hwent : went.filter (· ∉ rest) = went :=
    filter_eq_self.mpr fun x hx => by simpa using fun hr => hapart.2.2 x hx x hr rfl
  have hrest : rest.filter (· ∉ rest) = [] := filter_eq_nil_iff.mpr fun x hx => by simpa using hx
  have hfilter := h.filter (· ∉ rest)
  rw [filter_append, hwent, hrest, List.append_nil] at hfilter
  exact hfilter

end Vireo.Lib
