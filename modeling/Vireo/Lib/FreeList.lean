/-
  File:      Vireo/Lib/FreeList.lean
  Subject:   FREE LISTS threaded through a table of slots.

  Every slot has a `next` index and a flag; the free slots are chained from a head to a sentinel that
  is no slot.
-/
import Mathlib.Data.List.Nodup
import Mathlib.Data.UInt

namespace Vireo.Lib

open List

variable {ι : Type*} {c : UInt64}

/-- Following `next` from `h` visits `l` and ends at `nil`. -/
def FreeChain (next : ι → ι) (nil : ι) : ι → List ι → Prop
  | h, [] => h = nil
  | h, x :: l => h = x ∧ FreeChain next nil (next x) l

theorem FreeChain.frame {next next' : ι → ι} {nil h : ι} {l : List ι}
    (hf : ∀ i ∈ l, next' i = next i) (hc : FreeChain next nil h l) : FreeChain next' nil h l := by
  induction l generalizing h with
  | nil => exact hc
  | cons x l ih =>
    obtain ⟨rfl, hc⟩ := hc
    refine ⟨rfl, ?_⟩
    rw [hf h mem_cons_self]
    exact ih (fun i hi => hf i (mem_cons_of_mem _ hi)) hc

theorem FreeChain.of_ne {next : ι → ι} {nil h : ι} {l : List ι} (hc : FreeChain next nil h l)
    (hne : h ≠ nil) : ∃ l', l = h :: l' := by
  cases l with
  | nil => exact absurd hc hne
  | cons x l =>
    obtain ⟨rfl, -⟩ := hc
    exact ⟨l, rfl⟩

theorem freeChain_range {next : UInt64 → UInt64} {nil : UInt64} {n : Nat}
    (hnext : ∀ i, i + 1 < n → next (UInt64.ofNat i) = UInt64.ofNat (i + 1))
    (hlast : ∀ i, i + 1 = n → next (UInt64.ofNat i) = nil) (k i : Nat) (h : i + k + 1 = n) :
    FreeChain next nil (UInt64.ofNat i) ((List.range' i (k + 1)).map UInt64.ofNat) := by
  induction k generalizing i with
  | zero => exact ⟨rfl, hlast i h⟩
  | succ k ih =>
    rw [List.range'_succ, map_cons]
    refine ⟨rfl, ?_⟩
    rw [hnext i (by omega)]
    exact ih (i + 1) (by omega)

/-- The chain from `head` visits exactly the slots of the table that are not in use, each once. -/
structure FreeList (next : ι → ι) (nil head : ι) (slot : ι → Prop) (inUse : ι → Bool)
    (free : List ι) : Prop where
  chain : FreeChain next nil head free
  nodup : free.Nodup
  mem : ∀ i, i ∈ free ↔ slot i ∧ inUse i = false
  outside : ¬ slot nil

namespace FreeList

variable {next next' : ι → ι} {nil head : ι} {slot : ι → Prop} {inUse inUse' : ι → Bool}
  {free : List ι}

section

variable (h : FreeList next nil head slot inUse free)
include h

/-- **The chain is empty exactly when every slot is in use.** -/
theorem head_eq_nil : head = nil ↔ ∀ i, slot i → inUse i = true := by
  have hchain := h.chain
  constructor
  · intro hn i hi
    by_contra hno
    have hm := (h.mem i).mpr ⟨hi, Bool.not_eq_true _ ▸ hno⟩
    cases free with
    | nil => exact absurd hm not_mem_nil
    | cons x l =>
      obtain ⟨rfl, -⟩ := hchain
      exact h.outside (hn ▸ ((h.mem head).mp mem_cons_self).1)
  · intro hall
    by_contra hne
    obtain ⟨l, rfl⟩ := hchain.of_ne hne
    obtain ⟨hs, hu⟩ := (h.mem head).mp mem_cons_self
    rw [hall head hs] at hu
    cases hu

/-- **The head is handed out.** -/
theorem take (next' : ι → ι) (inUse' : ι → Bool)
    (hne : head ≠ nil) (hnext : ∀ i, i ≠ head → next' i = next i) (hself : inUse' head = true)
    (huse : ∀ i, i ≠ head → inUse' i = inUse i) :
    slot head ∧ inUse head = false ∧
      ∃ free', free = head :: free' ∧ FreeList next' nil (next head) slot inUse' free' := by
  obtain ⟨free', rfl⟩ := h.chain.of_ne hne
  obtain ⟨hs, hu⟩ := (h.mem head).mp mem_cons_self
  obtain ⟨hnot, hnd⟩ := nodup_cons.mp h.nodup
  refine ⟨hs, hu, free', rfl, h.chain.2.frame fun i hi => ?_, hnd, fun i => ?_, h.outside⟩
  · exact hnext i (ne_of_mem_of_not_mem hi hnot)
  by_cases hi : i = head
  · rw [hi, hself]
    exact ⟨fun hm => absurd hm hnot, fun hm => absurd hm.2 (by simp)⟩
  · rw [huse i hi, ← h.mem i, mem_cons]
    exact ⟨.inr, fun hm => hm.resolve_left hi⟩

/-- **A slot in use comes back.** -/
theorem put (next' : ι → ι) (inUse' : ι → Bool) {i : ι}
    (hi : slot i) (hu : inUse i = true) (hback : next' i = head) (hnext : ∀ j, j ≠ i → next' j = next j)
    (hself : inUse' i = false) (huse : ∀ j, j ≠ i → inUse' j = inUse j) :
    FreeList next' nil i slot inUse' (i :: free) := by
  have hnot : i ∉ free := fun hm => by
    rw [((h.mem i).mp hm).2] at hu
    cases hu
  refine ⟨⟨rfl, ?_⟩, nodup_cons.mpr ⟨hnot, h.nodup⟩, fun j => ?_, h.outside⟩
  · rw [hback]
    exact h.chain.frame fun j hj => hnext j (ne_of_mem_of_not_mem hj hnot)
  · rw [mem_cons]
    by_cases hj : j = i
    · rw [hj, hself]
      exact ⟨fun _ => ⟨hi, rfl⟩, fun _ => .inl rfl⟩
    · rw [huse j hj, ← h.mem j]
      exact ⟨fun hm => hm.resolve_left hj, .inr⟩

end

end FreeList

theorem length_le_of_nodup {l : List UInt64} (hl : l.Nodup) (h : ∀ i ∈ l, i < c) : l.length ≤ c.toNat := by
  have hnodup : (l.map UInt64.toNat).Nodup := hl.map fun a b heq => UInt64.toNat_inj.mp heq
  have hsub : l.map UInt64.toNat ⊆ List.range c.toNat := by
    intro n hn
    obtain ⟨i, hi, rfl⟩ := mem_map.mp hn
    exact mem_range.mpr (UInt64.lt_iff_toNat_lt.mp (h i hi))
  have hle := (subperm_of_subset hnodup hsub).length_le
  rw [length_map, length_range] at hle
  exact hle

/-! ## A fresh table -/

theorem toNat_ofNat_of_lt {n : Nat} (h : n < c.toNat) : (UInt64.ofNat n).toNat = n :=
  UInt64.toNat_ofNat_of_lt' (Nat.lt_trans h c.toNat_lt)

theorem nodup_map_ofNat {l : List Nat} (hl : l.Nodup) (h : ∀ n ∈ l, n < c.toNat) :
    (l.map UInt64.ofNat).Nodup := by
  refine hl.map_on fun a ha b hb e => ?_
  have := congrArg UInt64.toNat e
  rwa [toNat_ofNat_of_lt (h a ha), toNat_ofNat_of_lt (h b hb)] at this

theorem mem_map_ofNat {i : UInt64} : i ∈ (List.range' 0 c.toNat).map UInt64.ofNat ↔ i < c := by
  rw [mem_map]
  constructor
  · rintro ⟨n, hn, rfl⟩
    rw [mem_range'_1] at hn
    rw [UInt64.lt_iff_toNat_lt, toNat_ofNat_of_lt (c := c) (by omega)]
    omega
  · intro hi
    refine ⟨i.toNat, ?_, UInt64.ofNat_toNat⟩
    rw [mem_range'_1]
    have : i.toNat < c.toNat := UInt64.lt_iff_toNat_lt.mp hi
    omega

/-- **A table whose slots are linked in order and all free.** -/
theorem freeList_fresh {nil : UInt64} {next : UInt64 → UInt64} {inUse : UInt64 → Bool} (hpos : 0 < c.toNat)
    (hnil : ¬ nil < c) (hnext : ∀ i, i.toNat + 1 < c.toNat → next i = i + 1)
    (hlast : ∀ i, i.toNat + 1 = c.toNat → next i = nil) (hfree : ∀ i, inUse i = false) :
    FreeList next nil 0 (· < c) inUse ((List.range' 0 c.toNat).map UInt64.ofNat) := by
  obtain ⟨k, hk⟩ : ∃ k, c.toNat = k + 1 := ⟨c.toNat - 1, by omega⟩
  refine ⟨?_, nodup_map_ofNat (c := c) (nodup_range' ..) fun n hn => ?_, fun i => ?_, hnil⟩
  · rw [hk]
    refine freeChain_range (n := c.toNat) (fun i hi => ?_) (fun i hi => hlast _ ?_) k 0 (by omega)
    · rw [hnext _ (by rw [toNat_ofNat_of_lt (c := c) (by omega)]; exact hi), UInt64.ofNat_add]
      rfl
    · rw [toNat_ofNat_of_lt (c := c) (by omega)]
      exact hi
  · rw [mem_range'_1] at hn
    omega
  · rw [mem_map_ofNat, hfree i]
    exact ⟨fun h => ⟨h, rfl⟩, fun h => h.1⟩

end Vireo.Lib
