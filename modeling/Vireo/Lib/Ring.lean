/-
  File:      Vireo/Lib/Ring.lean
  Subject:   INTRUSIVE DOUBLY LINKED RINGS over an arbitrary type of links.

  A store of links is two functions `prev` and `next`; a ring is a head link (a permanent dummy)
  and the list of the members met from it.
-/
import Mathlib.Data.List.Chain
import Mathlib.Data.List.Nodup
import Mathlib.Logic.Function.Basic

namespace Vireo.Lib

open Function List

/-- A store of intrusive links. -/
structure Links (α : Type*) where
  prev : α → α
  next : α → α

namespace Links

variable {α : Type*} [DecidableEq α]

variable (L : Links α)

def setNext (a b : α) : Links α := { L with next := update L.next a b }

def setPrev (a b : α) : Links α := { L with prev := update L.prev a b }

/-- Close the gap around `x` and leave `x` a self ring. -/
def detach (x : α) : Links α :=
  (((L.setNext (L.prev x) (L.next x)).setPrev (L.next x) (L.prev x)).setPrev x x).setNext x x

/-- Put `x` back between the neighbours `p` and `n`. -/
def restore (x p n : α) : Links α :=
  (((L.setPrev x p).setNext x n).setNext p x).setPrev n x

/-- Insert `x` directly before the head `h`. -/
def append (h x : α) : Links α :=
  (((L.setPrev x (L.prev h)).setNext x h).setNext (L.prev h) x).setPrev h x

/-- Move every member of the ring of `b` to the empty ring of `p`. -/
def splice (p b : α) : Links α :=
  if L.next b = b then L
  else (((((L.setNext p (L.next b)).setPrev p (L.prev b)).setPrev (L.next b) p).setNext
    (L.prev b) p).setPrev b b).setNext b b

/-- The two links are neighbours, seen from both sides. -/
def Adj (a b : α) : Prop := L.next a = b ∧ L.prev b = a

end Links

open Links

variable {α ι : Type*} [DecidableEq α] {L : Links α} {l : List α} {h x : α}

/-! ## 1. Neighbours under the operations -/

theorem adj_detach {x a b : α} (hp : L.next (L.prev x) = x) (hn : L.prev (L.next x) = x) (ha : a ≠ x)
    (hb : b ≠ x) (h : L.Adj a b) :
    (L.detach x).Adj a b := by
  obtain ⟨h1, h2⟩ := h
  have hap : a ≠ L.prev x := fun e => hb (by rw [← h1, e, hp])
  have hbn : b ≠ L.next x := fun e => ha (by rw [← h2, e, hn])
  constructor
  · simp only [detach, setNext, setPrev, update_of_ne ha, update_of_ne hap, h1]
  · simp only [detach, setNext, setPrev, update_of_ne hb, update_of_ne hbn, h2]

theorem adj_detach_gap {x : α} (hp : L.prev x ≠ x) (hn : L.next x ≠ x) :
    (L.detach x).Adj (L.prev x) (L.next x) := by
  constructor
  · simp only [detach, setNext, setPrev, update_of_ne hp, update_self]
  · simp only [detach, setNext, setPrev, update_of_ne hn, update_self]

theorem adj_append {h x a b : α} (hp : L.next (L.prev h) = h) (ha : a ≠ x) (hb : b ≠ x) (hbh : b ≠ h)
    (hab : L.Adj a b) : (L.append h x).Adj a b := by
  obtain ⟨h1, h2⟩ := hab
  have hap : a ≠ L.prev h := fun e => hbh (by rw [← h1, e, hp])
  constructor
  · simp only [Links.append, setNext, setPrev, update_of_ne hap, update_of_ne ha, h1]
  · simp only [Links.append, setNext, setPrev, update_of_ne hbh, update_of_ne hb, h2]

theorem adj_splice {p b x y : α} (hp : L.next (L.prev b) = b) (hn : L.prev (L.next b) = b) (hx : x ≠ p)
    (hxb : x ≠ b) (hy : y ≠ p) (hyb : y ≠ b) (h : L.Adj x y) : (L.splice p b).Adj x y := by
  obtain ⟨h1, h2⟩ := h
  unfold splice
  split
  · exact ⟨h1, h2⟩
  have hxl : x ≠ L.prev b := fun e => hyb (by rw [← h1, e, hp])
  have hyf : y ≠ L.next b := fun e => hxb (by rw [← h2, e, hn])
  constructor
  · simp only [setNext, setPrev, update_of_ne hx, update_of_ne hxb, update_of_ne hxl, h1]
  · simp only [setNext, setPrev, update_of_ne hy, update_of_ne hyb, update_of_ne hyf, h2]

/-- **A detach is undone exactly**: writing the old neighbours back restores every pointer. -/
theorem restore_detach {x : α} (hp : L.next (L.prev x) = x) (hn : L.prev (L.next x) = x) :
    (L.detach x).restore x (L.prev x) (L.next x) = L := by
  obtain ⟨prev, next⟩ := L
  simp only at hp hn
  simp only [detach, restore, setNext, setPrev, Links.mk.injEq]
  constructor
  · funext a
    by_cases han : a = next x
    · rw [han, update_self, hn]
    by_cases hax : a = x
    · rw [hax] at han ⊢
      rw [update_of_ne han, update_self]
    · simp only [update_of_ne han, update_of_ne hax]
  · funext a
    by_cases hap : a = prev x
    · rw [hap, update_self, hp]
    by_cases hax : a = x
    · rw [hax] at hap ⊢
      rw [update_of_ne hap, update_self]
    · simp only [update_of_ne hap, update_of_ne hax]

/-! ## 2. One ring -/

/-- From the head `h`, `next` visits exactly the members `l` and comes back, and `prev` is the
    way back. -/
structure Ring (L : Links α) (h : α) (l : List α) : Prop where
  nodup : (h :: l).Nodup
  chain : (h :: (l ++ [h])).IsChain L.Adj

omit [DecidableEq α] in
theorem Ring.frame {L L' : Links α} {h : α} (r : Ring L h l)
    (hf : ∀ a ∈ h :: l, ∀ b ∈ h :: l, L.Adj a b → L'.Adj a b) : Ring L' h l := by
  have hm : ∀ a ∈ h :: (l ++ [h]), a ∈ h :: l := by
    intro a ha
    simp only [mem_cons, mem_append, not_mem_nil, or_false] at ha ⊢
    tauto
  exact ⟨r.nodup, List.IsChain.imp_of_mem_imp
    (fun a b ha hb hab => hf a (hm a ha) b (hm b hb) hab) r.chain⟩

omit [DecidableEq α] in
theorem Ring.split {l₁ l₂ : List α} (r : Ring L h (l₁ ++ x :: l₂)) :
    (h :: (l₁ ++ [x])).IsChain L.Adj ∧ (x :: (l₂ ++ [h])).IsChain L.Adj := by
  have hc := r.chain
  rw [append_assoc, cons_append] at hc
  exact isChain_cons_split.mp hc

omit [DecidableEq α] in
theorem getLast_of_isChain_concat {R : α → α → Prop} (hc : (h :: (l ++ [x])).IsChain R) :
    ∀ p ∈ (h :: l).getLast?, R p x := by
  rw [← cons_append] at hc
  intro p hp
  exact (isChain_append.mp hc).2.2 p hp x (by simp)

omit [DecidableEq α] in
/-- Every member is seen by its two neighbours, and so is the head. -/
theorem Ring.linked (r : Ring L h l) (hx : x ∈ h :: l) :
    L.next (L.prev x) = x ∧ L.prev (L.next x) = x ∧ L.prev x ∈ h :: l ∧ L.next x ∈ h :: l := by
  have key : ∃ p ∈ h :: l, ∃ n ∈ h :: l, L.Adj p x ∧ L.Adj x n := by
    rcases mem_cons.mp hx with rfl | hx
    · obtain ⟨p, hp⟩ : ∃ p, p ∈ (x :: l).getLast? := ⟨_, List.getLast?_eq_some_getLast (by simp)⟩
      have hpx := getLast_of_isChain_concat r.chain p hp
      obtain ⟨n, hn⟩ : ∃ n, n ∈ (l ++ [x]).head? := by
        cases l with
        | nil => exact ⟨x, rfl⟩
        | cons a l => exact ⟨a, rfl⟩
      refine ⟨p, mem_of_getLast? hp, n, ?_, hpx, r.chain.rel_head? hn⟩
      have := mem_of_mem_head? hn
      simpa [or_comm] using this
    · obtain ⟨l₁, l₂, rfl⟩ := append_of_mem hx
      obtain ⟨c1, c2⟩ := r.split
      obtain ⟨p, hp⟩ : ∃ p, p ∈ (h :: l₁).getLast? := ⟨_, List.getLast?_eq_some_getLast (by simp)⟩
      obtain ⟨n, hn⟩ : ∃ n, n ∈ (l₂ ++ [h]).head? := by
        cases l₂ with
        | nil => exact ⟨h, rfl⟩
        | cons a l => exact ⟨a, rfl⟩
      have mp := mem_of_getLast? hp
      have mn := mem_of_mem_head? hn
      refine ⟨p, ?_, n, ?_, getLast_of_isChain_concat c1 p hp, c2.rel_head? hn⟩
      · simp only [mem_cons, mem_append] at mp ⊢
        tauto
      · simp only [mem_cons, mem_append, not_mem_nil, or_false] at mn ⊢
        tauto
  obtain ⟨p, hp, n, hn, ⟨e1, e2⟩, ⟨e3, e4⟩⟩ := key
  rw [e2, e3]
  exact ⟨e1, e4, hp, hn⟩

omit [DecidableEq α] in
theorem Ring.next_head_nil {h : α} (r : Ring L h []) : L.next h = h :=
  (r.chain.rel_head? (y := h) rfl).1

omit [DecidableEq α] in
theorem Ring.next_head_cons (r : Ring L h (x :: l)) : L.next h = x :=
  (r.chain.rel_head? (y := x) rfl).1

omit [DecidableEq α] in
theorem Ring.next_head_eq_iff {h : α} (r : Ring L h l) : L.next h = h ↔ l = [] := by
  cases l with
  | nil => exact ⟨fun _ => rfl, fun _ => r.next_head_nil⟩
  | cons x l =>
      refine ⟨fun e => ?_, fun e => by cases e⟩
      rw [r.next_head_cons] at e
      exact absurd (e ▸ mem_cons_self : h ∈ x :: l) (nodup_cons.mp r.nodup).1

omit [DecidableEq α] in
theorem Ring.iterate_mem {h : α} (r : Ring L h l) (n : Nat) : L.next^[n] h ∈ h :: l := by
  induction n with
  | zero => exact mem_cons_self
  | succ n ih =>
      rw [Function.iterate_succ_apply']
      exact (r.linked ih).2.2.2

omit [DecidableEq α] in
theorem exists_iterate_of_isChain {a x : α} (hc : (a :: l).IsChain L.Adj) (hx : x ∈ a :: l) :
    ∃ n, L.next^[n] a = x := by
  induction l generalizing a with
  | nil =>
      rw [mem_singleton] at hx
      exact ⟨0, hx.symm⟩
  | cons b l ih =>
      rcases mem_cons.mp hx with rfl | hx
      · exact ⟨0, rfl⟩
      obtain ⟨hab, hc⟩ := isChain_cons_cons.mp hc
      obtain ⟨n, hn⟩ := ih hc hx
      refine ⟨n + 1, ?_⟩
      rw [Function.iterate_succ_apply, hab.1, hn]

omit [DecidableEq α] in
/-- **The members are what following `next` from the head meets.** -/
theorem Ring.mem_iff (r : Ring L h l) (hx : x ≠ h) : x ∈ l ↔ ∃ n, L.next^[n] h = x := by
  constructor
  · intro hm
    have hm' : x ∈ h :: (l ++ [h]) := mem_cons_of_mem _ (mem_append_left _ hm)
    exact exists_iterate_of_isChain r.chain hm'
  · rintro ⟨n, rfl⟩
    exact (mem_cons.mp (r.iterate_mem n)).resolve_left hx

theorem Ring.detach {l₁ l₂ : List α} (r : Ring L h (l₁ ++ x :: l₂)) : Ring (L.detach x) h (l₁ ++ l₂) := by
  have hx : x ∈ h :: (l₁ ++ x :: l₂) := by simp
  obtain ⟨hp, hn, -, -⟩ := r.linked hx
  obtain ⟨c1, c2⟩ := r.split
  have hnd : (x :: h :: (l₁ ++ l₂)).Nodup := by
    have := r.nodup
    refine (List.Perm.nodup_iff ?_).mp this
    refine (List.Perm.cons h perm_middle).trans (List.Perm.swap x h _)
  have hne : ∀ a ∈ h :: (l₁ ++ l₂), a ≠ x := fun a ha e => (nodup_cons.mp hnd).1 (e ▸ ha)
  refine ⟨(nodup_cons.mp hnd).2, ?_⟩
  have k1 : (h :: l₁).IsChain (L.detach x).Adj := by
    rw [← cons_append] at c1
    refine List.IsChain.imp_of_mem_imp (fun a b ha hb hab => ?_) c1.left_of_append
    have m : ∀ c ∈ h :: l₁, c ∈ h :: (l₁ ++ l₂) := by
      intro c hc
      simp only [mem_cons, mem_append] at hc ⊢
      tauto
    exact adj_detach hp hn (hne a (m a ha)) (hne b (m b hb)) hab
  have k2 : (l₂ ++ [h]).IsChain (L.detach x).Adj := by
    refine List.IsChain.imp_of_mem_imp (fun a b ha hb hab => ?_) c2.of_cons
    have m : ∀ c ∈ l₂ ++ [h], c ∈ h :: (l₁ ++ l₂) := by
      intro c hc
      simp only [mem_cons, mem_append, not_mem_nil, or_false] at hc ⊢
      tauto
    exact adj_detach hp hn (hne a (m a ha)) (hne b (m b hb)) hab
  rw [append_assoc, ← cons_append]
  refine k1.append k2 fun p mp n mn => ?_
  -- the two pieces meet at the old neighbours of `x`
  have e1 : L.prev x = p := (getLast_of_isChain_concat c1 p mp).2
  have e2 : L.next x = n := (c2.rel_head? mn).1
  have mp' := mem_of_getLast? mp
  have mn' := mem_of_mem_head? mn
  have hpx : L.prev x ≠ x := by
    rw [e1]
    refine hne p ?_
    simp only [mem_cons, mem_append] at mp' ⊢
    tauto
  have hnx : L.next x ≠ x := by
    rw [e2]
    refine hne n ?_
    simp only [mem_cons, mem_append, not_mem_nil, or_false] at mn' ⊢
    tauto
  have := adj_detach_gap hpx hnx
  rwa [e1, e2] at this

theorem Ring.append (r : Ring L h l) (hx : x ∉ h :: l) : Ring (L.append h x) h (l ++ [x]) := by
  obtain ⟨hp, -, mp, -⟩ := r.linked (mem_cons_self : h ∈ h :: l)
  have hxh : x ≠ h := fun e => hx (e ▸ mem_cons_self)
  have hhl : h ∉ l := (nodup_cons.mp r.nodup).1
  have hxl : x ∉ l := fun e => hx (mem_cons_of_mem _ e)
  refine ⟨?_, ?_⟩
  · refine nodup_cons.mpr ⟨?_, ?_⟩
    · simp only [mem_append, mem_singleton, not_or]
      exact ⟨hhl, fun e => hxh e.symm⟩
    · exact nodup_append.mpr ⟨(nodup_cons.mp r.nodup).2, nodup_singleton x,
        fun a ha b hb e => hxl ((mem_singleton.mp hb) ▸ e ▸ ha)⟩
  · have hc := r.chain
    rw [← cons_append] at hc
    have k1 : (h :: l).IsChain (L.append h x).Adj := by
      refine List.IsChain.imp_of_mem_tail_imp (fun a b ha hb hab => ?_) hc.left_of_append
      have hb' : b ∈ l := hb
      exact adj_append hp (fun e => hx (e ▸ ha)) (fun e => hxl (e ▸ hb')) (fun e => hhl (e ▸ hb')) hab
    have hpx : L.prev h ≠ x := fun e => hx (e ▸ mp)
    have k2 : ([x, h] : List α).IsChain (L.append h x).Adj := by
      rw [isChain_pair]
      constructor
      · simp only [Links.append, setNext, setPrev, update_of_ne hpx.symm, update_self]
      · simp only [Links.append, setNext, setPrev, update_self]
    rw [append_assoc, ← cons_append]
    refine k1.append k2 fun p hp' y hy => ?_
    obtain rfl : y = x := by simpa using hy.symm
    have e : L.prev h = p := (getLast_of_isChain_concat r.chain p hp').2
    rw [← e]
    constructor
    · simp only [Links.append, setNext, setPrev, update_self]
    · simp only [Links.append, setNext, setPrev, update_of_ne hxh, update_self]

theorem Ring.splice {p b : α} (rp : Ring L p []) (rb : Ring L b l) (hpb : p ≠ b) (hpl : p ∉ l) :
    Ring (L.splice p b) p l ∧ Ring (L.splice p b) b [] := by
  cases l with
  | nil =>
      have : L.splice p b = L := by
        unfold Links.splice
        rw [if_pos rb.next_head_nil]
      rw [this]
      exact ⟨rp, rb⟩
  | cons x l =>
      have hbl : b ∉ x :: l := (nodup_cons.mp rb.nodup).1
      have enx : L.next b = x := rb.next_head_cons
      have hne : ¬ L.next b = b := fun e => by
        have := rb.next_head_eq_iff.mp e
        cases this
      obtain ⟨hp, hn, mp, -⟩ := rb.linked (mem_cons_self : b ∈ b :: x :: l)
      have hlast : ∀ z ∈ (x :: l).getLast?, L.Adj z b := by
        intro z hz
        refine getLast_of_isChain_concat rb.chain z ?_
        rw [List.getLast?_cons_cons]
        exact hz
      have hLp : L.prev b ∈ x :: l := by
        have hz : (x :: l).getLast (by simp) ∈ (x :: l).getLast? := List.getLast?_eq_some_getLast _
        rw [(hlast _ hz).2]
        exact getLast_mem _
      have hxb : x ≠ b := fun e => hbl (e ▸ mem_cons_self)
      have hxp : x ≠ p := fun e => hpl (e ▸ mem_cons_self)
      have hlp : L.prev b ≠ p := fun e => hpl (e ▸ hLp)
      have hlb : L.prev b ≠ b := fun e => hbl (e ▸ hLp)
      constructor
      · refine ⟨nodup_cons.mpr ⟨hpl, (nodup_cons.mp rb.nodup).2⟩, ?_⟩
        have hc := rb.chain.of_cons
        have k1 : (x :: l).IsChain (L.splice p b).Adj := by
          refine List.IsChain.imp_of_mem_imp (fun a c ha hb hab => ?_) hc.left_of_append
          exact adj_splice hp hn (fun e => hpl (e ▸ ha)) (fun e => hbl (e ▸ ha))
            (fun e => hpl (e ▸ hb)) (fun e => hbl (e ▸ hb)) hab
        have k2 : (x :: l ++ [p]).IsChain (L.splice p b).Adj := by
          refine k1.append (isChain_singleton p) fun z hz y hy => ?_
          obtain rfl : y = p := by simpa using hy.symm
          rw [← (hlast z hz).2]
          unfold Links.splice
          rw [if_neg hne]
          constructor
          · simp only [setNext, setPrev, update_of_ne hlb, update_self]
          · simp only [setNext, setPrev, enx, update_of_ne hpb, update_of_ne hxp.symm, update_self]
        refine List.IsChain.cons k2 fun y hy => ?_
        obtain rfl : y = x := by simpa using hy.symm
        unfold Links.splice
        rw [if_neg hne]
        constructor
        · simp only [setNext, setPrev, update_of_ne hpb, update_of_ne hlp.symm, update_self, enx]
        · simp only [setNext, setPrev, update_of_ne hxb, enx, update_self]
      · refine ⟨nodup_singleton b, ?_⟩
        show ([b, b] : List α).IsChain _
        rw [isChain_pair]
        unfold Links.splice
        rw [if_neg hne]
        constructor
        · simp only [setNext, setPrev, update_self]
        · simp only [setNext, setPrev, update_self]

/-! ## 3. A family of rings -/

/-- Rings with pairwise disjoint links. -/
structure RingSystem (L : Links α) (head : ι → α) (members : ι → List α) : Prop where
  ring : ∀ i, Ring L (head i) (members i)
  disjoint : ∀ i j, i ≠ j → List.Disjoint (head i :: members i) (head j :: members j)

namespace RingSystem

variable {L : Links α} {head : ι → α} {members : ι → List α}

omit [DecidableEq α] in
theorem unique (s : RingSystem L head members) {i j : ι} {x : α} (hi : x ∈ members i)
    (hj : x ∈ members j) : i = j := by
  refine Classical.byContradiction fun hij => ?_
  exact s.disjoint i j hij (mem_cons_of_mem _ hi) (mem_cons_of_mem _ hj)

omit [DecidableEq α] in
theorem not_head (s : RingSystem L head members) {i j : ι} {x : α} (hi : x ∈ members i) : x ≠ head j := by
  rintro rfl
  by_cases hij : i = j
  · subst hij
    exact (nodup_cons.mp (s.ring i).nodup).1 hi
  · exact s.disjoint i j hij (mem_cons_of_mem _ hi) mem_cons_self

variable [DecidableEq ι]

section

variable (s : RingSystem L head members)
include s

/-- Detaching a member erases it from its own list and touches no other ring. -/
theorem detach {i : ι} {x : α} (hx : x ∈ members i) :
    RingSystem (L.detach x) head (update members i ((members i).erase x)) := by
  obtain ⟨hp, hn, -, -⟩ := (s.ring i).linked (mem_cons_of_mem _ hx)
  have hsub : ∀ j, List.Subset
      (head j :: update members i ((members i).erase x) j) (head j :: members j) := by
    intro j a ha
    by_cases hji : j = i
    · subst hji
      rw [update_self] at ha
      rcases mem_cons.mp ha with rfl | ha
      · exact mem_cons_self
      · exact mem_cons_of_mem _ (mem_of_mem_erase ha)
    · rwa [update_of_ne hji] at ha
  constructor
  · intro j
    by_cases hji : j = i
    · subst hji
      rw [update_self]
      obtain ⟨l₁, l₂, -, e, ee⟩ := exists_erase_eq hx
      rw [ee]
      have r := s.ring j
      rw [e] at r
      exact r.detach
    · rw [update_of_ne hji]
      have hne : ∀ a ∈ head j :: members j, a ≠ x := by
        rintro a ha rfl
        exact s.disjoint j i hji ha (mem_cons_of_mem _ hx)
      exact (s.ring j).frame fun a ha b hb hab => adj_detach hp hn (hne a ha) (hne b hb) hab
  · intro j k hjk a ha hb
    exact s.disjoint j k hjk (hsub j ha) (hsub k hb)

/-- Appending a link that is in no ring puts it at the end of one list. -/
theorem append (i : ι) {x : α} (hx : ∀ j, x ∉ head j :: members j) :
    RingSystem (L.append (head i) x) head (update members i (members i ++ [x])) := by
  obtain ⟨hp, -, -, -⟩ := (s.ring i).linked (mem_cons_self)
  have hmem : ∀ j a, a ∈ head j :: update members i (members i ++ [x]) j →
      a ∈ head j :: members j ∨ (j = i ∧ a = x) := by
    intro j a ha
    by_cases hji : j = i
    · subst hji
      rw [update_self] at ha
      simp only [mem_cons, mem_append, not_mem_nil, or_false] at ha ⊢
      tauto
    · rw [update_of_ne hji] at ha
      exact .inl ha
  constructor
  · intro j
    by_cases hji : j = i
    · subst hji
      rw [update_self]
      exact (s.ring j).append (hx j)
    · rw [update_of_ne hji]
      refine (s.ring j).frame fun a ha b hb hab => ?_
      have hbi : b ≠ head i := by
        rintro rfl
        exact s.disjoint j i hji hb mem_cons_self
      exact adj_append hp (fun e => hx j (e ▸ ha)) (fun e => hx j (e ▸ hb)) hbi hab
  · intro j k hjk a ha hb
    rcases hmem j a ha with ha' | ⟨rfl, rfl⟩ <;> rcases hmem k a hb with hb' | ⟨rfl, hb'⟩
    · exact s.disjoint j k hjk ha' hb'
    · exact hx j (hb' ▸ ha')
    · exact hx k hb'
    · exact hjk rfl

/-- Splicing a ring onto an empty head moves its whole list. -/
theorem splice {i j : ι} (hij : i ≠ j) (hi : members i = []) : RingSystem (L.splice (head i) (head j)) head
      (update (update members i (members j)) j []) := by
  obtain ⟨hp, hn, -, -⟩ := (s.ring j).linked (mem_cons_self)
  have hheads : head i ≠ head j := fun e =>
    s.disjoint i j hij mem_cons_self (e ▸ mem_cons_self)
  have hhi : head i ∉ members j := fun h =>
    s.disjoint i j hij mem_cons_self (mem_cons_of_mem _ h)
  have ri := s.ring i
  rw [hi] at ri
  obtain ⟨k1, k2⟩ := Ring.splice ri (s.ring j) hheads hhi
  have hmem : ∀ k a, a ∈ head k :: update (update members i (members j)) j [] k →
      (a ∈ head k :: members k ∧ (k = j → a = head j)) ∨ (k = i ∧ a ∈ members j) := by
    intro k a ha
    by_cases hkj : k = j
    · subst hkj
      rw [update_self, mem_singleton] at ha
      exact .inl ⟨ha ▸ mem_cons_self, fun _ => ha⟩
    · rw [update_of_ne hkj] at ha
      by_cases hki : k = i
      · subst hki
        rw [update_self] at ha
        rcases mem_cons.mp ha with rfl | ha
        · exact .inl ⟨mem_cons_self, fun e => absurd e hkj⟩
        · exact .inr ⟨rfl, ha⟩
      · rw [update_of_ne hki] at ha
        exact .inl ⟨ha, fun e => absurd e hkj⟩
  constructor
  · intro k
    by_cases hkj : k = j
    · subst hkj
      rw [update_self]
      exact k2
    · rw [update_of_ne hkj]
      by_cases hki : k = i
      · subst hki
        rw [update_self]
        exact k1
      · rw [update_of_ne hki]
        refine (s.ring k).frame fun a ha b hb hab => ?_
        have hne : ∀ m, k ≠ m → ∀ c ∈ head k :: members k, c ≠ head m := by
          rintro m hkm c hc rfl
          exact s.disjoint k m hkm hc mem_cons_self
        exact adj_splice hp hn (hne i hki a ha) (hne j hkj a ha) (hne i hki b hb) (hne j hkj b hb) hab
  · intro k m hkm a ha hb
    rcases hmem k a ha with ⟨ha', hkj⟩ | ⟨rfl, ha'⟩ <;> rcases hmem m a hb with ⟨hb', hmj⟩ | ⟨rfl, hb'⟩
    · exact s.disjoint k m hkm ha' hb'
    · -- `a` came from the spliced ring, so on the other side it can only be its bare head
      by_cases e : k = j
      · exact s.not_head hb' (hkj e)
      · exact s.disjoint k j e ha' (mem_cons_of_mem _ hb')
    · by_cases e : m = j
      · exact s.not_head ha' (hmj e)
      · exact s.disjoint m j e hb' (mem_cons_of_mem _ ha')
    · exact hkm rfl

end

end RingSystem

end Vireo.Lib
