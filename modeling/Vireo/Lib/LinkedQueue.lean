/-
  File:      Vireo/Lib/LinkedQueue.lean
  Subject:   LINKED QUEUES WITH TWO ENDS, over an arbitrary type of links.

  A queue that is linked both ways and ends in a null link at both sides is a ring whose head is the
  null link: its `next` is the first member of the queue, its `prev` the last one.
-/
import Vireo.Lib.Ring

namespace Vireo.Lib

open Links Function List

variable {α : Type*}

/-- The links of a queue with the members `xs`. -/
def LinkedQueue (L : Links (Option α)) (xs : List α) : Prop := Ring L none (xs.map some)

namespace LinkedQueue

variable {L : Links (Option α)} {xs : List α} {x : α}

section

variable (q : LinkedQueue L xs)
include q

theorem nodup : xs.Nodup :=
  List.Nodup.of_map some (nodup_cons.mp (Ring.nodup q)).2

theorem next_none : L.next none = xs.head? := by
  cases xs with
  | nil => exact Ring.next_head_nil q
  | cons x xs => exact Ring.next_head_cons (l := xs.map some) q

theorem prev_none : L.prev none = xs.getLast? := by
  have hlast := getLast_of_isChain_concat (Ring.chain q)
  cases hxs : xs.getLast? with
  | none =>
    have hnil : xs = [] := List.getLast?_eq_none_iff.mp hxs
    subst hnil
    exact (hlast none rfl).2
  | some x =>
    refine (hlast (some x) ?_).2
    obtain ⟨ys, rfl⟩ := List.getLast?_eq_some_iff.mp hxs
    simp [List.getLast?_cons]

theorem linked (hx : x ∈ xs) : L.next (L.prev (some x)) = some x ∧ L.prev (L.next (some x)) = some x ∧
      (∀ p, L.prev (some x) = some p → p ∈ xs) ∧ (∀ n, L.next (some x) = some n → n ∈ xs) := by
  obtain ⟨hp, hn, mp, mn⟩ := Ring.linked q (mem_cons_of_mem _ (mem_map_of_mem hx))
  refine ⟨hp, hn, fun p e => ?_, fun n e => ?_⟩
  · rw [e] at mp
    simpa using mp
  · rw [e] at mn
    simpa using mn

end

theorem prev_head (q : LinkedQueue L (x :: xs)) : L.prev (some x) = none := by
  have hback := (Ring.linked q (mem_cons_self ..)).2.1
  rwa [q.next_none] at hback

theorem next_last (q : LinkedQueue L (xs ++ [x])) : L.next (some x) = none := by
  have hforth := (Ring.linked q (mem_cons_self ..)).1
  rwa [q.prev_none, List.getLast?_concat] at hforth

variable [DecidableEq α]

theorem setLinks (q : LinkedQueue L xs) (hx : x ∉ xs) (p n : Option α) :
    LinkedQueue ((L.setPrev (some x) p).setNext (some x) n) xs := by
  refine .frame q fun a ha b hb hab => ?_
  have hne : ∀ c ∈ none :: xs.map some, c ≠ some x := by
    rintro c hc rfl
    exact hx (by simpa using hc)
  constructor
  · simp only [setNext, setPrev, update_of_ne (hne a ha), hab.1]
  · simp only [setNext, setPrev, update_of_ne (hne b hb), hab.2]

/-- **A member is put in at the end.** -/
theorem append (q : LinkedQueue L xs) (hx : x ∉ xs) :
    LinkedQueue (L.append none (some x)) (xs ++ [x]) := by
  have h := Ring.append (x := some x) q (by simpa using hx)
  unfold LinkedQueue
  rwa [map_append]

/-- Take `x` out and leave it without neighbours. -/
def unlink (L : Links (Option α)) (x : α) : Links (Option α) :=
  (((L.setNext (L.prev (some x)) (L.next (some x))).setPrev (L.next (some x)) (L.prev (some x))).setPrev
    (some x) none).setNext (some x) none

/-- **A member is taken out**, wherever it is. -/
theorem unlink_mem {before after : List α} (q : LinkedQueue L (before ++ x :: after)) :
    LinkedQueue (unlink L x) (before ++ after) := by
  have hnodup := q.nodup
  have hx : x ∉ before ++ after := (nodup_cons.mp (nodup_middle.mp hnodup)).1
  have h : Ring L none (before.map some ++ some x :: after.map some) := by
    have := q
    unfold LinkedQueue at this
    rwa [map_append, map_cons] at this
  have hdetached : LinkedQueue (L.detach (some x)) (before ++ after) := by
    unfold LinkedQueue
    rw [map_append]
    exact .detach h
  have hreset := hdetached.setLinks hx none none
  have hsame : ((L.detach (some x)).setPrev (some x) none).setNext (some x) none = unlink L x := by
    simp only [Links.detach, unlink, setPrev, setNext, update_idem]
  rwa [hsame] at hreset

end LinkedQueue

end Vireo.Lib
