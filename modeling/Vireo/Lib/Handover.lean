/-
  File:      Vireo/Lib/Handover.lean
  Subject:   HANDING OWNED THINGS OVER THROUGH A RING BUFFER.

  Participants own at most one thing each; a thing comes into being in somebody's hands, goes into the
  ring, comes out into somebody's hands and is destroyed there.
-/
import Vireo.Lib.Custody
import Vireo.Lib.RingBuffer
import Mathlib.Data.List.Nodup

namespace Vireo.Lib

open Function

/-- A ring, the hands of the participants, what is alive, and the histories. -/
structure Handover (α τ : Type*) where
  ring : RingBuffer τ
  owner : α → Option τ
  live : List τ
  pushed : List τ
  popped : List τ

namespace Handover

variable {α τ : Type*}

/-- Who holds what: a participant, or a cell of the ring. -/
def holds (s : Handover α τ) : α ⊕ Nat → Option τ := Sum.elim s.owner s.ring.slots

section Moves

variable [DecidableEq α] [DecidableEq τ]

variable (s : Handover α τ)

/-- A new thing in the hands of `a`. -/
def supply (a : α) (t : τ) : Handover α τ :=
  { s with owner := update s.owner a (some t), live := t :: s.live }

/-- The thing in the hands of `a` is destroyed. -/
def dispose (a : α) (t : τ) : Handover α τ :=
  { s with owner := update s.owner a none, live := s.live.erase t }

/-- The thing in the hands of `a` goes into the ring. -/
def put (a : α) (t : τ) : Handover α τ :=
  { s with
    ring := s.ring.put t
    owner := update s.owner a none
    pushed := s.pushed ++ [t] }

/-- The first thing of the ring comes into the hands of `a`. -/
def take (a : α) (t : τ) : Handover α τ :=
  { s with
    ring := s.ring.drop
    owner := update s.owner a (some t)
    popped := s.popped ++ [t] }

/-- One step. -/
inductive Move (s : Handover α τ) : Handover α τ → Prop
  | stay : Move s s
  | supply (a : α) (t : τ) (hands : s.owner a = none) (fresh : t ∉ s.live) : Move s (s.supply a t)
  | dispose (a : α) (t : τ) (hands : s.owner a = some t) : Move s (s.dispose a t)
  | put (a : α) (t : τ) (hands : s.owner a = some t) (room : s.ring.count < s.ring.capacity) :
      Move s (s.put a t)
  | take (a : α) (t : τ) (hands : s.owner a = none) (full : s.ring.count ≠ 0)
      (first : s.ring.slots s.ring.head = some t) : Move s (s.take a t)

end Moves

theorem Move.popped [DecidableEq α] [DecidableEq τ] {s s' : Handover α τ} (m : Move s s') :
    ∃ l, s'.popped = s.popped ++ l := by
  cases m with
  | stay => exact ⟨[], (List.append_nil _).symm⟩
  | supply a t hands fresh => exact ⟨[], (List.append_nil _).symm⟩
  | dispose a t hands => exact ⟨[], (List.append_nil _).symm⟩
  | put a t hands room => exact ⟨[], (List.append_nil _).symm⟩
  | take a t hands full first => exact ⟨[t], rfl⟩

/-- Order and custody. -/
structure Inv (s : Handover α τ) (contents : List τ) : Prop where
  ring : s.ring.Holds contents
  order : s.pushed = s.popped ++ contents
  custody : Custody s.holds (· ∈ s.live)
  nodup : s.live.Nodup

theorem inv_empty (capacity : Nat) (h : 0 < capacity) :
    (⟨.empty capacity, fun _ => none, [], [], []⟩ : Handover α τ).Inv [] := by
  refine ⟨RingBuffer.holds_empty h, rfl, ⟨fun k t e => ?_, fun k k' t e => ?_, fun t ht => ?_⟩, List.nodup_nil⟩
  · cases k <;> cases e
  · cases k <;> cases e
  · exact absurd ht List.not_mem_nil

variable [DecidableEq α]

theorem holds_owner (f : α → Option τ) (g : Nat → Option τ) (a : α) (x : Option τ) :
    Sum.elim (update f a x) g = update (Sum.elim f g) (.inl a) x := by
  funext k
  rcases k with b | i
  · by_cases hb : b = a
    · rw [hb, update_self, Sum.elim_inl, update_self]
    · rw [update_of_ne (fun e => hb (Sum.inl.inj e)), Sum.elim_inl, Sum.elim_inl, update_of_ne hb]
  · rw [update_of_ne (by simp)]
    rfl

theorem holds_slot (f : α → Option τ) (g : Nat → Option τ) (i : Nat) (x : Option τ) :
    Sum.elim f (update g i x) = update (Sum.elim f g) (.inr i) x := by
  funext k
  rcases k with b | j
  · rw [update_of_ne (by simp)]
    rfl
  · by_cases hj : j = i
    · rw [hj, update_self, Sum.elim_inr, update_self]
    · rw [update_of_ne (fun e => hj (Sum.inr.inj e)), Sum.elim_inr, Sum.elim_inr, update_of_ne hj]

variable [DecidableEq τ]

/-- **Every step keeps order and custody.** -/
theorem Inv.move {s s' : Handover α τ} {contents : List τ} (inv : s.Inv contents)
    (m : Move s s') : ∃ contents', s'.Inv contents' := by
  cases m with
  | stay => exact ⟨contents, inv⟩
  | supply a t hands fresh =>
    refine ⟨contents, inv.ring, inv.order, ?_, List.nodup_cons.mpr ⟨fresh, inv.nodup⟩⟩
    show Custody (Sum.elim (update s.owner a (some t)) s.ring.slots) _
    rw [holds_owner]
    refine inv.custody.take (h := .inl a) fresh hands fun x => ?_
    show x ∈ t :: s.live ↔ _
    rw [List.mem_cons, or_comm]
  | dispose a t hands =>
    refine ⟨contents, inv.ring, inv.order, ?_, inv.nodup.erase t⟩
    show Custody (Sum.elim (update s.owner a none) s.ring.slots) _
    rw [holds_owner]
    refine inv.custody.drop (h := .inl a) hands fun x => ?_
    show x ∈ s.live.erase t ↔ _
    rw [inv.nodup.mem_erase_iff, and_comm]
  | put a t hands room =>
    refine ⟨contents ++ [t], inv.ring.put room t, ?_, ?_, inv.nodup⟩
    · show s.pushed ++ [t] = s.popped ++ (contents ++ [t])
      rw [inv.order, List.append_assoc]
    · show Custody (Sum.elim (update s.owner a none) (update s.ring.slots s.ring.tail (some t))) _
      rw [holds_slot, holds_owner]
      exact inv.custody.hand (h := .inl a) hands (inv.ring.tail_empty room)
  | take a t hands full first =>
    obtain ⟨x, l, rfl⟩ := inv.ring.ne_nil full
    obtain rfl : x = t := Option.some.inj (inv.ring.head_full.symm.trans first)
    refine ⟨l, inv.ring.take, ?_, ?_, inv.nodup⟩
    · show s.pushed = s.popped ++ [x] ++ l
      rw [inv.order, List.append_assoc, List.singleton_append]
    · show Custody (Sum.elim (update s.owner a (some x)) (update s.ring.slots s.ring.head none)) _
      rw [holds_owner, holds_slot]
      exact inv.custody.hand (h := .inr s.ring.head) first hands

/-! ## Calls that report what they moved -/

/-- A call with `owner` in hand that reports a transfer has put it into the ring; one that does not
    has moved nothing. -/
inductive Gives (r : RingBuffer τ) (owner : Option τ) (told : Bool) (owner' : Option τ)
    (r' : RingBuffer τ) : Prop
  | moved (t : τ) (told : told = true) (had : owner = some t) (gave : owner' = none)
      (ring : r' = r.put t) (room : r.count ≠ r.capacity)
  | kept (told : told = false) (owner : owner' = owner) (ring : r' = r)

/-- A call with empty hands that reports a transfer has taken the first thing of the ring; one that
    does not has moved nothing. -/
inductive Gets (r : RingBuffer τ) (owner : Option τ) (told : Bool) (owner' : Option τ)
    (r' : RingBuffer τ) : Prop
  | moved (told : told = true) (had : owner = none) (got : owner' = r.slots r.head)
      (ring : r' = r.drop) (full : r.count ≠ 0)
  | kept (told : told = false) (owner : owner' = owner) (ring : r' = r)

/-- A giving call of `a` has returned. -/
def gave (s : Handover α τ) (a : α) (told : Bool) (owner' : Option τ) (r' : RingBuffer τ) :
    Handover α τ :=
  { s with
    ring := r'
    owner := update s.owner a owner'
    pushed := s.pushed ++ if told then (s.owner a).toList else [] }

/-- A taking call of `a` has returned. -/
def got (s : Handover α τ) (a : α) (told : Bool) (owner' : Option τ) (r' : RingBuffer τ) :
    Handover α τ :=
  { s with
    ring := r'
    owner := update s.owner a owner'
    popped := s.popped ++ if told then owner'.toList else [] }

variable {s : Handover α τ} {contents : List τ} {a : α} {told : Bool} {owner' : Option τ}
  {r' : RingBuffer τ}

/-- **A giving call is one step.** -/
theorem Gives.move (hr : s.ring.Holds contents) (h : Gives s.ring (s.owner a) told owner' r') :
    Move s (s.gave a told owner' r') := by
  cases h with
  | moved t htold had gave ring room =>
    subst htold gave ring
    have e : s.gave a true none (s.ring.put t) = s.put a t := by
      unfold Handover.gave Handover.put
      rw [had]
      rfl
    rw [e]
    exact .put a t had (Nat.lt_of_le_of_ne hr.count_le room)
  | kept htold owner ring =>
    subst htold owner ring
    have e : s.gave a false (s.owner a) s.ring = s := by
      unfold Handover.gave
      rw [update_eq_self, if_neg Bool.false_ne_true, List.append_nil]
    rw [e]
    exact .stay

/-- **A taking call is one step.** -/
theorem Gets.move (hr : s.ring.Holds contents) (h : Gets s.ring (s.owner a) told owner' r') :
    Move s (s.got a told owner' r') := by
  cases h with
  | moved htold had got ring full =>
    obtain ⟨t, l, rfl⟩ := hr.ne_nil full
    rw [hr.head_full] at got
    subst htold got ring
    exact .take a t had full hr.head_full
  | kept htold owner ring =>
    subst htold owner ring
    have e : s.got a false (s.owner a) s.ring = s := by
      unfold Handover.got
      rw [update_eq_self, if_neg Bool.false_ne_true, List.append_nil]
    rw [e]
    exact .stay

end Handover

end Vireo.Lib
