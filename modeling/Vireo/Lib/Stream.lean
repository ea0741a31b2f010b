/-
  File:      Vireo/Lib/Stream.lean
  Subject:   STREAMS OF SELF-DELIMITING ITEMS: what is read from the front of a stream, whole or in
             pieces.
-/
import Mathlib.Data.List.Basic

namespace Vireo.Lib

open List

/-- What a look at the front of a stream says. -/
inductive Look (α ε : Type*) where
  | item (a : α) (length : Nat)
  | refuse (e : ε)
  | more
deriving DecidableEq

/-- A way to look at the front of a stream. -/
structure Reading (β α ε : Type*) where
  look : List β → Look α ε
  pos : ∀ {s a n}, look s = .item a n → 0 < n
  le : ∀ {s a n}, look s = .item a n → n ≤ s.length
  item_append : ∀ {s a n}, look s = .item a n → ∀ t, look (s ++ t) = .item a n
  refuse_append : ∀ {s e}, look s = .refuse e → ∀ t, look (s ++ t) = .refuse e

namespace Reading

variable {β α ε : Type*} {R : Reading β α ε} {s : List β} {as : List α}

/-! ## 1. Reading a number of items -/

/-- The items `as` are read from the front of `s` and leave `r`. -/
inductive Reads (R : Reading β α ε) : List β → List α → List β → Prop
  | done (s : List β) : Reads R s [] s
  | item {s r : List β} {a : α} {n : Nat} {as : List α} (look : R.look s = .item a n)
      (rest : Reads R (s.drop n) as r) : Reads R s (a :: as) r

variable {r t : List β} {bs : List α}

theorem Reads.trans (h : R.Reads s as r) (h' : R.Reads r bs t) : R.Reads s (as ++ bs) t := by
  induction h with
  | done s => exact h'
  | item look rest ih => exact .item look (ih h')

theorem Reads.single {a : α} {n : Nat} (h : R.look s = .item a n) :
    R.Reads s [a] (s.drop n) := .item h (.done _)

/-- **What is read from a piece is read from the whole.** -/
theorem Reads.append (h : R.Reads s as r) (t : List β) : R.Reads (s ++ t) as (r ++ t) := by
  induction h with
  | done s => exact .done _
  | item look rest ih =>
    refine .item (R.item_append look t) ?_
    rw [drop_append_of_le_length (R.le look)]
    exact ih

theorem Reads.length (h : R.Reads s as r) : r.length + as.length ≤ s.length := by
  induction h with
  | done s => simp
  | item look rest ih =>
    have hpos := R.pos look
    have hle := R.le look
    simp only [length_drop, length_cons] at ih ⊢
    omega

/-- **Of two readings of a stream one goes on where the other stopped.** -/
theorem Reads.comparable (h : R.Reads s as r) (h' : R.Reads s bs t) :
    (∃ cs, bs = as ++ cs ∧ R.Reads r cs t) ∨ ∃ c cs, as = bs ++ c :: cs ∧ R.Reads t (c :: cs) r := by
  induction h generalizing bs with
  | done s => exact .inl ⟨bs, rfl, h'⟩
  | @item s r a n as look rest ih =>
    cases h' with
    | done => exact .inr ⟨a, as, rfl, .item look rest⟩
    | item look' rest' =>
      rw [look] at look'
      cases look'
      rcases ih rest' with longer | shorter
      · obtain ⟨cs, hcs, hreads⟩ := longer
        exact .inl ⟨cs, by rw [hcs]; rfl, hreads⟩
      · obtain ⟨c, cs, hcs, hreads⟩ := shorter
        exact .inr ⟨c, cs, by rw [hcs]; rfl, hreads⟩

/-! ## 2. Parsing a whole stream -/

/-- All items of `s`: what is left is not looked at any further, for want of more or with a
    refusal. -/
structure Parsed (R : Reading β α ε) (s : List β) (as : List α) (r : List β) (o : Option ε) :
    Prop where
  reads : R.Reads s as r
  stop : R.look r = o.elim .more .refuse

/-- The items of a stream, what is left of it and the reason when it was refused, in at most the
    given number of looks. -/
def parseFrom (R : Reading β α ε) : Nat → List β → List α × List β × Option ε
  | 0, s => ([], s, none)
  | k + 1, s =>
    match R.look s with
    | .item a n => let p := parseFrom R k (s.drop n); (a :: p.1, p.2)
    | .refuse e => ([], s, some e)
    | .more => ([], s, none)

/-- The items of a stream, what is left of it and the reason when it was refused. -/
def parse (R : Reading β α ε) (s : List β) : List α × List β × Option ε :=
  R.parseFrom (s.length + 1) s

theorem parsed_parseFrom {k : Nat} (hk : s.length < k) :
    R.Parsed s (R.parseFrom k s).1 (R.parseFrom k s).2.1 (R.parseFrom k s).2.2 := by
  induction k generalizing s with
  | zero => omega
  | succ k ih =>
    unfold parseFrom
    cases h : R.look s with
    | item a n =>
      have hpos := R.pos h
      have hle := R.le h
      have := ih (s := s.drop n) (by rw [length_drop]; omega)
      exact ⟨.item h this.reads, this.stop⟩
    | refuse e => exact ⟨.done s, h⟩
    | more => exact ⟨.done s, h⟩

theorem parsed_parse (s : List β) :
    R.Parsed s (R.parse s).1 (R.parse s).2.1 (R.parse s).2.2 := parsed_parseFrom (Nat.lt_succ_self _)

variable {o : Option ε}

/-- **A parse goes on where a reading stopped.** -/
theorem Parsed.of_reads (h : R.Parsed s as t o) (hr : R.Reads s bs r) :
    ∃ cs, as = bs ++ cs ∧ R.Parsed r cs t o := by
  induction hr generalizing as with
  | done s => exact ⟨as, rfl, h⟩
  | item look rest ih =>
    obtain ⟨reads, stop⟩ := h
    cases reads with
    | done =>
      -- the parse stopped where an item is
      rw [look] at stop
      cases o <;> cases stop
    | item look' rest' =>
      rw [look] at look'
      cases look'
      obtain ⟨cs, hcs, hp⟩ := ih ⟨rest', stop⟩
      exact ⟨cs, by rw [hcs]; rfl, hp⟩

theorem Parsed.unique {r' : List β} {as' : List α} {o' : Option ε} (h : R.Parsed s as r o)
    (h' : R.Parsed s as' r' o') : as' = as ∧ r' = r ∧ o' = o := by
  obtain ⟨cs, rfl, hp⟩ := h'.of_reads h.reads
  obtain ⟨reads, stop⟩ := hp
  have h₁ := h.stop
  cases reads with
  | done =>
    rw [stop] at h₁
    refine ⟨List.append_nil _, rfl, ?_⟩
    cases o <;> cases o' <;> cases h₁ <;> rfl
  | item look rest =>
    rw [look] at h₁
    cases o <;> cases h₁

theorem parse_eq (h : R.Parsed s as r o) : R.parse s = (as, r, o) := by
  obtain ⟨h₁, h₂, h₃⟩ := h.unique (parsed_parse s)
  rw [← h₁, ← h₂, ← h₃]

end Reading

/-! ## 3. Writing items -/

/-- A way to write the items of a reading, and the only one. -/
structure Coding {β α ε : Type*} (R : Reading β α ε) where
  encode : α → List β
  look_encode : ∀ a t, R.look (encode a ++ t) = .item a (encode a).length
  encode_look : ∀ {s a n}, R.look s = .item a n → s.take n = encode a

namespace Coding

variable {β α ε : Type*} {R : Reading β α ε} (C : Coding R)

/-- Items written one after the other. -/
def encodeAll (as : List α) : List β := as.flatMap C.encode

@[simp]
theorem encodeAll_nil : C.encodeAll [] = [] := rfl

@[simp]
theorem encodeAll_cons (a : α) (as : List α) :
    C.encodeAll (a :: as) = C.encode a ++ C.encodeAll as := flatMap_cons ..

@[simp]
theorem encodeAll_append (as bs : List α) :
    C.encodeAll (as ++ bs) = C.encodeAll as ++ C.encodeAll bs := flatMap_append ..

/-- **What was written is read back.** -/
theorem reads_encode (as : List α) (t : List β) : R.Reads (C.encodeAll as ++ t) as t := by
  induction as with
  | nil => exact .done t
  | cons a as ih =>
    rw [encodeAll_cons, append_assoc]
    refine .item (C.look_encode a _) ?_
    rw [drop_left]
    exact ih

variable {as : List α}

/-- **What is read was written.** -/
theorem encode_of_reads {s r : List β} (h : R.Reads s as r) : s = C.encodeAll as ++ r := by
  induction h with
  | done s => rfl
  | @item s r a n as look rest ih =>
    rw [encodeAll_cons, append_assoc, ← ih, ← C.encode_look look, take_append_drop]

theorem reads_iff {s r : List β} : R.Reads s as r ↔ s = C.encodeAll as ++ r := by
  constructor
  · exact C.encode_of_reads
  intro h
  rw [h]
  exact C.reads_encode as r

theorem encodeAll_injective : Function.Injective C.encodeAll := by
  intro as bs h
  have hreads := C.reads_encode as []
  have hreads' := C.reads_encode bs []
  rw [← h] at hreads'
  rcases hreads.comparable hreads' with later | earlier
  · obtain ⟨more, hmore, hrest⟩ := later
    have hlen := hrest.length
    simp only [length_nil, Nat.zero_add, Nat.le_zero, length_eq_zero_iff] at hlen
    rw [hmore, hlen, List.append_nil]
  · obtain ⟨a, more, -, hrest⟩ := earlier
    have hlen := hrest.length
    simp at hlen

end Coding

end Vireo.Lib
