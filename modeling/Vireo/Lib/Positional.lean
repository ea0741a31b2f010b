/-
  File:      Vireo/Lib/Positional.lean
  Subject:   DIGITS, THE HIGHEST FIRST, and how the bits of one width are dealt out in another.
-/
import Mathlib.Data.Nat.Digits.Defs
import Mathlib.Data.Nat.Digits.Lemmas
import Mathlib.Tactic.Ring
import Vireo.Lib.Decimal

namespace Vireo.Lib

open List

/-! ## 1. Digits -/

/-- The number that digits stand for, the highest first. -/
def positional (b : Nat) (l : List Nat) : Nat := Nat.ofDigits b l.reverse

@[simp]
theorem positional_nil (b : Nat) : positional b [] = 0 := rfl

theorem positional_snoc (b : Nat) (l : List Nat) (d : Nat) :
    positional b (l ++ [d]) = positional b l * b + d := by
  unfold positional
  rw [reverse_append, reverse_singleton, singleton_append, Nat.ofDigits_cons, Nat.mul_comm, Nat.add_comm]

/-- **Digits of one number and one length are the same.** -/
theorem positional_inj {b : Nat} (hb : 1 < b) {l l' : List Nat} (hlength : l.length = l'.length)
    (h : ∀ d ∈ l, d < b) (h' : ∀ d ∈ l', d < b) (heq : positional b l = positional b l') : l = l' := by
  refine reverse_injective (Nat.ofDigits_inj_of_len_eq hb (by simpa using hlength) ?_ ?_ heq)
  · simpa using h
  · simpa using h'

/-! ## 2. Bits dealt out anew -/

/-- Digits of `wi` bits went in, digits of `wo` bits came out, and the last bits are left. -/
structure Regrouped (wi wo : Nat) (ins outs : List Nat) (bits : Nat) : Prop where
  count : wo * outs.length + bits = wi * ins.length
  value : positional (2 ^ wo) outs = positional (2 ^ wi) ins / 2 ^ bits

section Regrouped

variable {wi wo bits : Nat} {ins outs : List Nat}

theorem regrouped_nil (wi wo : Nat) : Regrouped wi wo [] [] 0 := ⟨rfl, by simp⟩

section

variable (h : Regrouped wi wo ins outs bits)
include h

/-- **One more digit goes in.** -/
theorem Regrouped.absorb {d : Nat} (hd : d < 2 ^ wi) : Regrouped wi wo (ins ++ [d]) outs (bits + wi) := by
  refine ⟨?_, ?_⟩
  · have hcount := h.count
    rw [length_append, length_singleton, Nat.mul_add, Nat.mul_one]
    omega
  · rw [h.value, positional_snoc, Nat.add_comm bits, Nat.pow_add, ← Nat.div_div_eq_div_mul,
      Nat.add_comm (_ * _), Nat.add_mul_div_right _ _ (Nat.two_pow_pos wi), Nat.div_eq_of_lt hd, Nat.zero_add]

/-- **The highest bits that are left come out.** -/
theorem Regrouped.emit (hbits : wo ≤ bits) :
    Regrouped wi wo ins (outs ++ [positional (2 ^ wi) ins / 2 ^ (bits - wo) % 2 ^ wo]) (bits - wo) := by
  refine ⟨?_, ?_⟩
  · have hcount := h.count
    rw [length_append, length_singleton, Nat.mul_add, Nat.mul_one]
    omega
  · have hsplit : 2 ^ bits = 2 ^ (bits - wo) * 2 ^ wo := by
      rw [← Nat.pow_add, Nat.sub_add_cancel hbits]
    rw [positional_snoc, h.value, hsplit, ← Nat.div_div_eq_div_mul, Nat.mul_comm]
    exact Nat.div_add_mod _ _

/-- The bits that are left come out with zeros behind them. -/
theorem Regrouped.pad (hbits : bits ≤ wo) :
    positional (2 ^ wo) (outs ++ [positional (2 ^ wi) ins * 2 ^ (wo - bits) % 2 ^ wo]) =
      positional (2 ^ wi) ins * 2 ^ (wo - bits) := by
  have hsplit : 2 ^ wo = 2 ^ bits * 2 ^ (wo - bits) := by
    rw [← Nat.pow_add, Nat.add_sub_cancel' hbits]
  rw [positional_snoc, h.value]
  calc positional (2 ^ wi) ins / 2 ^ bits * 2 ^ wo + positional (2 ^ wi) ins * 2 ^ (wo - bits) % 2 ^ wo
      = positional (2 ^ wi) ins / 2 ^ bits * (2 ^ bits * 2 ^ (wo - bits)) +
          positional (2 ^ wi) ins % 2 ^ bits * 2 ^ (wo - bits) := by
        rw [hsplit, Nat.mul_mod_mul_right]
    _ = (2 ^ bits * (positional (2 ^ wi) ins / 2 ^ bits) + positional (2 ^ wi) ins % 2 ^ bits) *
          2 ^ (wo - bits) := by
        ring
    _ = positional (2 ^ wi) ins * 2 ^ (wo - bits) := by rw [Nat.div_add_mod]

theorem Regrouped.exact :
    positional (2 ^ wi) ins % 2 ^ bits = 0 ↔ positional (2 ^ wi) ins = positional (2 ^ wo) outs * 2 ^ bits := by
  have hdiv := Nat.div_add_mod (positional (2 ^ wi) ins) (2 ^ bits)
  rw [← h.value, Nat.mul_comm] at hdiv
  omega

end

end Regrouped

/-! ## 3. Decimal numerals -/

/-- The shortest decimal numeral of a number. -/
def numeral (n : Nat) : List UInt8 := if n = 0 then [0x30] else (Nat.digits 10 n).reverse.map digit

/-- The shape of such a numeral: digits, and no zero in front of others. -/
structure IsNumeral (s : List UInt8) : Prop where
  digits : s.all isDigit = true
  pos : s ≠ []
  front : 1 < s.length → s.head? ≠ some 0x30

theorem isNumeral_def {s : List UInt8} :
    s.all isDigit = true ∧ s ≠ [] ∧ (1 < s.length → s.head? ≠ some 0x30) ↔ IsNumeral s :=
  ⟨fun h => ⟨h.1, h.2.1, h.2.2⟩, fun h => ⟨h.digits, h.pos, h.front⟩⟩

instance (s : List UInt8) : Decidable (IsNumeral s) := decidable_of_iff _ isNumeral_def

theorem decimalFrom_eq (n : Nat) (s : List UInt8) :
    decimalFrom n s = n * 10 ^ s.length + positional 10 (s.map digitValue) := by
  induction s generalizing n with
  | nil => simp
  | cons b s ih =>
    have hcons : positional 10 (digitValue b :: s.map digitValue) =
        digitValue b * 10 ^ s.length + positional 10 (s.map digitValue) := by
      unfold positional
      rw [reverse_cons, Nat.ofDigits_append, length_reverse, length_map, Nat.ofDigits_singleton]
      ring
    rw [decimalFrom_cons, ih, map_cons, hcons, length_cons]
    ring

theorem digit_ne_zero {d : Nat} (h : d < 10) (h0 : d ≠ 0) : digit d ≠ 0x30 := fun heq => by
  have hvalue := digitValue_digit h
  rw [heq] at hvalue
  exact h0 hvalue.symm

theorem isNumeral_numeral (n : Nat) : IsNumeral (numeral n) := by
  unfold numeral
  by_cases hn : n = 0
  · rw [if_pos hn]
    exact ⟨rfl, by simp, fun h => absurd h (by simp)⟩
  · rw [if_neg hn]
    have hne : Nat.digits 10 n ≠ [] := Nat.digits_ne_nil_iff_ne_zero.mpr hn
    refine ⟨?_, by simpa using hne, fun _ => ?_⟩
    · rw [all_map, all_reverse, all_eq_true]
      exact fun d hd => isDigit_digit (Nat.digits_lt_base (by decide) hd)
    · rw [List.head?_map, List.head?_reverse, List.getLast?_eq_getLast_of_ne_nil hne, Option.map_some]
      intro heq
      exact digit_ne_zero (Nat.digits_lt_base (by decide) (getLast_mem hne))
        (Nat.getLast_digit_ne_zero 10 hn) (Option.some.inj heq)

theorem decimalFrom_numeral (n : Nat) : decimalFrom 0 (numeral n) = n := by
  unfold numeral
  by_cases hn : n = 0
  · rw [if_pos hn, hn]
    rfl
  · have hvalues : ((Nat.digits 10 n).reverse.map digit).map digitValue = (Nat.digits 10 n).reverse := by
      rw [map_map]
      refine (map_congr_left fun d hd => ?_).trans (map_id _)
      exact digitValue_digit (Nat.digits_lt_base (by decide) (mem_reverse.mp hd))
    rw [if_neg hn, decimalFrom_eq, hvalues, positional, reverse_reverse, Nat.ofDigits_digits]
    omega

/-- **The shortest numerals** are the digits without a zero in front. -/
theorem numeral_iff {s : List UInt8} {n : Nat} : IsNumeral s ∧ decimalFrom 0 s = n ↔ s = numeral n := by
  constructor
  · rintro ⟨⟨hdigits, hpos, hfront⟩, rfl⟩
    have hback : (s.map digitValue).map digit = s := by
      rw [map_map]
      refine (map_congr_left fun b hb => ?_).trans (map_id _)
      exact digit_digitValue (all_eq_true.mp hdigits b hb)
    have hlt : ∀ d ∈ (s.map digitValue).reverse, d < 10 := by
      intro d hd
      obtain ⟨b, hb, rfl⟩ := mem_map.mp (mem_reverse.mp hd)
      exact digitValue_lt (all_eq_true.mp hdigits b hb)
    rw [decimalFrom_eq, Nat.zero_mul, Nat.zero_add]
    unfold numeral
    by_cases hzero : positional 10 (s.map digitValue) = 0
    · -- the number is zero: a single digit, or a zero in front of others
      rw [if_pos hzero]
      obtain ⟨b, s, rfl⟩ := exists_cons_of_ne_nil hpos
      have hb : digitValue b = 0 := by
        have hle := le_decimalFrom (digitValue b) s
        have hsum := decimalFrom_eq 0 (b :: s)
        rw [decimalFrom_cons, hzero] at hsum
        simp only [Nat.zero_mul, Nat.zero_add] at hsum
        omega
      have hb' : b = 0x30 := by
        have hdigit := digit_digitValue (all_eq_true.mp hdigits b (mem_cons_self ..))
        rw [hb] at hdigit
        exact hdigit.symm
      cases s with
      | nil => rw [hb']
      | cons c s => exact absurd (congrArg some hb') (hfront (by simp))
    · rw [if_neg hzero]
      unfold positional
      rw [Nat.digits_ofDigits 10 (by decide) _ hlt, reverse_reverse, hback]
      intro hne
      obtain ⟨b, s, rfl⟩ := exists_cons_of_ne_nil hpos
      simp only [map_cons, reverse_cons, getLast_append_singleton]
      intro hb
      cases s with
      | nil =>
        refine hzero ?_
        rw [map_cons, hb]
        rfl
      | cons c s =>
        have hdigit := digit_digitValue (all_eq_true.mp hdigits b (mem_cons_self ..))
        rw [hb] at hdigit
        exact hfront (by simp) (congrArg some hdigit.symm)
  · rintro rfl
    exact ⟨isNumeral_numeral n, decimalFrom_numeral n⟩

end Vireo.Lib
