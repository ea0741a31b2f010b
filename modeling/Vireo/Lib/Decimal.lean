/-
  File:      Vireo/Lib/Decimal.lean
  Subject:   DECIMAL NUMERALS in ASCII.
-/
import Mathlib.Data.List.Basic

namespace Vireo.Lib

open List

/-! ## 1. Digits -/

def isDigit (b : UInt8) : Bool := b ≥ 0x30 && b ≤ 0x39

def digitValue (b : UInt8) : Nat := b.toNat - 48

/-- The digit of a number below ten. -/
def digit (n : Nat) : UInt8 := UInt8.ofNat (48 + n)

theorem isDigit_iff {b : UInt8} : isDigit b = true ↔ 48 ≤ b.toNat ∧ b.toNat ≤ 57 := by
  simp [isDigit, UInt8.le_iff_toNat_le]

theorem digitValue_lt {b : UInt8} (h : isDigit b = true) : digitValue b < 10 := by
  have hb := isDigit_iff.mp h
  unfold digitValue
  omega

theorem digit_digitValue {b : UInt8} (h : isDigit b = true) : digit (digitValue b) = b := by
  have hb := isDigit_iff.mp h
  unfold digit digitValue
  rw [Nat.add_sub_cancel' hb.1, UInt8.ofNat_toNat]

theorem toNat_digit {n : Nat} (h : n < 10) : (digit n).toNat = 48 + n := by
  unfold digit
  rw [UInt8.toNat_ofNat']
  omega

theorem isDigit_digit {n : Nat} (h : n < 10) : isDigit (digit n) = true := by
  rw [isDigit_iff, toNat_digit h]
  omega

theorem digitValue_digit {n : Nat} (h : n < 10) : digitValue (digit n) = n := by
  rw [digitValue, toNat_digit h]
  omega

/-! ## 2. Numerals -/

/-- The number that digits stand for behind the ones of `n`. -/
def decimalFrom (n : Nat) (s : List UInt8) : Nat := s.foldl (fun n b => n * 10 + digitValue b) n

/-- The number that a string stands for, when it is digits and at least one. -/
def decimal? (s : List UInt8) : Option Nat :=
  if s ≠ [] ∧ s.all isDigit = true then some (decimalFrom 0 s) else none

@[simp]
theorem decimalFrom_nil (n : Nat) : decimalFrom n [] = n := foldl_nil

@[simp]
theorem decimalFrom_cons (n : Nat) (b : UInt8) (s : List UInt8) :
    decimalFrom n (b :: s) = decimalFrom (n * 10 + digitValue b) s := foldl_cons ..

theorem le_decimalFrom (n : Nat) (s : List UInt8) : n ≤ decimalFrom n s := by
  induction s generalizing n with
  | nil => exact Nat.le_refl n
  | cons b s ih =>
    have hstep := ih (n * 10 + digitValue b)
    rw [decimalFrom_cons]
    omega

/-! ## 3. Octets -/

/-- The shortest numeral of a number below 256. -/
def octetText (n : Nat) : List UInt8 :=
  if n < 10 then [digit n]
  else if n < 100 then [digit (n / 10), digit (n % 10)]
  else [digit (n / 100), digit (n / 10 % 10), digit (n % 10)]

/-- The shape of such a numeral: one to three digits, no zero in front of others, and the value. -/
structure IsOctet (s : List UInt8) : Prop where
  digits : s.all isDigit = true
  pos : s ≠ []
  short : s.length ≤ 3
  front : 1 < s.length → s.head? ≠ some 0x30
  bound : decimalFrom 0 s ≤ 255

/-- **The shortest numerals below 256**, and these are all of that shape. -/
theorem octetText_iff {s : List UInt8} : IsOctet s ↔ ∃ n, n < 256 ∧ s = octetText n := by
  constructor
  · intro ⟨hdigits, hpos, hshort, hfront, hbound⟩
    refine ⟨decimalFrom 0 s, by omega, ?_⟩
    have hzero : ∀ b, isDigit b = true → b ≠ 0x30 → 1 ≤ digitValue b := by
      intro b hb hne
      have hb := isDigit_iff.mp hb
      have hne : b.toNat ≠ 48 := fun h => hne (UInt8.toNat_inj.mp h)
      unfold digitValue
      omega
    match s with
    | [] => exact absurd rfl hpos
    | [a] =>
      simp only [all_cons, all_nil, Bool.and_true] at hdigits
      have ha := digitValue_lt hdigits
      simp [octetText, ha, digit_digitValue hdigits]
    | [a, b] =>
      simp only [all_cons, all_nil, Bool.and_true, Bool.and_eq_true] at hdigits
      have ha := digitValue_lt hdigits.1
      have hb := digitValue_lt hdigits.2
      have hone := hzero a hdigits.1 (by simpa using hfront (by simp))
      have hvalue : decimalFrom 0 [a, b] = digitValue a * 10 + digitValue b := by simp
      have hhigh : (digitValue a * 10 + digitValue b) / 10 = digitValue a := by omega
      have hlow : (digitValue a * 10 + digitValue b) % 10 = digitValue b := by omega
      rw [hvalue, octetText, if_neg (by omega), if_pos (by omega), hhigh, hlow, digit_digitValue hdigits.1,
        digit_digitValue hdigits.2]
    | [a, b, c] =>
      simp only [all_cons, all_nil, Bool.and_true, Bool.and_eq_true] at hdigits
      have ha := digitValue_lt hdigits.1
      have hb := digitValue_lt hdigits.2.1
      have hc := digitValue_lt hdigits.2.2
      have hone := hzero a hdigits.1 (by simpa using hfront (by simp))
      have hvalue : decimalFrom 0 [a, b, c] = (digitValue a * 10 + digitValue b) * 10 + digitValue c := by simp
      have hhigh : ((digitValue a * 10 + digitValue b) * 10 + digitValue c) / 100 = digitValue a := by omega
      have hmid : ((digitValue a * 10 + digitValue b) * 10 + digitValue c) / 10 % 10 = digitValue b := by omega
      have hlow : ((digitValue a * 10 + digitValue b) * 10 + digitValue c) % 10 = digitValue c := by omega
      rw [hvalue, octetText, if_neg (by omega), if_neg (by omega), hhigh, hmid, hlow, digit_digitValue hdigits.1,
        digit_digitValue hdigits.2.1, digit_digitValue hdigits.2.2]
    | a :: b :: c :: d :: s =>
      simp only [length_cons] at hshort
      omega
  · intro ⟨n, hn, hs⟩
    have hfront : ∀ k, 1 ≤ k → k < 10 → digit k ≠ 0x30 := by
      intro k hk hlt heq
      have hnat := congrArg UInt8.toNat heq
      rw [toNat_digit hlt] at hnat
      have hzero : (0x30 : UInt8).toNat = 48 := rfl
      omega
    subst hs
    unfold octetText
    split
    · rename_i hone
      exact ⟨by simp [isDigit_digit hone], by simp, by simp, by simp, by simp [digitValue_digit hone]; omega⟩
    · split
      · rename_i hone htwo
        have ha : n / 10 < 10 := by omega
        have hb : n % 10 < 10 := by omega
        refine ⟨by simp [isDigit_digit ha, isDigit_digit hb], by simp, by simp, fun _ => ?_, ?_⟩
        · simpa using hfront _ (by omega) ha
        · simp [digitValue_digit ha, digitValue_digit hb]
          omega
      · rename_i hone htwo
        have ha : n / 100 < 10 := by omega
        have hb : n / 10 % 10 < 10 := by omega
        have hc : n % 10 < 10 := by omega
        refine ⟨by simp [isDigit_digit ha, isDigit_digit hb, isDigit_digit hc], by simp, by simp, fun _ => ?_, ?_⟩
        · simpa using hfront _ (by omega) ha
        · simp [digitValue_digit ha, digitValue_digit hb, digitValue_digit hc]
          omega

end Vireo.Lib
