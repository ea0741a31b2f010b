/-
  File:      Vireo/Lib/Utf8.lean
  Subject:   THE BYTES OF A CHARACTER IN UTF-8: the four forms and their ranges.

  `String.utf8EncodeChar` says how a character is written; here are the ranges its bytes lie in, and
  that every byte sequence in these ranges is a character.
-/
import Mathlib.Data.List.Basic

namespace Vireo.Lib

/-- The bytes of a form and their value; the ranges of the second byte leave out overlong forms, surrogates
    and what is above 0x10FFFF. -/
inductive Utf8Form : List UInt8 → Nat → Prop
  | one (a : UInt8) (ha : a.toNat ≤ 0x7F) : Utf8Form [a] a.toNat
  | two (a b : UInt8) (ha : 0xC2 ≤ a.toNat ∧ a.toNat ≤ 0xDF) (hb : 0x80 ≤ b.toNat ∧ b.toNat ≤ 0xBF) :
      Utf8Form [a, b] ((a.toNat - 0xC0) * 64 + (b.toNat - 0x80))
  | three (a b c : UInt8) (ha : 0xE0 ≤ a.toNat ∧ a.toNat ≤ 0xEF)
      (hb : 0x80 ≤ b.toNat ∧ b.toNat ≤ 0xBF) (hc : 0x80 ≤ c.toNat ∧ c.toNat ≤ 0xBF)
      (overlong : a.toNat = 0xE0 → 0xA0 ≤ b.toNat) (surrogate : a.toNat = 0xED → b.toNat ≤ 0x9F) :
      Utf8Form [a, b, c] ((a.toNat - 0xE0) * 4096 + (b.toNat - 0x80) * 64 + (c.toNat - 0x80))
  | four (a b c d : UInt8) (ha : 0xF0 ≤ a.toNat ∧ a.toNat ≤ 0xF4)
      (hb : 0x80 ≤ b.toNat ∧ b.toNat ≤ 0xBF) (hc : 0x80 ≤ c.toNat ∧ c.toNat ≤ 0xBF)
      (hd : 0x80 ≤ d.toNat ∧ d.toNat ≤ 0xBF) (overlong : a.toNat = 0xF0 → 0x90 ≤ b.toNat)
      (above : a.toNat = 0xF4 → b.toNat ≤ 0x8F) :
      Utf8Form [a, b, c, d] ((a.toNat - 0xF0) * 262144 + (b.toNat - 0x80) * 4096 +
        (c.toNat - 0x80) * 64 + (d.toNat - 0x80))

theorem char_toNat_valid (c : Char) :
    c.val.toNat < 0xD800 ∨ (0xDFFF < c.val.toNat ∧ c.val.toNat < 0x110000) := c.valid

theorem uint8_toNat_ofNat {n : Nat} (h : n < 256) : (UInt8.ofNat n).toNat = n := by
  rw [UInt8.toNat_ofNat', Nat.mod_eq_of_lt h]

/-- **A character is written in one of the four forms**, and carries its value. -/
theorem utf8Form_encode (c : Char) : Utf8Form (String.utf8EncodeChar c) c.val.toNat := by
  have hvalid := char_toNat_valid c
  unfold String.utf8EncodeChar
  generalize c.val.toNat = v at hvalid ⊢
  dsimp only
  split
  · have ha := uint8_toNat_ofNat (n := v) (by omega)
    have h := Utf8Form.one (UInt8.ofNat v) (by omega)
    rwa [ha] at h
  · split
    · have ha := uint8_toNat_ofNat (n := v / 64 % 0x20 + 0xC0) (by omega)
      have hb := uint8_toNat_ofNat (n := v % 0x40 + 0x80) (by omega)
      have h := Utf8Form.two _ _ (by rw [ha]; omega) (by rw [hb]; omega)
      rw [ha, hb] at h
      convert h using 1
      omega
    · split
      · have ha := uint8_toNat_ofNat (n := v / 4096 % 0x10 + 0xE0) (by omega)
        have hb := uint8_toNat_ofNat (n := v / 64 % 0x40 + 0x80) (by omega)
        have hc := uint8_toNat_ofNat (n := v % 0x40 + 0x80) (by omega)
        have h := Utf8Form.three _ _ _ (by rw [ha]; omega) (by rw [hb]; omega) (by rw [hc]; omega)
          (by rw [ha, hb]; omega) (by rw [ha, hb]; omega)
        rw [ha, hb, hc] at h
        convert h using 1
        omega
      · have ha := uint8_toNat_ofNat (n := v / 262144 % 0x08 + 0xF0) (by omega)
        have hb := uint8_toNat_ofNat (n := v / 4096 % 0x40 + 0x80) (by omega)
        have hc := uint8_toNat_ofNat (n := v / 64 % 0x40 + 0x80) (by omega)
        have hd := uint8_toNat_ofNat (n := v % 0x40 + 0x80) (by omega)
        have h := Utf8Form.four _ _ _ _ (by rw [ha]; omega) (by rw [hb]; omega) (by rw [hc]; omega)
          (by rw [hd]; omega) (by rw [ha, hb]; omega) (by rw [ha, hb]; omega)
        rw [ha, hb, hc, hd] at h
        convert h using 1
        omega

theorem exists_char_of_valid {v : Nat} (h : v < 0xD800 ∨ (0xDFFF < v ∧ v < 0x110000)) :
    ∃ c : Char, c.val.toNat = v := by
  refine ⟨Char.ofNatAux v h, ?_⟩
  show (UInt32.ofNatLT v _).toNat = v
  rfl

theorem uint8_ofNat_eq {n : Nat} {a : UInt8} (h : n = a.toNat) : UInt8.ofNat n = a := by
  rw [h, UInt8.ofNat_toNat]

/-- **Every form is a character.** -/
theorem Utf8Form.exists_char {bs : List UInt8} {v : Nat} (h : Utf8Form bs v) :
    ∃ c : Char, String.utf8EncodeChar c = bs ∧ c.val.toNat = v := by
  have hvalid : v < 0xD800 ∨ (0xDFFF < v ∧ v < 0x110000) := by
    cases h <;> omega
  obtain ⟨c, hc⟩ := exists_char_of_valid hvalid
  refine ⟨c, ?_, hc⟩
  unfold String.utf8EncodeChar
  rw [hc]
  dsimp only
  cases h with
  | one a ha => rw [if_pos ha, UInt8.ofNat_toNat]
  | two a b ha hb =>
    rw [if_neg (by omega), if_pos (by omega), uint8_ofNat_eq (a := a) (by omega),
      uint8_ofNat_eq (a := b) (by omega)]
  | three a b c ha hb hc overlong surrogate =>
    rw [if_neg (by omega), if_neg (by omega), if_pos (by omega), uint8_ofNat_eq (a := a) (by omega),
      uint8_ofNat_eq (a := b) (by omega), uint8_ofNat_eq (a := c) (by omega)]
  | four a b c d ha hb hc hd overlong above =>
    rw [if_neg (by omega), if_neg (by omega), if_neg (by omega), uint8_ofNat_eq (a := a) (by omega),
      uint8_ofNat_eq (a := b) (by omega), uint8_ofNat_eq (a := c) (by omega),
      uint8_ofNat_eq (a := d) (by omega)]

end Vireo.Lib
