/-
  File:      Vireo/Protocol/TlvText.lean
  Subject:   TEXT VALUES (`src/protocol/tlv.c`): what the byte scans for UTF-8 and for names accept.
-/
import Vireo.Lib.Utf8
import Vireo.Protocol.Wire

namespace Vireo.Protocol

open Lib List
open UInt8 (le_iff_toNat_le lt_iff_toNat_lt reduceToNat toNat_inj)

/-! ## 1. The scans -/

/-- `vireo_tlv_utf8_is_continuation`. -/
def utf8IsContinuation (byte : UInt8) : Bool := byte &&& 0xC0 = 0x80

/-- `vireo_tlv_utf8_is_valid`. -/
def utf8IsValid : Bytes → Bool
  | [] => true
  | first :: rest =>
    if first ≤ 0x7F then utf8IsValid rest
    else if 0xC2 ≤ first ∧ first ≤ 0xDF then
      match rest with
      | b :: rest => if !utf8IsContinuation b then false else utf8IsValid rest
      | _ => false
    else if 0xE0 ≤ first ∧ first ≤ 0xEF then
      match rest with
      | b :: c :: rest =>
        if !utf8IsContinuation b || !utf8IsContinuation c then false
        -- overlong
        else if first = 0xE0 ∧ b < 0xA0 then false
        -- a surrogate
        else if first = 0xED ∧ b > 0x9F then false
        else utf8IsValid rest
      | _ => false
    else if 0xF0 ≤ first ∧ first ≤ 0xF4 then
      match rest with
      | b :: c :: d :: rest =>
        if !utf8IsContinuation b || !utf8IsContinuation c || !utf8IsContinuation d then false
        -- overlong
        else if first = 0xF0 ∧ b < 0x90 then false
        -- above U+10FFFF
        else if first = 0xF4 ∧ b > 0x8F then false
        else utf8IsValid rest
      | _ => false
    else false

/-- The loop of `vireo_tlv_name_is_valid`. -/
def nameBytesValid : Bytes → Bool
  | [] => true
  | byte :: rest =>
    if byte ≤ 0x1F ∨ byte = 0x7F ∨ byte = 0x2F then false
    -- U+0080..U+009F are written C2 80..C2 9F
    else if byte = 0xC2 ∧ rest.head?.any (fun next => 0x80 ≤ next && next ≤ 0x9F) then false
    else nameBytesValid rest

/-- `vireo_tlv_name_is_valid`. -/
def nameIsValid (data : Bytes) : Bool :=
  if data.length = 0 then false
  else if data = [0x2E] then false
  else if data = [0x2E, 0x2E] then false
  else nameBytesValid data

/-! ## 2. Texts and names -/

/-- The bytes of a text. -/
def utf8Bytes (text : List Char) : Bytes := text.flatMap String.utf8EncodeChar

/-- The bytes are those of a text. -/
def IsUtf8 (data : Bytes) : Prop := ∃ text, data = utf8Bytes text

/-- A character a name may have: no control character of either range and no slash. -/
def NameChar (c : Char) : Prop :=
  0x1F < c.val.toNat ∧ (c.val.toNat < 0x7F ∨ 0x9F < c.val.toNat) ∧ c ≠ '/'

/-- The bytes are those of a name: not empty, neither of the two directory entries, and made of
    characters a name may have. -/
def IsName (data : Bytes) : Prop :=
  ∃ text, data = utf8Bytes text ∧ text ≠ [] ∧ text ≠ ['.'] ∧ text ≠ ['.', '.'] ∧ ∀ c ∈ text, NameChar c

@[simp]
theorem utf8Bytes_nil : utf8Bytes [] = [] := rfl

@[simp]
theorem utf8Bytes_cons (c : Char) (text : List Char) :
    utf8Bytes (c :: text) = String.utf8EncodeChar c ++ utf8Bytes text := flatMap_cons ..

theorem utf8Bytes_inj {a b : List Char} : utf8Bytes a = utf8Bytes b ↔ a = b := by
  constructor
  · intro h
    have hbytes : (String.ofList a).toByteArray = (String.ofList b).toByteArray :=
      congrArg List.toByteArray h
    exact String.ofList_injective (String.toByteArray_inj.mp hbytes)
  · intro h
    rw [h]

/-! ## 3. The UTF-8 scan -/

theorem utf8IsContinuation_iff (b : UInt8) :
    utf8IsContinuation b = true ↔ 0x80 ≤ b.toNat ∧ b.toNat ≤ 0xBF := by
  have hall : ∀ n < 256, (UInt8.ofNat n &&& 0xC0 = 0x80) ↔ (0x80 ≤ n ∧ n ≤ 0xBF) := by
    decide +kernel
  have hb := hall b.toNat (UInt8.toNat_lt b)
  rw [UInt8.ofNat_toNat] at hb
  unfold utf8IsContinuation
  rw [decide_eq_true_iff]
  exact hb

theorem utf8IsValid_form {bs : Bytes} {v : Nat} (h : Utf8Form bs v) (t : Bytes) :
    utf8IsValid (bs ++ t) = utf8IsValid t := by
  cases h with
  | one a ha =>
    have hle : a ≤ 0x7F := le_iff_toNat_le.mpr ha
    rw [singleton_append, utf8IsValid.eq_def (a :: t)]
    exact if_pos hle
  | two a b ha hb =>
    have hb' := (utf8IsContinuation_iff b).mpr hb
    simp only [cons_append, nil_append, utf8IsValid, le_iff_toNat_le, reduceToNat, hb']
    rw [if_neg (by omega), if_pos (by omega)]
    rfl
  | three a b c ha hb hc overlong surrogate =>
    have hb' := (utf8IsContinuation_iff b).mpr hb
    have hc' := (utf8IsContinuation_iff c).mpr hc
    simp only [cons_append, nil_append, utf8IsValid, le_iff_toNat_le,
      lt_iff_toNat_lt, gt_iff_lt, ← toNat_inj, reduceToNat, hb', hc']
    rw [if_neg (by omega), if_neg (by omega), if_pos (by omega), if_neg (by decide),
      if_neg (by omega), if_neg (by omega)]
  | four a b c d ha hb hc hd overlong above =>
    have hb' := (utf8IsContinuation_iff b).mpr hb
    have hc' := (utf8IsContinuation_iff c).mpr hc
    have hd' := (utf8IsContinuation_iff d).mpr hd
    simp only [cons_append, nil_append, utf8IsValid, le_iff_toNat_le,
      lt_iff_toNat_lt, gt_iff_lt, ← toNat_inj, reduceToNat, hb', hc', hd']
    rw [if_neg (by omega), if_neg (by omega), if_neg (by omega), if_pos (by omega),
      if_neg (by decide), if_neg (by omega), if_neg (by omega)]

/-- **What the scan accepts starts with a form**, unless it is empty. -/
theorem utf8IsValid_front {s : Bytes} (h : utf8IsValid s = true) (hs : s ≠ []) :
    ∃ bs v t, s = bs ++ t ∧ bs ≠ [] ∧ Utf8Form bs v ∧ utf8IsValid t = true := by
  cases s with
  | nil => exact absurd rfl hs
  | cons first rest =>
    unfold utf8IsValid at h
    simp only [le_iff_toNat_le, lt_iff_toNat_lt, gt_iff_lt, ← toNat_inj, reduceToNat] at h
    split at h
    · rename_i ha
      exact ⟨[first], _, rest, rfl, by simp, .one first ha, h⟩
    · split at h
      · rename_i ha
        split at h
        · rename_i b rest
          split at h
          · cases h
          rename_i hb
          have hb' := (utf8IsContinuation_iff b).mp (by simpa using hb)
          exact ⟨[first, b], _, rest, rfl, by simp, .two first b ha hb', h⟩
        · cases h
      · split at h
        · rename_i ha
          split at h
          · rename_i b c rest
            split at h
            · cases h
            rename_i hcont
            simp only [Bool.or_eq_true, Bool.not_eq_true', not_or, Bool.not_eq_false] at hcont
            split at h
            · cases h
            split at h
            · cases h
            exact ⟨[first, b, c], _, rest, rfl, by simp,
              .three first b c ha ((utf8IsContinuation_iff b).mp hcont.1)
                ((utf8IsContinuation_iff c).mp hcont.2) (by omega) (by omega), h⟩
          · cases h
        · split at h
          · rename_i ha
            split at h
            · rename_i b c d rest
              split at h
              · cases h
              rename_i hcont
              simp only [Bool.or_eq_true, Bool.not_eq_true', not_or, Bool.not_eq_false] at hcont
              split at h
              · cases h
              split at h
              · cases h
              exact ⟨[first, b, c, d], _, rest, rfl, by simp,
                .four first b c d ha ((utf8IsContinuation_iff b).mp hcont.1.1)
                  ((utf8IsContinuation_iff c).mp hcont.1.2)
                  ((utf8IsContinuation_iff d).mp hcont.2) (by omega) (by omega), h⟩
            · cases h
          · cases h

theorem utf8IsValid_iff (data : Bytes) : utf8IsValid data = true ↔ IsUtf8 data := by
  constructor
  · intro h
    induction hn : data.length using Nat.strong_induction_on generalizing data with
    | _ n ih =>
      by_cases hnil : data = []
      · exact ⟨[], hnil⟩
      obtain ⟨bs, v, t, hdata, hbs, hform, ht⟩ := utf8IsValid_front h hnil
      have hpos := length_pos_iff.mpr hbs
      have hlen : bs.length + t.length = n := by rw [← hn, hdata, length_append]
      obtain ⟨text, htext⟩ := ih t.length (by omega) t ht rfl
      obtain ⟨c, hc, -⟩ := hform.exists_char
      exact ⟨c :: text, by rw [hdata, htext, utf8Bytes_cons, hc]⟩
  · intro ⟨text, htext⟩
    rw [htext]
    clear htext
    induction text with
    | nil => rfl
    | cons c text ih => rw [utf8Bytes_cons, utf8IsValid_form (utf8Form_encode c), ih]

/-! ## 4. The name scan -/

theorem nameBytesValid_high {a : UInt8} (ha : 0x80 ≤ a.toNat) (hlead : a.toNat ≠ 0xC2) (t : Bytes) :
    nameBytesValid (a :: t) = nameBytesValid t := by
  simp only [nameBytesValid, le_iff_toNat_le, ← toNat_inj, reduceToNat]
  rw [if_neg (by omega), if_neg (by omega)]

theorem nameBytesValid_form {bs : Bytes} {v : Nat} (h : Utf8Form bs v) (t : Bytes) :
    nameBytesValid (bs ++ t) = true ↔
      (0x1F < v ∧ (v < 0x7F ∨ 0x9F < v) ∧ v ≠ 0x2F) ∧ nameBytesValid t = true := by
  cases h with
  | one a ha =>
    simp only [singleton_append, nameBytesValid, le_iff_toNat_le, ← toNat_inj, reduceToNat]
    rw [if_neg (c := a.toNat = 0xC2 ∧ _) (by omega)]
    split
    · simp only [Bool.false_eq_true, false_iff]
      omega
    · rw [and_iff_right (by omega)]
  | two a b ha hb =>
    have hcont := nameBytesValid_high hb.1 (by omega) t
    simp only [cons_append, nil_append]
    rw [nameBytesValid, hcont]
    simp only [List.head?_cons, Option.any_some, le_iff_toNat_le, ← toNat_inj,
      reduceToNat, Bool.and_eq_true, decide_eq_true_eq]
    rw [if_neg (by omega)]
    split
    · simp only [Bool.false_eq_true, false_iff]
      omega
    · rw [and_iff_right (by omega)]
  | three a b c ha hb hc overlong surrogate =>
    simp only [cons_append, nil_append]
    rw [nameBytesValid_high (by omega) (by omega), nameBytesValid_high hb.1 (by omega),
      nameBytesValid_high hc.1 (by omega), and_iff_right (by omega)]
  | four a b c d ha hb hc hd overlong above =>
    simp only [cons_append, nil_append]
    rw [nameBytesValid_high (by omega) (by omega), nameBytesValid_high hb.1 (by omega),
      nameBytesValid_high hc.1 (by omega), nameBytesValid_high hd.1 (by omega),
      and_iff_right (by omega)]

theorem nameChar_iff (c : Char) :
    NameChar c ↔ 0x1F < c.val.toNat ∧ (c.val.toNat < 0x7F ∨ 0x9F < c.val.toNat) ∧ c.val.toNat ≠ 0x2F := by
  have hslash : c = '/' ↔ c.val.toNat = 0x2F := by
    rw [Char.ext_iff, ← UInt32.toNat_inj]
    rfl
  unfold NameChar
  rw [ne_eq, hslash]

theorem nameBytesValid_utf8 (text : List Char) :
    nameBytesValid (utf8Bytes text) = true ↔ ∀ c ∈ text, NameChar c := by
  induction text with
  | nil => simp [nameBytesValid]
  | cons c text ih =>
    rw [utf8Bytes_cons, nameBytesValid_form (utf8Form_encode c), ih, ← nameChar_iff, forall_mem_cons]

/-- **The scan accepts the bytes of a name** among the bytes of texts, and nothing else. -/
theorem nameIsValid_iff {data : Bytes} (h : IsUtf8 data) : nameIsValid data = true ↔ IsName data := by
  have hscan : ∀ text, nameIsValid (utf8Bytes text) = true ↔
      text ≠ [] ∧ text ≠ ['.'] ∧ text ≠ ['.', '.'] ∧ ∀ c ∈ text, NameChar c := by
    intro text
    have hnil : (utf8Bytes text).length = 0 ↔ text = [] := by
      rw [length_eq_zero_iff, ← utf8Bytes_nil, utf8Bytes_inj]
    have hdot : utf8Bytes text = [0x2E] ↔ text = ['.'] := utf8Bytes_inj (b := ['.'])
    have hdots : utf8Bytes text = [0x2E, 0x2E] ↔ text = ['.', '.'] :=
      utf8Bytes_inj (b := ['.', '.'])
    simp only [nameIsValid, hnil, hdot, hdots, ← nameBytesValid_utf8]
    split
    · simp [*]
    split
    · simp [*]
    · split <;> simp [*]
  constructor
  · intro hname
    obtain ⟨text, rfl⟩ := h
    exact ⟨text, rfl, (hscan text).mp hname⟩
  · intro ⟨text, hdata, hname⟩
    rw [hdata]
    exact (hscan text).mpr hname

end Vireo.Protocol
