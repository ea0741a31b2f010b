/-
  File:      Vireo/Lib/BigEndian.lean
  Subject:   BIG-ENDIAN NUMERALS: numbers as bytes, the highest one first.
-/
import Mathlib.Tactic.Ring
import Mathlib.Data.List.Basic
import Mathlib.Data.Nat.Bitwise
import Mathlib.Data.Nat.ModEq

namespace Vireo.Lib

/-! ## 1. Numbers -/

/-- The `w` low bytes of `n`. -/
def toBE : Nat → Nat → List UInt8
  | 0, _ => []
  | w + 1, n => UInt8.ofNat (n / 256 ^ w) :: toBE w n

/-- The number that the bytes stand for. -/
def ofBE : List UInt8 → Nat
  | [] => 0
  | b :: s => b.toNat * 256 ^ s.length + ofBE s

@[simp]
theorem length_toBE (w n : Nat) : (toBE w n).length = w := by
  induction w with
  | zero => rfl
  | succ w ih => simp [toBE, ih]

theorem ofBE_lt (s : List UInt8) : ofBE s < 256 ^ s.length := by
  induction s with
  | nil => simp [ofBE]
  | cons b s ih =>
    have hb : b.toNat + 1 ≤ 256 := b.toNat_lt
    have hmul : (b.toNat + 1) * 256 ^ s.length ≤ 256 * 256 ^ s.length := Nat.mul_le_mul_right _ hb
    rw [Nat.add_mul, Nat.one_mul] at hmul
    rw [ofBE, List.length_cons, Nat.pow_succ]
    omega

theorem toBE_add (w a n : Nat) : toBE w (a * 256 ^ w + n) = toBE w n := by
  induction w generalizing a with
  | zero => rfl
  | succ w ih =>
    have hpos : 0 < 256 ^ w := Nat.pow_pos (by decide)
    have hsplit : a * 256 ^ (w + 1) + n = (a * 256) * 256 ^ w + n := by
      rw [Nat.pow_succ]
      ring
    unfold toBE
    rw [hsplit, ih, Nat.add_comm, Nat.add_mul_div_right _ _ hpos]
    congr 1
    apply UInt8.toNat_inj.mp
    simp [UInt8.toNat_ofNat']

/-- **Bytes stand for the number they were made of.** -/
theorem ofBE_toBE (w n : Nat) : ofBE (toBE w n) = n % 256 ^ w := by
  induction w with
  | zero => simp [toBE, ofBE, Nat.mod_one]
  | succ w ih =>
    have hbyte : (UInt8.ofNat (n / 256 ^ w)).toNat = n / 256 ^ w % 256 := UInt8.toNat_ofNat'
    rw [toBE, ofBE, ih, length_toBE, hbyte, Nat.mod_pow_succ, Nat.add_comm, Nat.mul_comm (256 ^ w)]

/-- **A number is made of the bytes that stand for it.** -/
theorem toBE_ofBE (s : List UInt8) : toBE s.length (ofBE s) = s := by
  induction s with
  | nil => rfl
  | cons b s ih =>
    have hlt := ofBE_lt s
    have hpos : 0 < 256 ^ s.length := Nat.pow_pos (by decide)
    show toBE (s.length + 1) (b.toNat * 256 ^ s.length + ofBE s) = b :: s
    unfold toBE
    rw [toBE_add, ih, Nat.add_comm, Nat.add_mul_div_right _ _ hpos, Nat.div_eq_of_lt hlt, Nat.zero_add,
      UInt8.ofNat_toNat]

theorem toBE_inj {w m n : Nat} (hm : m < 256 ^ w) (hn : n < 256 ^ w) (h : toBE w m = toBE w n) : m = n := by
  have hvalue := congrArg ofBE h
  rwa [ofBE_toBE, ofBE_toBE, Nat.mod_eq_of_lt hm, Nat.mod_eq_of_lt hn] at hvalue

/-- **Texts that each follow their length** are told apart by what they are together. -/
theorem framed_inj {w : Nat} {s t : List (List UInt8)} (hlen : s.length = t.length)
    (hs : ∀ x ∈ s, x.length < 256 ^ w) (ht : ∀ x ∈ t, x.length < 256 ^ w)
    (h : (s.flatMap fun x => toBE w x.length ++ x) = t.flatMap fun x => toBE w x.length ++ x) : s = t := by
  induction s generalizing t with
  | nil => exact (List.length_eq_zero_iff.mp hlen.symm).symm
  | cons x s ih =>
    cases t with
    | nil => cases hlen
    | cons y t =>
      rw [List.forall_mem_cons] at hs ht
      rw [List.flatMap_cons, List.flatMap_cons, List.append_assoc, List.append_assoc] at h
      obtain ⟨hword, h⟩ := List.append_inj h (by rw [length_toBE, length_toBE])
      obtain ⟨rfl, hrest⟩ := List.append_inj h (toBE_inj hs.1 ht.1 hword)
      rw [ih (Nat.succ.inj hlen) hs.2 ht.2 hrest]

/-! ## 2. Words -/

/-- The `n` low bytes of a word: byte `i` from the end is the word shifted by `i` bytes. -/
def beBytes (n : Nat) (value : UInt64) : List UInt8 :=
  (List.range n).reverse.map fun i => (value >>> UInt64.ofNat (i * 8)).toUInt8

/-- A byte is shifted into a word. -/
def shiftIn (value : UInt64) (b : UInt8) : UInt64 := (value <<< 8) ||| b.toUInt64

/-- The word that the bytes are shifted into, one after the other. -/
def beWord (s : List UInt8) : UInt64 := s.foldl shiftIn 0

@[simp]
theorem length_beBytes (n : Nat) (value : UInt64) : (beBytes n value).length = n := by
  simp [beBytes]

theorem beBytes_eq {n : Nat} (h : n ≤ 8) (value : UInt64) : beBytes n value = toBE n value.toNat := by
  induction n with
  | zero => rfl
  | succ n ih =>
    have hcons : beBytes (n + 1) value = (value >>> UInt64.ofNat (n * 8)).toUInt8 :: beBytes n value := by
      simp [beBytes, List.range_succ]
    have hshift : (UInt64.ofNat (n * 8)).toNat % 64 = n * 8 := by
      rw [UInt64.toNat_ofNat_of_lt' (by omega : n * 8 < 2 ^ 64)]
      omega
    have hpow : 2 ^ (n * 8) = 256 ^ n := by
      rw [Nat.mul_comm, Nat.pow_mul]
    rw [hcons, ih (by omega), toBE]
    congr 1
    apply UInt8.toNat_inj.mp
    rw [UInt64.toNat_toUInt8, UInt64.toNat_shiftRight, hshift, Nat.shiftRight_eq_div_pow, hpow,
      UInt8.toNat_ofNat']

theorem toNat_shiftIn (value : UInt64) (b : UInt8) :
    (shiftIn value b).toNat = (value.toNat * 256 + b.toNat) % 2 ^ 64 := by
  have hb : b.toNat < 2 ^ 8 := b.toNat_lt
  have hleft : (value <<< 8).toNat = 2 ^ 8 * (value.toNat % 2 ^ 56) := by
    rw [UInt64.toNat_shiftLeft, Nat.shiftLeft_eq]
    show value.toNat * 2 ^ 8 % 2 ^ 64 = _
    omega
  have hor : 2 ^ 8 * (value.toNat % 2 ^ 56) ||| b.toNat = 2 ^ 8 * (value.toNat % 2 ^ 56) + b.toNat :=
    (Nat.two_pow_add_eq_or_of_lt hb _).symm
  rw [shiftIn, UInt64.toNat_or, hleft, UInt8.toNat_toUInt64, hor]
  omega

theorem foldl_shiftIn (s : List UInt8) (value : UInt64) :
    (s.foldl shiftIn value).toNat = (value.toNat * 256 ^ s.length + ofBE s) % 2 ^ 64 := by
  induction s generalizing value with
  | nil => simp [ofBE, Nat.mod_eq_of_lt value.toNat_lt]
  | cons b s ih =>
    have hsplit : value.toNat * 256 ^ (s.length + 1) + (b.toNat * 256 ^ s.length + ofBE s) =
        (value.toNat * 256 + b.toNat) * 256 ^ s.length + ofBE s := by
      rw [Nat.pow_succ]
      ring
    rw [List.foldl_cons, ih, toNat_shiftIn, ofBE, List.length_cons, hsplit]
    exact ((Nat.mod_modEq _ _).mul_right _).add_right _

theorem beWord_toNat {s : List UInt8} (h : s.length ≤ 8) : (beWord s).toNat = ofBE s := by
  have hlt : ofBE s < 2 ^ 64 :=
    Nat.lt_of_lt_of_le (ofBE_lt s) (Nat.pow_le_pow_right (by decide : 0 < 256) h)
  have hzero : (0 : UInt64).toNat * 256 ^ s.length + ofBE s = ofBE s := by simp
  rw [beWord, foldl_shiftIn, hzero, Nat.mod_eq_of_lt hlt]

/-- **A word that fits its bytes is read back from them.** -/
theorem beWord_beBytes {n : Nat} (h : n ≤ 8) {value : UInt64} (hfits : value.toNat < 256 ^ n) :
    beWord (beBytes n value) = value := by
  apply UInt64.toNat_inj.mp
  rw [beWord_toNat ((length_beBytes n value).trans_le h), beBytes_eq h, ofBE_toBE, Nat.mod_eq_of_lt hfits]

/-- **Bytes that were read are the ones that would be written.** -/
theorem beBytes_beWord {s : List UInt8} (h : s.length ≤ 8) : beBytes s.length (beWord s) = s := by
  rw [beBytes_eq h, beWord_toNat h, toBE_ofBE]

end Vireo.Lib
