/-
  File:      Vireo/Protocol/Words.lean
  Subject:   WORDS AT FIXED PLACES OF A BLOCK: what `put64` writes side by side, and `get64` reads back.
-/
import Vireo.Protocol.AuthResponse

namespace Vireo.Protocol

open Lib List

/-- Words, side by side. -/
def wordsBytes (words : List UInt64) : Bytes := words.flatMap writeU64Be

/-- The words of a block from place `k` on. -/
def wordsAt (p : Bytes) (k : Nat) : Nat → List UInt64
  | 0 => []
  | n + 1 => get64 (p.drop k) :: wordsAt p (k + 8) n

@[simp]
theorem length_wordsBytes (words : List UInt64) : (wordsBytes words).length = 8 * words.length := by
  induction words with
  | nil => rfl
  | cons v words ih =>
    rw [wordsBytes, flatMap_cons, length_append, length_writeU64Be, length_cons]
    rw [wordsBytes] at ih
    omega

theorem get64_append (value : UInt64) (rest : Bytes) : get64 (writeU64Be value ++ rest) = value := by
  rw [get64, take_left' (length_writeU64Be value)]
  exact (congrArg beWord (take_of_length_le (length_writeU64Be value).le).symm).trans (get64_writeU64Be value)

/-- **The words are read back**, whatever is in front of them and behind. -/
theorem wordsAt_wordsBytes (front : Bytes) (words : List UInt64) (rest : Bytes) :
    wordsAt (front ++ (wordsBytes words ++ rest)) front.length words.length = words := by
  induction words generalizing front with
  | nil => rfl
  | cons v words ih =>
    have hshift : front ++ (wordsBytes (v :: words) ++ rest) =
        (front ++ writeU64Be v) ++ (wordsBytes words ++ rest) := by
      simp [wordsBytes]
    have hlength : front.length + 8 = (front ++ writeU64Be v).length := by simp
    rw [length_cons, wordsAt]
    congr 1
    · rw [drop_left, wordsBytes, flatMap_cons, append_assoc, get64_append]
    · rw [hshift, hlength]
      exact ih (front ++ writeU64Be v)

theorem writeU64Be_get64 {p : Bytes} (h : 8 ≤ p.length) : writeU64Be (get64 p) = p.take 8 := by
  have hbytes : ∀ value : UInt64, writeU64Be value = beBytes 8 value := fun value => by
    simp [writeU64Be, beBytes, range_succ]
  have hlength : (p.take 8).length = 8 := length_take_of_le h
  rw [hbytes, get64]
  have hback := beBytes_beWord hlength.le
  rwa [hlength] at hback

/-- **Bytes that were read as words** are the ones that would be written. -/
theorem wordsBytes_wordsAt {p : Bytes} {k n : Nat} (h : k + 8 * n ≤ p.length) :
    wordsBytes (wordsAt p k n) = (p.drop k).take (8 * n) := by
  induction n generalizing k with
  | zero => rfl
  | succ n ih =>
    have hword : 8 ≤ (p.drop k).length := by
      rw [length_drop]
      omega
    have hrest := ih (k := k + 8) (by omega)
    show writeU64Be (get64 (p.drop k)) ++ wordsBytes (wordsAt p (k + 8) n) = _
    rw [writeU64Be_get64 hword, hrest, ← drop_drop, show 8 * (n + 1) = 8 + 8 * n by omega, take_add]

end Vireo.Protocol
