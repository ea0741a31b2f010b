/-
  File:      Vireo/Lib/Crc.lean
  Subject:   CYCLIC REDUNDANCY CHECKS: the reflected register, bit by bit and byte by byte.

  A register of `w` bits and a polynomial whose highest bit is set; a step takes the lowest bit out.
-/
import Mathlib.Logic.Function.Iterate
import Mathlib.Data.List.Basic

namespace Vireo.Lib

open List

section Crc

variable {w : Nat} (poly : BitVec w)

/-! ## 1. Steps -/

/-- One step of the register. -/
def crcStep (r : BitVec w) : BitVec w := (r >>> 1) ^^^ (if r.getLsbD 0 then poly else 0#w)

/-- A number of steps. -/
def crcSteps (n : Nat) (r : BitVec w) : BitVec w := (crcStep poly)^[n] r

@[simp]
theorem crcSteps_zero (r : BitVec w) : crcSteps poly 0 r = r := rfl

theorem crcSteps_succ (n : Nat) (r : BitVec w) :
    crcSteps poly (n + 1) r = crcSteps poly n (crcStep poly r) := rfl

theorem crcSteps_add (m n : Nat) (r : BitVec w) :
    crcSteps poly (m + n) r = crcSteps poly m (crcSteps poly n r) :=
  Function.iterate_add_apply _ m n r

/-- **A step is linear.** -/
theorem crcStep_xor (a b : BitVec w) : crcStep poly (a ^^^ b) = crcStep poly a ^^^ crcStep poly b := by
  apply BitVec.eq_of_getLsbD_eq
  intro i hi
  simp only [crcStep, BitVec.getLsbD_xor, BitVec.getLsbD_ushiftRight]
  cases ha : a.getLsbD 0 <;> cases hb : b.getLsbD 0 <;> simp <;> grind

theorem crcSteps_xor (n : Nat) (a b : BitVec w) :
    crcSteps poly n (a ^^^ b) = crcSteps poly n a ^^^ crcSteps poly n b := by
  induction n generalizing a b with
  | zero => rfl
  | succ n ih => rw [crcSteps_succ, crcStep_xor, ih, ← crcSteps_succ, ← crcSteps_succ]

variable {poly}

/-- A step of a polynomial with its highest bit set loses nothing. -/
theorem crcStep_injective (h : poly.msb = true) : Function.Injective (crcStep poly) := by
  intro a b hab
  have hbit : ∀ (r : BitVec w) i, (crcStep poly r).getLsbD i =
      (r.getLsbD (1 + i) ^^ (r.getLsbD 0 && poly.getLsbD i)) := by
    intro r i
    simp only [crcStep, BitVec.getLsbD_xor, BitVec.getLsbD_ushiftRight]
    cases r.getLsbD 0 <;> simp
  have hbits : ∀ i, (a.getLsbD (1 + i) ^^ (a.getLsbD 0 && poly.getLsbD i)) =
      (b.getLsbD (1 + i) ^^ (b.getLsbD 0 && poly.getLsbD i)) := fun i => by
    rw [← hbit, ← hbit, hab]
  rw [BitVec.msb_eq_getLsbD_last] at h
  -- the bit that was taken out is seen at the top
  have hlow : a.getLsbD 0 = b.getLsbD 0 := by
    have htop := hbits (w - 1)
    rw [h, Bool.and_true, Bool.and_true, BitVec.getLsbD_of_ge a _ (by omega),
      BitVec.getLsbD_of_ge b _ (by omega), Bool.false_xor, Bool.false_xor] at htop
    exact htop
  apply BitVec.eq_of_getLsbD_eq
  intro i hi
  cases i with
  | zero => exact hlow
  | succ i =>
    have hi := hbits i
    rw [hlow, Bool.xor_left_inj, Nat.add_comm] at hi
    exact hi

/-- **The steps of a polynomial with its highest bit set lose nothing.** -/
theorem crcSteps_injective (h : poly.msb = true) (n : Nat) : Function.Injective (crcSteps poly n) :=
  (crcStep_injective h).iterate n

theorem crcSteps_clear {n : Nat} {r : BitVec w} (h : ∀ i < n, r.getLsbD i = false) :
    crcSteps poly n r = r >>> n := by
  induction n generalizing r with
  | zero => simp
  | succ n ih =>
    have hone : crcStep poly r = r >>> 1 := by
      simp [crcStep, h 0 (by omega)]
    have hrest : ∀ i < n, (r >>> 1).getLsbD i = false := by
      intro i hi
      rw [BitVec.getLsbD_ushiftRight]
      exact h (1 + i) (by omega)
    rw [crcSteps_succ, hone, ih hrest, ← BitVec.shiftRight_add, Nat.add_comm]

/-! ## 2. Bytes -/

variable (poly) in
/-- A byte. -/
def crcByte (r : BitVec w) (b : UInt8) : BitVec w := crcSteps poly 8 (r ^^^ b.toBitVec.setWidth w)

variable (poly) in
/-- A string of bytes. -/
def crcFeed (r : BitVec w) (bs : List UInt8) : BitVec w := bs.foldl (crcByte poly) r

variable (poly) in
theorem crcFeed_append (r : BitVec w) (xs ys : List UInt8) :
    crcFeed poly r (xs ++ ys) = crcFeed poly (crcFeed poly r xs) ys := foldl_append ..

/-- The bytes of a string one above the other, the first one lowest. -/
def crcWord : List UInt8 → BitVec w
  | [] => 0#w
  | d :: ds => d.toBitVec.setWidth w ^^^ (crcWord ds <<< 8)

theorem crcWord_high (ds : List UInt8) {i : Nat} (h : 8 * ds.length ≤ i) :
    (crcWord ds : BitVec w).getLsbD i = false := by
  induction ds generalizing i with
  | nil => simp [crcWord]
  | cons d ds ih =>
    rw [length_cons] at h
    have hrest := ih (i := i - 8) (by omega)
    have hbyte := BitVec.getLsbD_of_ge d.toBitVec i (by omega)
    simp [crcWord, hrest, hbyte]

theorem crcWord_shift {ds : List UInt8} (h : 8 * ds.length + 8 ≤ w) :
    ((crcWord ds : BitVec w) <<< 8) >>> 8 = crcWord ds := by
  apply BitVec.eq_of_getLsbD_eq
  intro i hi
  rw [BitVec.getLsbD_ushiftRight, BitVec.getLsbD_shiftLeft]
  by_cases hfit : 8 + i < w
  · simp [hfit]
  · rw [crcWord_high ds (i := i) (by omega)]
    simp [hfit]

/-- A string that fits and whose word is zero is zero. -/
theorem crcWord_eq_zero {ds : List UInt8} (h : 8 * ds.length ≤ w)
    (hzero : (crcWord ds : BitVec w) = 0#w) : ∀ d ∈ ds, d = 0 := by
  induction ds with
  | nil => simp
  | cons d ds ih =>
    rw [length_cons] at h
    have hbits : ∀ i, (crcWord (d :: ds) : BitVec w).getLsbD i = false := fun i => by
      rw [hzero, BitVec.getLsbD_zero]
    have hd : d = 0 := by
      apply UInt8.toBitVec_inj.mp
      apply BitVec.eq_of_getLsbD_eq
      intro i hi
      have hfit : i < w := by omega
      have hbit := hbits i
      simp only [crcWord, BitVec.getLsbD_xor, BitVec.getLsbD_setWidth, BitVec.getLsbD_shiftLeft, hi,
        hfit, decide_true, Bool.true_and, Bool.not_true, Bool.false_and, Bool.xor_false] at hbit
      rw [hbit]
      simp
    have hds : (crcWord ds : BitVec w) = 0#w := by
      have hshift : (crcWord ds : BitVec w) <<< 8 = 0#w := by
        rw [hd] at hzero
        simpa [crcWord] using hzero
      rw [← crcWord_shift (by omega), hshift]
      simp
    intro e he
    rcases mem_cons.mp he with heq | hmem
    · rw [heq, hd]
    · exact ih (by omega) hds e hmem

/-- **The difference of two registers after strings that fit is that of the strings, moved on.** -/
theorem crcFeed_xor (poly : BitVec w) {xs ys : List UInt8} (hlen : xs.length = ys.length) (h : 8 * xs.length ≤ w)
    (r r' : BitVec w) :
    crcFeed poly r xs ^^^ crcFeed poly r' ys =
      crcSteps poly (8 * xs.length) ((r ^^^ r') ^^^ crcWord (List.zipWith (· ^^^ ·) xs ys)) := by
  induction xs generalizing ys r r' with
  | nil =>
    obtain rfl := length_eq_zero_iff.mp hlen.symm
    simp [crcFeed, crcWord]
  | cons x xs ih =>
    cases ys with
    | nil => simp at hlen
    | cons y ys =>
      rw [length_cons] at h
      have hlen' : xs.length = ys.length := by simpa using hlen
      have hzip : (List.zipWith (· ^^^ ·) xs ys).length = xs.length := by
        rw [length_zipWith, ← hlen', Nat.min_self]
      have hclear : crcSteps poly 8 (crcWord (List.zipWith (· ^^^ ·) xs ys) <<< 8) =
          (crcWord (List.zipWith (· ^^^ ·) xs ys) : BitVec w) := by
        rw [crcSteps_clear, crcWord_shift (by rw [hzip]; omega)]
        intro i hi
        simp [hi]
      have hbyte : crcByte poly r x ^^^ crcByte poly r' y =
          crcSteps poly 8 ((r ^^^ r') ^^^ (x ^^^ y).toBitVec.setWidth w) := by
        unfold crcByte
        rw [← crcSteps_xor, UInt8.toBitVec_xor, BitVec.setWidth_xor]
        congr 1
        ac_rfl
      have hword : crcWord (List.zipWith (· ^^^ ·) (x :: xs) (y :: ys)) =
          (x ^^^ y).toBitVec.setWidth w ^^^ (crcWord (List.zipWith (· ^^^ ·) xs ys) <<< 8) := rfl
      have hsteps : 8 * (x :: xs).length = 8 * xs.length + 8 := by
        rw [length_cons]
        omega
      rw [hword, hsteps, crcSteps_add, ← BitVec.xor_assoc, crcSteps_xor poly 8, hclear, ← hbyte]
      exact ih hlen' (by omega) _ _

theorem crcFeed_injective (h : poly.msb = true) (bs : List UInt8) :
    Function.Injective fun r => crcFeed poly r bs := by
  induction bs with
  | nil => exact fun a b hab => hab
  | cons x bs ih =>
    intro a b hab
    have hbyte : crcByte poly a x = crcByte poly b x := ih hab
    exact BitVec.xor_left_inj _ |>.mp (crcSteps_injective h 8 hbyte)

/-- **A burst that fits the register is seen**, wherever it is. -/
theorem crcFeed_burst (h : poly.msb = true) (r : BitVec w) (pre post : List UInt8)
    {xs ys : List UInt8} (hlen : xs.length = ys.length) (hfit : 8 * xs.length ≤ w) (hne : xs ≠ ys) :
    crcFeed poly r (pre ++ xs ++ post) ≠ crcFeed poly r (pre ++ ys ++ post) := by
  intro heq
  simp only [crcFeed_append] at heq
  have hmid := crcFeed_injective h post heq
  have hzip : (List.zipWith (· ^^^ ·) xs ys).length = xs.length := by
    rw [length_zipWith, ← hlen, Nat.min_self]
  have hzero : crcSteps poly (8 * xs.length) (crcWord (List.zipWith (· ^^^ ·) xs ys) : BitVec w) =
      crcSteps poly (8 * xs.length) 0#w := by
    have hxor := crcFeed_xor poly hlen hfit (crcFeed poly r pre) (crcFeed poly r pre)
    have hself := crcSteps_xor poly (8 * xs.length) (0#w) (0#w)
    rw [hmid, BitVec.xor_self, BitVec.xor_self, BitVec.zero_xor] at hxor
    rw [BitVec.xor_self, BitVec.xor_self] at hself
    rw [← hxor, hself]
  have hword := crcSteps_injective h _ hzero
  have hdiff := crcWord_eq_zero (by rw [hzip]; exact hfit) hword
  refine hne (ext_getElem hlen fun i hx hy => ?_)
  have hi : i < (List.zipWith (· ^^^ ·) xs ys).length := by omega
  have hd := hdiff _ (getElem_mem hi)
  rw [getElem_zipWith] at hd
  exact UInt8.xor_eq_zero_iff.mp hd

end Crc

end Vireo.Lib
