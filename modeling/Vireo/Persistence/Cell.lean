/-
  File:      Vireo/Persistence/Cell.lean
  Subject:   RESULT CELLS AND THEIR NUMBERS: how the repositories read a column.

  The server prints an unsigned column in decimal and the repositories parse the bytes again, with a
  bound on the length and a check before every step that the next digit still fits 64 bits.
-/
import Vireo.Base.Result

namespace Vireo.Persistence

/-- A byte string. -/
abbrev Bytes := List UInt8

/-- `vireo_mysql_cell_view_t`: `none` is SQL `NULL`. -/
abbrev Cell := Option Bytes

/-- One path segment: not `.` or `..`, no NUL and no slash
    (`receipt_name_valid` and its copies). -/
def ValidName (name : Bytes) : Prop := name ≠ [46] ∧ name ≠ [46, 46] ∧ 0 ∉ name ∧ 47 ∉ name

instance (name : Bytes) : Decidable (ValidName name) := inferInstanceAs (Decidable (_ ∧ _ ∧ _ ∧ _))

/-- The digit loop of `number`, from the value read so far. -/
def digits (v : UInt64) : Bytes → Option UInt64
  | [] => some v
  | b :: rest =>
    if b < 48 ∨ 57 < b then none
    else
      let digit := b.toUInt64 - 48
      -- `v > (UINT64_MAX - digit) / 10`, computed where nothing wraps
      if v.toNat > (u64Max.toNat - digit.toNat) / 10 then none
      else digits (v * 10 + digit) rest

/-- `number`: a complete decimal `uint64_t` of at most 20 digits; `NULL`, an empty cell, any other
    byte and an overflow are refused. -/
def number : Cell → Option UInt64
  | none => none
  | some bytes => if bytes.length = 0 ∨ 20 < bytes.length then none else digits 0 bytes

/-- The decimal digits of `n`, most significant first, without leading zeros; `fuel` bounds their
    number. -/
def decimalDigits : Nat → Nat → Bytes
  | 0, _ => []
  | fuel + 1, n =>
    (if n / 10 = 0 then [] else decimalDigits fuel (n / 10)) ++ [UInt8.ofNat (48 + n % 10)]

/-- The cell of a non-null unsigned column. -/
def u64Cell (n : UInt64) : Cell := some (decimalDigits 20 n.toNat)

/-- The cell of a nullable unsigned column. -/
def nullableCell (n : Option UInt64) : Cell := n.bind u64Cell

/-! ## 1. Reading back what was printed -/

theorem digitByte_toNat {d : Nat} (h : d < 10) : (UInt8.ofNat (48 + d)).toNat = 48 + d := by
  rw [UInt8.toNat_ofNat']
  omega

theorem digits_step {v : UInt64} {d : Nat} (h : d < 10) (hv : v.toNat * 10 + d < 2 ^ 64) (rest : Bytes) :
    digits v (UInt8.ofNat (48 + d) :: rest) = digits (UInt64.ofNat (v.toNat * 10 + d)) rest := by
  have hb := digitByte_toNat h
  have hdigit : ((UInt8.ofNat (48 + d)).toUInt64 - 48).toNat = d := by
    rw [UInt64.toNat_sub_of_le]
    · rw [UInt8.toNat_toUInt64, hb]
      show 48 + d - 48 = d
      omega
    · rw [UInt64.le_iff_toNat_le, UInt8.toNat_toUInt64, hb]
      show 48 ≤ 48 + d
      omega
  have hbyte : ¬ (UInt8.ofNat (48 + d) < 48 ∨ 57 < UInt8.ofNat (48 + d)) := by
    rw [UInt8.lt_iff_toNat_lt, UInt8.lt_iff_toNat_lt, hb]
    show ¬ (48 + d < 48 ∨ 57 < 48 + d)
    omega
  have hsum : v * 10 + ((UInt8.ofNat (48 + d)).toUInt64 - 48) = UInt64.ofNat (v.toNat * 10 + d) := by
    apply UInt64.toNat_inj.mp
    rw [UInt64.toNat_add, UInt64.toNat_mul, hdigit, UInt64.toNat_ofNat']
    show (v.toNat * 10 % 2 ^ 64 + d) % 2 ^ 64 = (v.toNat * 10 + d) % 2 ^ 64
    omega
  rw [digits, if_neg hbyte]
  simp only
  rw [hdigit, hsum, if_neg]
  rw [u64Max_toNat]
  omega

/-- A reader that takes one digit after the other reads the number, while it stays below the bound. -/
theorem read_decimalDigits {α : Type} {bound : Nat} (read : Nat → Bytes → α)
    (hstep : ∀ (v d : Nat) (rest : Bytes), d < 10 → v * 10 + d < bound →
      read v (UInt8.ofNat (48 + d) :: rest) = read (v * 10 + d) rest) (fuel : Nat) :
    ∀ (n : Nat) (rest : Bytes), 0 < fuel → n < 10 ^ fuel → n < bound →
      read 0 (decimalDigits fuel n ++ rest) = read n rest := by
  induction fuel with
  | zero => intro n rest h; exact absurd h (lt_irrefl 0)
  | succ fuel ih =>
    intro n rest _ hn hbound
    have hd : n % 10 < 10 := Nat.mod_lt _ (by decide)
    rw [decimalDigits, List.append_assoc, List.singleton_append]
    by_cases hq : n / 10 = 0
    · rw [if_pos hq, List.nil_append, hstep 0 _ rest hd (by omega)]
      congr 1
      omega
    · have hpow : n / 10 < 10 ^ fuel := by
        rw [Nat.div_lt_iff_lt_mul (by decide)]
        calc n < 10 ^ (fuel + 1) := hn
          _ = 10 ^ fuel * 10 := Nat.pow_succ ..
      have hfuel : 0 < fuel := by
        rcases Nat.eq_zero_or_pos fuel with h | h
        · rw [h] at hpow
          omega
        · exact h
      rw [if_neg hq, ih _ _ hfuel hpow (by omega), hstep _ _ rest hd (by omega)]
      congr 1
      omega

theorem digits_decimalDigits (fuel n : Nat) (rest : Bytes) (hfuel : 0 < fuel) (hn : n < 10 ^ fuel)
    (hn64 : n < 2 ^ 64) :
    digits 0 (decimalDigits fuel n ++ rest) = digits (UInt64.ofNat n) rest := by
  refine read_decimalDigits (fun v => digits (UInt64.ofNat v)) (fun v d rest hd hv => ?_) fuel n rest hfuel
    hn hn64
  have hval : (UInt64.ofNat v).toNat = v := by
    rw [UInt64.toNat_ofNat']
    omega
  rw [digits_step hd (by rw [hval]; exact hv), hval]

theorem length_decimalDigits (fuel : Nat) : ∀ n, (decimalDigits (fuel + 1) n).length ≤ fuel + 1 ∧
    (decimalDigits (fuel + 1) n).length ≠ 0 := by
  induction fuel with
  | zero =>
    intro n
    rw [decimalDigits, List.length_append]
    by_cases hq : n / 10 = 0
    · rw [if_pos hq]
      exact ⟨le_refl 1, Nat.one_ne_zero⟩
    · rw [if_neg hq]
      exact ⟨le_refl 1, Nat.one_ne_zero⟩
  | succ fuel ih =>
    intro n
    rw [decimalDigits, List.length_append]
    by_cases hq : n / 10 = 0
    · rw [if_pos hq]
      show 0 + 1 ≤ fuel + 1 + 1 ∧ 0 + 1 ≠ 0
      omega
    · rw [if_neg hq]
      have := ih (n / 10)
      show (decimalDigits (fuel + 1) (n / 10)).length + 1 ≤ fuel + 1 + 1 ∧ _ + 1 ≠ 0
      omega

@[simp]
theorem number_u64 (n : UInt64) : number (u64Cell n) = some n := by
  have hlen : (decimalDigits 20 n.toNat).length ≤ 20 ∧ (decimalDigits 20 n.toNat).length ≠ 0 :=
    length_decimalDigits 19 n.toNat
  have hlt : n.toNat < 2 ^ 64 := n.toNat_lt
  have hread := digits_decimalDigits 20 n.toNat [] (by decide) (by omega) hlt
  rw [List.append_nil] at hread
  show (if (decimalDigits 20 n.toNat).length = 0 ∨ 20 < (decimalDigits 20 n.toNat).length then none
    else digits 0 (decimalDigits 20 n.toNat)) = some n
  rw [if_neg (by omega), hread, UInt64.ofNat_toNat]
  rfl

@[simp]
theorem number_null : number none = none := rfl

@[simp]
theorem nullableCell_none : nullableCell none = none := rfl

@[simp]
theorem nullableCell_some (n : UInt64) : nullableCell (some n) = u64Cell n := rfl

/-- `UINT64_MAX` is the longest accepted value, and one more is refused. -/
example : number (some [49, 56, 52, 52, 54, 55, 52, 52, 48, 55, 51, 55, 48, 57, 53, 53, 49, 54, 49, 53]) =
      some u64Max ∧
    number (some [49, 56, 52, 52, 54, 55, 52, 52, 48, 55, 51, 55, 48, 57, 53, 53, 49, 54, 49, 54]) =
      none := by decide +kernel

end Vireo.Persistence
