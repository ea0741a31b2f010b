/-
  File:      Vireo/Base/Result.lean
  Subject:   THE RESULT CODES AND THE CHECKED ARITHMETIC of `src/base`.

  `size_t` is 64 bits wide on the platforms of the build, so the `size_t` variants of the helpers
  are the `uint64_t` ones and `vireo_checked_u64_to_size` is the identity. Modules that only count
  bytes keep a `size_t` as the natural number it holds; for them there is `checkedSizeAdd`.
-/
import Mathlib.Data.UInt
import Mathlib.Logic.Function.Basic

namespace Vireo

/-- The stable result categories of every fallible call. -/
inductive Result where
  | ok
  | invalidArgument
  | range
  | overflow
  | noMemory
  | notFound
  | busy
  | timeout
  | cancelled
  | io
  | protocol
  | database
  | internal
deriving DecidableEq, Inhabited

/-- A result that reports a failure: what a dependency call that does not succeed returns. -/
abbrev Failure := { r : Result // r ≠ .ok }

theorem Result.internal_ne_ok : Result.internal ≠ .ok := by decide

theorem Result.overflow_ne_ok : Result.overflow ≠ .ok := by decide

namespace Failure

def database : Failure := ⟨.database, by decide⟩
def notFound : Failure := ⟨.notFound, by decide⟩
def range : Failure := ⟨.range, by decide⟩
def overflow : Failure := ⟨.overflow, Result.overflow_ne_ok⟩
def invalidArgument : Failure := ⟨.invalidArgument, by decide⟩
def internal : Failure := ⟨.internal, Result.internal_ne_ok⟩

/-- `RANGE` from a statement of fixed shape is reported as `DATABASE`. -/
def noRange (f : Failure) : Failure := if f.val = .range then database else f

end Failure

/-- The same on result codes. -/
def Result.noRange (rc : Result) : Result := if rc = .range then .database else rc

/-- The first result that is not OK. -/
def Result.first (a b : Result) : Result := if a = .ok then b else a

@[simp]
theorem Result.first_ok (a : Result) : a.first .ok = a := by
  cases a <;> rfl

theorem Result.first_of_ne {a : Result} (h : a ≠ .ok) (b : Result) : a.first b = a := if_neg h

theorem Result.first_ne {b : Result} (h : b ≠ .ok) (a : Result) : a.first b ≠ .ok := by
  unfold Result.first
  split
  · exact h
  · assumption

/-- The result code of a step. -/
def Result.ofExcept {α : Type} : Except Failure α → Result
  | .ok _ => .ok
  | .error f => f.val

/-- `UINT64_MAX`, also `SIZE_MAX`. -/
def u64Max : UInt64 := 0xFFFFFFFFFFFFFFFF

/-- `vireo_checked_u64_add`: refuses a sum that is not representable. The bound
    `UINT64_MAX - left` is computed on the naturals, where it cannot wrap either. -/
def checkedU64Add (left right : UInt64) : Except Result UInt64 :=
  if right.toNat > u64Max.toNat - left.toNat then .error .overflow else .ok (left + right)

/-- `vireo_checked_u64_mul`: refuses a product that is not representable. -/
def checkedU64Mul (left right : UInt64) : Except Result UInt64 :=
  if left ≠ 0 ∧ right.toNat > u64Max.toNat / left.toNat then .error .overflow
  else .ok (left * right)

/-- `SIZE_MAX`, for a `size_t` that is kept as a natural number. -/
def sizeMax : Nat := 2 ^ 64 - 1

/-- `vireo_checked_size_add` on natural numbers. -/
def checkedSizeAdd (left right : Nat) : Except Result Nat :=
  if right > sizeMax - left then .error .overflow else .ok (left + right)

/-- `UINT32_MAX`, for a `uint32_t` that is kept as a natural number. -/
def u32Max : Nat := 2 ^ 32 - 1

/-- `vireo_checked_u32_add` on natural numbers. -/
def checkedU32Add (left right : Nat) : Except Result Nat :=
  if right > u32Max - left then .error .overflow else .ok (left + right)

/-- `vireo_checked_u32_mul` on natural numbers. -/
def checkedU32Mul (left right : Nat) : Except Result Nat :=
  if left ≠ 0 ∧ right > u32Max / left then .error .overflow else .ok (left * right)

/-- `vireo_checked_size_range`: `length` cells from `offset` on lie within `limit`. -/
def checkedSizeRange (offset length limit : UInt64) : Result :=
  if offset > limit then .range else if length > limit - offset then .range else .ok

theorem u64Max_toNat : u64Max.toNat = 2 ^ 64 - 1 := rfl

theorem checkedU64Add_of_lt {a b : UInt64} (h : a.toNat + b.toNat < 2 ^ 64) : checkedU64Add a b = .ok (a + b) :=
  if_neg (by rw [u64Max_toNat]; omega)

theorem checkedU64Add_error {a b : UInt64} {e : Result} (h : checkedU64Add a b = .error e) :
    e = .overflow ∧ 2 ^ 64 ≤ a.toNat + b.toNat := by
  by_cases hlt : a.toNat + b.toNat < 2 ^ 64
  · rw [checkedU64Add_of_lt hlt] at h
    cases h
  · unfold checkedU64Add at h
    split at h <;> cases h
    exact ⟨rfl, not_lt.mp hlt⟩

theorem checkedU64Add_ok {a b c : UInt64} (h : checkedU64Add a b = .ok c) :
    c.toNat = a.toNat + b.toNat := by
  unfold checkedU64Add at h
  split at h
  · cases h
  rename_i hle
  obtain rfl : a + b = c := Except.ok.inj h
  rw [u64Max_toNat] at hle
  rw [UInt64.toNat_add, Nat.mod_eq_of_lt]
  have := a.toNat_lt
  omega

theorem checkedU64Mul_of_lt {a b : UInt64} (h : a.toNat * b.toNat < 2 ^ 64) :
    checkedU64Mul a b = .ok (a * b) := by
  refine if_neg ?_
  rintro ⟨ha, hb⟩
  have hpos : 0 < a.toNat := Nat.pos_of_ne_zero fun h => ha (UInt64.toNat_inj.mp h)
  have hmul := (Nat.div_lt_iff_lt_mul hpos).mp hb
  rw [u64Max_toNat, Nat.mul_comm] at hmul
  omega

theorem checkedU64Mul_error {a b : UInt64} {e : Result} (h : checkedU64Mul a b = .error e) :
    e = .overflow ∧ 2 ^ 64 ≤ a.toNat * b.toNat := by
  by_cases hlt : a.toNat * b.toNat < 2 ^ 64
  · rw [checkedU64Mul_of_lt hlt] at h
    cases h
  · unfold checkedU64Mul at h
    split at h <;> cases h
    exact ⟨rfl, not_lt.mp hlt⟩

theorem checkedU64Mul_ok {a b c : UInt64} (h : checkedU64Mul a b = .ok c) :
    c.toNat = a.toNat * b.toNat := by
  unfold checkedU64Mul at h
  split at h
  · cases h
  rename_i hle
  obtain rfl : a * b = c := Except.ok.inj h
  rw [UInt64.toNat_mul, Nat.mod_eq_of_lt]
  by_cases ha : a = 0
  · rw [ha]; simp
  have hb : ¬ b.toNat > u64Max.toNat / a.toNat := fun hb => hle ⟨ha, hb⟩
  rw [u64Max_toNat, gt_iff_lt, not_lt] at hb
  have hmul : b.toNat * a.toNat ≤ 2 ^ 64 - 1 := Nat.mul_le_of_le_div _ _ _ hb
  rw [Nat.mul_comm] at hmul
  omega

theorem checkedSizeAdd_of_le {a b : Nat} (h : a + b ≤ sizeMax) : checkedSizeAdd a b = .ok (a + b) :=
  if_neg (by omega)

theorem checkedSizeAdd_ne_ok {a b : Nat} {e : Result} (h : checkedSizeAdd a b = .error e) :
    e = .overflow := by
  unfold checkedSizeAdd at h
  split at h <;> cases h
  rfl

theorem checkedSizeAdd_ok {a b c : Nat} (h : checkedSizeAdd a b = .ok c) : c = a + b := by
  unfold checkedSizeAdd at h
  split at h <;> cases h
  rfl

theorem checkedU32Add_of_le {a b : Nat} (h : a + b ≤ u32Max) : checkedU32Add a b = .ok (a + b) :=
  if_neg (by omega)

theorem checkedU32Mul_of_le {a b : Nat} (h : a * b ≤ u32Max) : checkedU32Mul a b = .ok (a * b) := by
  refine if_neg fun ⟨ha, hb⟩ => ?_
  have hle : b ≤ u32Max / a := (Nat.le_div_iff_mul_le (Nat.pos_of_ne_zero ha)).mpr (by rw [Nat.mul_comm]; exact h)
  omega

theorem checkedSizeRange_ok {offset length limit : UInt64}
    (h : checkedSizeRange offset length limit = .ok) :
    offset.toNat + length.toNat ≤ limit.toNat := by
  unfold checkedSizeRange at h
  split at h
  · cases h
  rename_i h₁
  split at h
  · cases h
  rename_i h₂
  have hle := UInt64.not_lt.mp h₁
  have hlen := UInt64.le_iff_toNat_le.mp (UInt64.not_lt.mp h₂)
  rw [UInt64.toNat_sub_of_le _ _ hle] at hlen
  have := UInt64.le_iff_toNat_le.mp hle
  omega

theorem checkedSizeRange_of_le {offset length limit : UInt64}
    (h : offset.toNat + length.toNat ≤ limit.toNat) :
    checkedSizeRange offset length limit = .ok := by
  have hle : offset ≤ limit := UInt64.le_iff_toNat_le.mpr (by omega)
  unfold checkedSizeRange
  rw [if_neg (UInt64.not_lt.mpr hle), if_neg]
  rw [gt_iff_lt, UInt64.not_lt, UInt64.le_iff_toNat_le, UInt64.toNat_sub_of_le _ _ hle]
  omega

end Vireo
