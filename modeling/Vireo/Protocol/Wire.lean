/-
  File:      Vireo/Protocol/Wire.lean
  Subject:   BIG-ENDIAN INTEGERS ON THE WIRE: the helpers that `src/protocol/tlv.c` and
             `src/protocol/codec.c` both keep a copy of.

  A pointer is the list of the bytes from it on, and no caller reads past the end of that list.
-/
import Vireo.Base.Result

namespace Vireo.Protocol

open List

abbrev Bytes := List UInt8

/-! ## 1. The helpers -/

/-- `write_u16_be`. -/
def writeU16Be (value : UInt16) : Bytes := [(value >>> 8).toUInt8, value.toUInt8]

/-- `write_u32_be`. -/
def writeU32Be (value : UInt32) : Bytes :=
  [(value >>> 24).toUInt8, (value >>> 16).toUInt8, (value >>> 8).toUInt8, value.toUInt8]

/-- `write_u64_be`. -/
def writeU64Be (value : UInt64) : Bytes :=
  [(value >>> 56).toUInt8, (value >>> 48).toUInt8, (value >>> 40).toUInt8, (value >>> 32).toUInt8,
    (value >>> 24).toUInt8, (value >>> 16).toUInt8, (value >>> 8).toUInt8, value.toUInt8]

/-- `read_u16_be`. -/
def readU16Be (wire : Bytes) : UInt16 :=
  (wire.getD 0 0).toUInt16 <<< 8 ||| (wire.getD 1 0).toUInt16

/-- `read_u32_be`. -/
def readU32Be (wire : Bytes) : UInt32 :=
  (wire.getD 0 0).toUInt32 <<< 24 ||| (wire.getD 1 0).toUInt32 <<< 16 |||
    (wire.getD 2 0).toUInt32 <<< 8 ||| (wire.getD 3 0).toUInt32

/-- `read_u64_be`. -/
def readU64Be (wire : Bytes) : UInt64 :=
  (wire.getD 0 0).toUInt64 <<< 56 ||| (wire.getD 1 0).toUInt64 <<< 48 |||
    (wire.getD 2 0).toUInt64 <<< 40 ||| (wire.getD 3 0).toUInt64 <<< 32 |||
    (wire.getD 4 0).toUInt64 <<< 24 ||| (wire.getD 5 0).toUInt64 <<< 16 |||
    (wire.getD 6 0).toUInt64 <<< 8 ||| (wire.getD 7 0).toUInt64

/-! ## 2. Round trips -/

@[simp]
theorem length_writeU16Be (v : UInt16) : (writeU16Be v).length = 2 := rfl

@[simp]
theorem length_writeU32Be (v : UInt32) : (writeU32Be v).length = 4 := rfl

@[simp]
theorem length_writeU64Be (v : UInt64) : (writeU64Be v).length = 8 := rfl

@[simp]
theorem readU16Be_write (v : UInt16) (t : Bytes) : readU16Be (writeU16Be v ++ t) = v := by
  simp only [readU16Be, writeU16Be, cons_append, nil_append, getD_cons_zero, getD_cons_succ]
  apply UInt16.toBitVec_inj.mp
  ext i hi
  -- bit by bit; the shifts tell the two bytes apart
  simp [-UInt16.toUInt16_toUInt8]
  grind

@[simp]
theorem readU32Be_write (v : UInt32) (t : Bytes) : readU32Be (writeU32Be v ++ t) = v := by
  simp only [readU32Be, writeU32Be, cons_append, nil_append, getD_cons_zero, getD_cons_succ]
  apply UInt32.toBitVec_inj.mp
  ext i hi
  simp [-UInt32.toUInt32_toUInt8]
  grind

@[simp]
theorem readU64Be_write (v : UInt64) (t : Bytes) : readU64Be (writeU64Be v ++ t) = v := by
  simp only [readU64Be, writeU64Be, cons_append, nil_append, getD_cons_zero, getD_cons_succ]
  apply UInt64.toBitVec_inj.mp
  ext i hi
  simp [-UInt64.toUInt64_toUInt8]
  grind

@[simp]
theorem readU16Be_write' (v : UInt16) : readU16Be (writeU16Be v) = v := by
  simpa using readU16Be_write v []

@[simp]
theorem readU32Be_write' (v : UInt32) : readU32Be (writeU32Be v) = v := by
  simpa using readU32Be_write v []

@[simp]
theorem readU64Be_write' (v : UInt64) : readU64Be (writeU64Be v) = v := by
  simpa using readU64Be_write v []

theorem writeU16Be_read {s : Bytes} (h : 2 ≤ s.length) : writeU16Be (readU16Be s) = s.take 2 := by
  match s, h with
  | a :: b :: t, _ =>
    simp only [readU16Be, writeU16Be, getD_cons_zero, getD_cons_succ, take_succ_cons,
      List.take_zero, List.cons.injEq, and_true]
    constructor
    all_goals
      apply UInt8.toBitVec_inj.mp
      ext i hi
      have h₈ : 8 + i < 16 := by omega
      have h₁₆ : i < 16 := by omega
      simp [h₈, h₁₆, hi]

theorem readU16Be_append {s : Bytes} (h : 2 ≤ s.length) (t : Bytes) :
    readU16Be (s ++ t) = readU16Be s := by
  match s, h with
  | a :: b :: s, _ => rfl

theorem readU32Be_append {s : Bytes} (h : 4 ≤ s.length) (t : Bytes) :
    readU32Be (s ++ t) = readU32Be s := by
  match s, h with
  | a :: b :: c :: d :: s, _ => rfl

end Vireo.Protocol
