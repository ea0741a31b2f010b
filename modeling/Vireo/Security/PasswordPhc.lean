/-
  File:      Vireo/Security/PasswordPhc.lean
  Subject:   THE RECORD OF A PASSWORD (`src/security/password_phc.c`): its text, read and written by hand.

  The texts are bytes: where the code compares signed characters, nothing above 127 passes either way. What
  a failed parse leaves in the record is not kept here, its callers clear it.
-/
import Vireo.Base.Result
import Vireo.Lib.Positional

namespace Vireo.Security

open Lib

/-! ## 1. The machine -/

/-- How a step ends early. -/
inductive PhcStop where
  /-- a read, a write or a cursor outside of its range, or an integer that does not fit -/
  | fault
  /-- the helper returns `false` -/
  | refused
deriving DecidableEq

/-- `s[i]`. -/
def readAt (s : List UInt8) (i : Nat) : Except PhcStop UInt8 :=
  match s[i]? with
  | some b => .ok b
  | none => .error .fault

/-- `end - cursor`. -/
def remaining (s : List UInt8) (cursor : Nat) : Except PhcStop Nat :=
  if cursor ≤ s.length then .ok (s.length - cursor) else .error .fault

/-- `x << k` in 32 bits. -/
def shiftLeft (x : UInt32) (k : Nat) : Except PhcStop UInt32 :=
  if k < 32 then .ok (x <<< UInt32.ofNat k) else .error .fault

/-- `x >> k` in 32 bits. -/
def shiftRight (x : UInt32) (k : Nat) : Except PhcStop UInt32 :=
  if k < 32 then .ok (x >>> UInt32.ofNat k) else .error .fault

/-- `number * 10 + digit`, which is not to wrap. -/
def tenTimes (number digit : UInt32) : Except PhcStop UInt32 :=
  if number.toNat * 10 + digit.toNat < 2 ^ 32 then .ok (number * 10 + digit) else .error .fault

/-! ## 2. Policies and records -/

/-- `vireo_password_policy_t`. -/
structure PasswordPolicy where
  createMemoryKib : UInt32
  createIterations : UInt32
  maxVerifyMemoryKib : UInt32
  maxVerifyIterations : UInt32
  maxPasswordBytes : Nat
deriving DecidableEq

/-- `vireo_password_policy_valid`. -/
def PasswordPolicy.valid (p : PasswordPolicy) : Bool :=
  p.createMemoryKib ≥ 65536 && p.createMemoryKib ≤ 262144 && p.createIterations ≥ 3 && p.createIterations ≤ 10 &&
    p.maxVerifyMemoryKib ≥ p.createMemoryKib && p.maxVerifyMemoryKib ≤ 262144 &&
    p.maxVerifyIterations ≥ p.createIterations && p.maxVerifyIterations ≤ 10 &&
    decide (1 ≤ p.maxPasswordBytes) && decide (p.maxPasswordBytes ≤ 4096)

/-- `vireo_password_info_t`. -/
structure PasswordInfo where
  version : UInt32
  memoryKib : UInt32
  iterations : UInt32
  parallelism : UInt32
  encodedLength : Nat

/-- `vireo_password_record_t`. -/
structure PasswordRecord where
  info : PasswordInfo
  salt : Vector UInt8 16
  tag : Vector UInt8 32

/-- A text of the source. -/
def phcText (text : String) : List UInt8 := text.toList.map fun ch => UInt8.ofNat ch.toNat

/-! ## 3. Reading -/

/-- `memcmp(cursor, word, length) == 0`; it may read all of the bytes. -/
def compareAt (s : List UInt8) : Nat → List UInt8 → Except PhcStop Bool
  | _, [] => .ok true
  | cursor, w :: word => do
    let b ← readAt s cursor
    let rest ← compareAt s (cursor + 1) word
    .ok (b == w && rest)

variable (s : List UInt8)

/-- `literal`. -/
def literal (cursor : Nat) (word : List UInt8) : Except PhcStop Nat := do
  let left ← remaining s cursor
  if left < word.length then .error .refused
  else do
    let same ← compareAt s cursor word
    if same then .ok (cursor + word.length) else .error .refused

/-- The loop of `decimal`, with so many bytes up to the end. -/
def decimalLoop (s : List UInt8) (zero : Bool) : Nat → Nat → Nat → UInt32 → Except PhcStop (Nat × UInt32)
  | 0, p, _, number => .ok (p, number)
  | left + 1, p, count, number => do
    let c ← readAt s p
    if c < 0x30 ∨ c > 0x39 then .ok (p, number)
    else
      let digit := (c - 0x30).toUInt32
      if number > (0xFFFFFFFF - digit) / 10 ∨ (zero = true ∧ count ≠ 0) then .error .refused
      else do
        let number ← tenTimes number digit
        decimalLoop s zero left (p + 1) (count + 1) number

/-- `decimal`: the cursor behind the digits and their number. -/
def decimal (cursor : Nat) : Except PhcStop (Nat × UInt32) := do
  let left ← remaining s cursor
  if left = 0 then .error .refused
  else do
    let first ← readAt s cursor
    if first < 0x30 ∨ first > 0x39 then .error .refused
    else decimalLoop s (first == 0x30) left cursor 0 0

/-- `base64_digit`; there is none where it returns -1. -/
def base64Digit (c : UInt8) : Option UInt32 :=
  if c ≥ 0x41 ∧ c ≤ 0x5A then some (c - 0x41).toUInt32
  else if c ≥ 0x61 ∧ c ≤ 0x7A then some ((c - 0x61).toUInt32 + 26)
  else if c ≥ 0x30 ∧ c ≤ 0x39 then some ((c - 0x30).toUInt32 + 52)
  else if c = 0x2B then some 62
  else if c = 0x2F then some 63
  else none

/-- The locals of `decode` and of `encode_base64`: what is left in the register, how many bits of it count,
    and what is written. -/
structure BitState where
  accumulator : UInt32
  bits : Nat
  out : List UInt8

/-- The loop of `decode` over so many characters. -/
def decodeLoop (s : List UInt8) (bytes : Nat) : Nat → Nat → BitState → Except PhcStop BitState
  | 0, _, t => .ok t
  | left + 1, i, t => do
    let c ← readAt s i
    match base64Digit c with
    | none => .error .refused
    | some digit => do
      let shifted ← shiftLeft t.accumulator 6
      let accumulator := shifted ||| digit
      if t.bits + 6 ≥ 8 then
        if t.out.length = bytes then .error .refused
        else do
          let byte ← shiftRight accumulator (t.bits + 6 - 8)
          decodeLoop s bytes left (i + 1) ⟨accumulator, t.bits + 6 - 8, t.out ++ [(byte &&& 255).toUInt8]⟩
      else decodeLoop s bytes left (i + 1) ⟨accumulator, t.bits + 6, t.out⟩

/-- `decode`: `length` characters at the cursor into a buffer of `bytes`. -/
def decode (cursor length bytes : Nat) : Except PhcStop (Vector UInt8 bytes) := do
  let t ← decodeLoop s bytes length cursor ⟨0, 0, []⟩
  let one ← shiftLeft 1 t.bits
  if h : t.out.length = bytes ∧ t.accumulator &&& (one - 1) = 0 then .ok ⟨t.out.toArray, h.1⟩
  else .error .refused

/-- What `vireo_password_parse` reads before it looks at the ranges. -/
structure PhcFields where
  memory : UInt32
  iterations : UInt32
  salt : Vector UInt8 16
  tag : Vector UInt8 32

/-- The first condition of `vireo_password_parse`. -/
def parseFields : Except PhcStop PhcFields := do
  let cursor ← literal s 0 (phcText "$argon2id$v=19$m=")
  let memory ← decimal s cursor
  let cursor ← literal s memory.1 (phcText ",t=")
  let iterations ← decimal s cursor
  let cursor ← literal s iterations.1 (phcText ",p=1$")
  let left ← remaining s cursor
  if left ≠ 66 then .error .refused
  else do
    let separator ← readAt s (cursor + 22)
    if separator ≠ 0x24 then .error .refused
    else do
      let salt ← decode s cursor 22 16
      let tag ← decode s (cursor + 23) 43 32
      .ok ⟨memory.2, iterations.2, salt, tag⟩

/-- `vireo_password_parse`; nothing where a step is at fault. -/
def PasswordPolicy.parse (policy : PasswordPolicy) (s : List UInt8) : Option (Except Result PasswordRecord) :=
  match parseFields s with
  | .error .fault => none
  | .error .refused => some (.error .protocol)
  | .ok f =>
    if f.memory < 8 ∨ f.memory > policy.maxVerifyMemoryKib ∨ f.iterations < 1 ∨
        f.iterations > policy.maxVerifyIterations then some (.error .range)
    else some (.ok ⟨⟨19, f.memory, f.iterations, 1, s.length⟩, f.salt, f.tag⟩)

/-! ## 4. Writing -/

/-- `alphabet`. -/
def alphabet : List UInt8 := phcText "ABCDEFGHIJKLMNOPQRSTUVWXYZabcdefghijklmnopqrstuvwxyz0123456789+/"

/-- The inner loop of `encode_base64`, while there are six bits. -/
def emitDigits (accumulator : UInt32) : Nat → List UInt8 → Except PhcStop BitState
  | bits + 6, out => do
    let digit ← shiftRight accumulator bits
    let c ← readAt alphabet (digit &&& 63).toNat
    emitDigits accumulator bits (out ++ [c])
  | bits, out => .ok ⟨accumulator, bits, out⟩

/-- The outer loop of `encode_base64`. -/
def encodeLoop : List UInt8 → BitState → Except PhcStop BitState
  | [], t => .ok t
  | b :: input, t => do
    let shifted ← shiftLeft t.accumulator 8
    let t ← emitDigits (shifted ||| b.toUInt32) (t.bits + 8) t.out
    encodeLoop input t

/-- The end of `encode_base64`: the bits that are left. -/
def lastDigit (t : BitState) : Except PhcStop (List UInt8) :=
  if t.bits ≠ 0 then do
    let digit ← shiftLeft t.accumulator (6 - t.bits)
    let c ← readAt alphabet (digit &&& 63).toNat
    .ok (t.out ++ [c])
  else .ok t.out

/-- `encode_base64` into a buffer of this capacity; the text is without its end. -/
def encodeBase64 (input : List UInt8) (capacity : Nat) : Except PhcStop (List UInt8) := do
  let t ← encodeLoop input ⟨0, 0, []⟩
  let out ← lastDigit t
  if out.length < capacity then .ok out else .error .fault

/-- The format of `snprintf`. -/
def phcFormat (memory iterations : UInt32) (salt tag : List UInt8) : List UInt8 :=
  phcText "$argon2id$v=19$m=" ++ numeral memory.toNat ++ phcText ",t=" ++ numeral iterations.toNat ++
    phcText ",p=1$" ++ salt ++ phcText "$" ++ tag

/-- `vireo_password_encode`; nothing where a step is at fault. -/
def passwordEncode (memory iterations : UInt32) (salt : Vector UInt8 16) (tag : Vector UInt8 32) :
    Option (Except Result (List UInt8)) :=
  match encodeBase64 salt.toList 23, encodeBase64 tag.toList 44 with
  | .ok salt, .ok tag =>
    let out := phcFormat memory iterations salt tag
    if out.length ≥ 128 then some (.error .internal) else some (.ok out)
  | _, _ => none

end Vireo.Security
