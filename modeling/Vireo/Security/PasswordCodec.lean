/-
  File:      Vireo/Security/PasswordCodec.lean
  Subject:   THE RECORD OF A PASSWORD: reading takes back what writing makes, and nothing else.
-/
import Vireo.Security.PasswordPhc

namespace Vireo.Security

open Lib
open List hiding Vector

/-! ## 1. The cursor -/

/-- What is behind a cursor inside of the text. -/
structure At (s : List UInt8) (cursor : Nat) (rest : List UInt8) : Prop where
  le : cursor ≤ s.length
  rest : s.drop cursor = rest

section Cursor

variable {s rest : List UInt8} {cursor : Nat} {number digit : UInt32} {b c : UInt8}

theorem at_zero (s : List UInt8) : At s 0 s := ⟨Nat.zero_le _, drop_zero⟩

theorem At.remaining (h : At s cursor rest) : remaining s cursor = .ok rest.length := by
  unfold Security.remaining
  rw [if_pos h.le, ← h.rest, length_drop]

theorem At.read (h : At s cursor (b :: rest)) : readAt s cursor = .ok b := by
  have hget : s[cursor]? = some b := by
    rw [← List.head?_drop, h.rest]
    rfl
  unfold readAt
  rw [hget]

theorem At.skip (pre : List UInt8) (h : At s cursor (pre ++ rest)) : At s (cursor + pre.length) rest := by
  have hlength := congrArg List.length h.rest
  have hle := h.le
  rw [length_drop, length_append] at hlength
  refine ⟨by omega, ?_⟩
  rw [← drop_drop, h.rest, drop_left]

theorem At.next (h : At s cursor (b :: rest)) : At s (cursor + 1) rest := h.skip [b]

theorem compareAt_at (word : List UInt8) (h : At s cursor rest) (hlength : word.length ≤ rest.length) :
    compareAt s cursor word = .ok (decide (word <+: rest)) := by
  induction word generalizing cursor rest with
  | nil => simp [compareAt]
  | cons w word ih =>
    cases rest with
    | nil => simp at hlength
    | cons b rest =>
      unfold compareAt
      rw [h.read, ih h.next (by simpa using hlength)]
      simp only [bind, Except.bind, cons_prefix_cons]
      by_cases hb : b = w
      · simp [hb]
      · simp [hb, Ne.symm hb]

/-- **`literal`**, by what is behind the cursor. -/
theorem literal_at (word : List UInt8) (h : At s cursor rest) :
    literal s cursor word = if word <+: rest then .ok (cursor + word.length) else .error .refused := by
  unfold literal
  rw [h.remaining]
  simp only [bind, Except.bind]
  by_cases hlength : rest.length < word.length
  · have hnot : ¬word <+: rest := fun hp => Nat.not_le.mpr hlength hp.length_le
    rw [if_pos hlength, if_neg hnot]
  · rw [if_neg hlength, compareAt_at word h (Nat.le_of_not_lt hlength)]
    by_cases hp : word <+: rest
    · simp [hp]
    · simp [hp]

/-! ## 2. Decimals -/

theorem digit_of_not : ¬(c < 0x30 ∨ c > 0x39) ↔ isDigit c = true := by
  simp [isDigit, not_or, UInt8.not_lt]

theorem toNat_digit_sub (h : isDigit c = true) : (c - 0x30).toUInt32.toNat = digitValue c := by
  have hc := isDigit_iff.mp h
  have hle : (0x30 : UInt8) ≤ c := UInt8.le_iff_toNat_le.mpr hc.1
  rw [UInt8.toNat_toUInt32, UInt8.toNat_sub_of_le _ _ hle]
  rfl

theorem too_large_iff (hd : digit.toNat < 10) :
    number > (0xFFFFFFFF - digit) / 10 ↔ 2 ^ 32 ≤ number.toNat * 10 + digit.toNat := by
  have hsub : (0xFFFFFFFF - digit).toNat = 4294967295 - digit.toNat :=
    UInt32.toNat_sub_of_le _ _ (UInt32.le_iff_toNat_le.mpr (by
      show digit.toNat ≤ 4294967295
      omega))
  rw [gt_iff_lt, UInt32.lt_iff_toNat_lt, UInt32.toNat_div, hsub]
  show (4294967295 - digit.toNat) / 10 < number.toNat ↔ _
  omega

theorem tenTimes_of_lt (h : number.toNat * 10 + digit.toNat < 2 ^ 32) :
    ∃ next : UInt32, tenTimes number digit = .ok next ∧ next.toNat = number.toNat * 10 + digit.toNat := by
  refine ⟨number * 10 + digit, if_pos h, ?_⟩
  rw [UInt32.toNat_add, UInt32.toNat_mul]
  show (number.toNat * 10 % 2 ^ 32 + digit.toNat) % 2 ^ 32 = _
  omega

/-- What the loop makes of the digits behind the cursor. -/
def decimalResult (p count : Nat) (zero : Bool) (number : Nat) (ds : List UInt8) : Except PhcStop (Nat × UInt32) :=
  if decimalFrom number ds < 2 ^ 32 ∧ (zero = true → count + ds.length ≤ 1) then
    .ok (p + ds.length, UInt32.ofNat (decimalFrom number ds))
  else .error .refused

theorem decimalLoop_spec (zero : Bool) (count : Nat) (number : UInt32) (h : At s cursor rest)
    (hcount : zero = true → count ≤ 1) :
    decimalLoop s zero rest.length cursor count number =
      decimalResult cursor count zero number.toNat (rest.takeWhile isDigit) := by
  have hstop : ∀ (p : Nat) (number : UInt32), (zero = true → count ≤ 1) →
      Except.ok (p, number) = decimalResult p count zero number.toNat [] := by
    intro p number hle
    unfold decimalResult
    rw [if_pos ⟨number.toNat_lt, hle⟩]
    simp
  induction rest generalizing cursor count number with
  | nil => exact hstop cursor number hcount
  | cons c rest ih =>
    rw [length_cons]
    unfold decimalLoop
    rw [h.read]
    simp only [bind, Except.bind]
    by_cases hc : c < 0x30 ∨ c > 0x39
    · have hnot : ¬isDigit c = true := fun hd => digit_of_not.mpr hd hc
      rw [if_pos hc, takeWhile_cons_of_neg hnot]
      exact hstop cursor number hcount
    · have hd := digit_of_not.mp hc
      have hvalue := toNat_digit_sub hd
      have hlt := digitValue_lt hd
      rw [if_neg hc, takeWhile_cons_of_pos hd]
      by_cases hfault : number > (0xFFFFFFFF - (c - 0x30).toUInt32) / 10 ∨ (zero = true ∧ count ≠ 0)
      · rw [if_pos hfault]
        unfold decimalResult
        rw [if_neg]
        rintro ⟨hfits, hzero⟩
        have hle := le_decimalFrom (number.toNat * 10 + digitValue c) (rest.takeWhile isDigit)
        rw [decimalFrom_cons] at hfits
        rw [length_cons] at hzero
        rcases hfault with hlarge | ⟨hz, hne⟩
        · have := (too_large_iff (by omega)).mp hlarge
          omega
        · have := hzero hz
          omega
      · rw [if_neg hfault]
        obtain ⟨hsmall, hzero⟩ := not_or.mp hfault
        have hfits : number.toNat * 10 + (c - 0x30).toUInt32.toNat < 2 ^ 32 :=
          Nat.lt_of_not_le fun hle => hsmall ((too_large_iff (by omega)).mpr hle)
        obtain ⟨next, hnext, hnumber⟩ := tenTimes_of_lt hfits
        have hcount' : zero = true → count + 1 ≤ 1 := fun hz => by
          have := not_and.mp hzero hz
          omega
        rw [hnext]
        refine (ih _ _ h.next hcount' ?_).trans ?_
        · intro p number hle
          unfold decimalResult
          rw [if_pos ⟨number.toNat_lt, hle⟩]
          simp
        · unfold decimalResult
          rw [hnumber, hvalue, decimalFrom_cons, length_cons, Nat.add_assoc cursor, Nat.add_assoc count,
            Nat.add_comm 1]

/-- **`decimal`**: the digits behind the cursor, where they are a numeral of 32 bits. -/
theorem decimal_at (h : At s cursor rest) : decimal s cursor =
      if decimalFrom 0 (rest.takeWhile isDigit) < 2 ^ 32 ∧ IsNumeral (rest.takeWhile isDigit) then
        .ok (cursor + (rest.takeWhile isDigit).length, UInt32.ofNat (decimalFrom 0 (rest.takeWhile isDigit)))
      else .error .refused := by
  unfold decimal
  rw [h.remaining]
  simp only [bind, Except.bind]
  cases rest with
  | nil => exact (if_pos rfl).trans (if_neg fun hn => hn.2.pos rfl).symm
  | cons c rest =>
    rw [if_neg (by simp), h.read]
    by_cases hc : c < 0x30 ∨ c > 0x39
    · have hnot : ¬isDigit c = true := fun hd => digit_of_not.mpr hd hc
      rw [if_neg (fun hn => hn.2.pos (takeWhile_cons_of_neg hnot))]
      exact if_pos hc
    · have hd := digit_of_not.mp hc
      have hloop := decimalLoop_spec (c == 0x30) 0 0 h (fun _ => Nat.zero_le _)
      rw [takeWhile_cons_of_pos hd] at hloop ⊢
      refine (if_neg hc).trans (hloop.trans ?_)
      unfold decimalResult
      refine if_congr (and_congr_right fun _ => ⟨fun hzero => ⟨?_, by simp, fun hlong => ?_⟩, fun hn hz => ?_⟩) rfl rfl
      · rw [all_cons, hd, all_takeWhile]
        rfl
      · rw [List.head?_cons]
        intro hc0
        have := hzero (by simpa using Option.some.inj hc0)
        omega
      · refine Nat.le_of_not_lt fun hlong => hn.front (by omega) ?_
        rw [List.head?_cons, eq_of_beq hz]

end Cursor

/-! ## 3. The register -/

/-- What went through a register, and what came out: the register holds the last bits of the whole number. -/
structure BitInv (wi wo : Nat) (ins outs : List Nat) (t : BitState) : Prop where
  groups : Regrouped wi wo ins outs t.bits
  register : t.accumulator.toNat = positional (2 ^ wi) ins % 2 ^ 32

theorem shiftLeft_of_lt {x : UInt32} {k : Nat} (hk : k < 32) :
    ∃ y, shiftLeft x k = .ok y ∧ y.toNat = x.toNat * 2 ^ k % 2 ^ 32 := by
  refine ⟨_, if_pos hk, ?_⟩
  rw [UInt32.toNat_shiftLeft, UInt32.toNat_ofNat_of_lt' (by show k < 4294967296; omega), Nat.mod_eq_of_lt hk,
    Nat.shiftLeft_eq]

theorem shiftRight_of_lt {x : UInt32} {k : Nat} (hk : k < 32) :
    ∃ y, shiftRight x k = .ok y ∧ y.toNat = x.toNat / 2 ^ k := by
  refine ⟨_, if_pos hk, ?_⟩
  rw [UInt32.toNat_shiftRight, UInt32.toNat_ofNat_of_lt' (by show k < 4294967296; omega), Nat.mod_eq_of_lt hk,
    Nat.shiftRight_eq_div_pow]

theorem mod_div_mod (n : Nat) {k w : Nat} (h : k + w ≤ 32) :
    n % 2 ^ 32 / 2 ^ k % 2 ^ w = n / 2 ^ k % 2 ^ w := by
  have hsplit : 2 ^ 32 = 2 ^ k * 2 ^ (32 - k) := by rw [← Nat.pow_add, Nat.add_sub_cancel' (by omega)]
  rw [hsplit, Nat.mod_mul_right_div_self, Nat.mod_mod_of_dvd _ (Nat.pow_dvd_pow 2 (by omega))]

theorem toNat_absorb {wi n : Nat} {x y d : UInt32} (hw : wi ≤ 32) (hx : x.toNat = n % 2 ^ 32)
    (hy : y.toNat = x.toNat * 2 ^ wi % 2 ^ 32) (hd : d.toNat < 2 ^ wi) :
    (y ||| d).toNat = (n * 2 ^ wi + d.toNat) % 2 ^ 32 := by
  have hsplit : 2 ^ 32 = 2 ^ (32 - wi) * 2 ^ wi := by rw [← Nat.pow_add, Nat.sub_add_cancel hw]
  have hy' : y.toNat = n * 2 ^ wi % 2 ^ 32 := by rw [hy, hx, Nat.mod_mul_mod]
  -- the low bits of what was shifted are zero, so the digit is added
  have hshifted : n * 2 ^ wi % 2 ^ 32 = 2 ^ wi * (n % 2 ^ (32 - wi)) := by
    rw [hsplit, Nat.mul_mod_mul_right, Nat.mul_comm]
  have hroom : 2 ^ wi * (n % 2 ^ (32 - wi)) + d.toNat < 2 ^ 32 := by
    have hlt := Nat.mod_lt n (Nat.two_pow_pos (32 - wi))
    calc 2 ^ wi * (n % 2 ^ (32 - wi)) + d.toNat
        < 2 ^ wi * (n % 2 ^ (32 - wi)) + 2 ^ wi := Nat.add_lt_add_left hd _
      _ = 2 ^ wi * (n % 2 ^ (32 - wi) + 1) := by ring
      _ ≤ 2 ^ wi * 2 ^ (32 - wi) := Nat.mul_le_mul_left _ hlt
      _ = 2 ^ 32 := by rw [← Nat.pow_add, Nat.add_sub_cancel' hw]
  rw [UInt32.toNat_or, hy', hshifted, ← Nat.two_pow_add_eq_or_of_lt hd, ← hshifted]
  rw [← hshifted] at hroom
  exact ((Nat.mod_add_mod _ _ _).symm.trans (Nat.mod_eq_of_lt hroom)).symm

section Register

variable {wi wo : Nat} {ins outs : List Nat} {t : BitState}

theorem BitInv.absorb (inv : BitInv wi wo ins outs t) (hw : wi ≤ 32) {y d : UInt32}
    (hy : y.toNat = t.accumulator.toNat * 2 ^ wi % 2 ^ 32) (hd : d.toNat < 2 ^ wi) (out : List UInt8) :
    BitInv wi wo (ins ++ [d.toNat]) outs ⟨y ||| d, t.bits + wi, out⟩ where
  groups := inv.groups.absorb hd
  register := by rw [positional_snoc]; exact toNat_absorb hw inv.register hy hd

theorem BitInv.front (inv : BitInv wi wo ins outs t) {y : UInt32} {k w : Nat} (h : k + w ≤ 32)
    (hy : y.toNat = t.accumulator.toNat / 2 ^ k) :
    y.toNat % 2 ^ w = positional (2 ^ wi) ins / 2 ^ k % 2 ^ w := by
  rw [hy, inv.register, mod_div_mod _ h]

end Register

/-! ## 4. The alphabet -/

theorem base64Digit_spec (c : UInt8) :
    ∀ d, base64Digit c = some d → d.toNat < 64 ∧ readAt alphabet d.toNat = .ok c := by
  have hall : ∀ c : Fin 256, ∀ d, base64Digit (UInt8.ofNat c) = some d →
      d.toNat < 64 ∧ readAt alphabet d.toNat = .ok (UInt8.ofNat c) := by
    have hone : ∀ c : Fin 256, (base64Digit (UInt8.ofNat c)).all
        (fun d => decide (d.toNat < 64) && decide (readAt alphabet d.toNat = .ok (UInt8.ofNat c))) = true := by
      decide +kernel
    intro c d hd
    have h := hone c
    rw [hd] at h
    simpa using h
  have h := hall ⟨c.toNat, c.toNat_lt⟩
  rwa [show UInt8.ofNat ((⟨c.toNat, c.toNat_lt⟩ : Fin 256) : Nat) = c from UInt8.ofNat_toNat] at h

theorem alphabet_spec {n : Nat} (hn : n < 64) :
    ∃ c d, readAt alphabet n = .ok c ∧ base64Digit c = some d ∧ d.toNat = n := by
  have hall : ∀ n : Fin 64, (match readAt alphabet n with
      | .error _ => false
      | .ok c => (base64Digit c).any fun d => decide (d.toNat = (n : Nat))) = true := by
    decide +kernel
  have h := hall ⟨n, hn⟩
  dsimp only at h
  split at h
  · cases h
  rename_i c hc
  obtain ⟨d, hd, heq⟩ := (Option.any_eq_true ..).mp h
  exact ⟨c, d, hc, hd, of_decide_eq_true heq⟩

/-- What a character stands for. -/
def IsSextet (c : UInt8) (n : Nat) : Prop := ∃ d, base64Digit c = some d ∧ d.toNat = n

theorem IsSextet.lt {c : UInt8} {n : Nat} (h : IsSextet c n) : n < 64 := by
  obtain ⟨d, hd, rfl⟩ := h
  exact (base64Digit_spec c d hd).1

theorem isSextet_rightUnique : Relator.RightUnique IsSextet := by
  rintro c n n' ⟨d, hd, rfl⟩ ⟨d', hd', rfl⟩
  rw [hd] at hd'
  rw [Option.some.inj hd']

theorem isSextet_leftUnique : Relator.LeftUnique IsSextet := by
  rintro c c' n ⟨d, hd, rfl⟩ ⟨d', hd', heq⟩
  have hread := (base64Digit_spec c d hd).2
  have hread' := (base64Digit_spec c' d' hd').2
  rw [heq] at hread'
  exact Except.ok.inj (hread.symm.trans hread')

theorem sextets_lt {chars : List UInt8} {ds : List Nat} (h : List.Forall₂ IsSextet chars ds) : ∀ d ∈ ds, d < 64 := by
  induction h with
  | nil => simp
  | cons hc _ ih => simpa using ⟨hc.lt, ih⟩

theorem sextet_at (x : UInt32) : ∃ c, readAt alphabet (x &&& 63).toNat = .ok c ∧ IsSextet c (x.toNat % 2 ^ 6) := by
  have hand : (x &&& 63).toNat = x.toNat % 2 ^ 6 := by
    rw [UInt32.toNat_and]
    exact Nat.and_two_pow_sub_one_eq_mod x.toNat 6
  obtain ⟨c, d, hc, hd, hdn⟩ := alphabet_spec (Nat.mod_lt x.toNat (by decide : 0 < 2 ^ 6))
  rw [hand]
  exact ⟨c, hc, d, hd, hdn⟩

theorem toNat_low_byte (x : UInt32) : (x &&& 255).toUInt8.toNat = x.toNat % 2 ^ 8 := by
  have hand : (x &&& 255).toNat = x.toNat % 2 ^ 8 := by
    rw [UInt32.toNat_and]
    exact Nat.and_two_pow_sub_one_eq_mod x.toNat 8
  rw [UInt32.toNat_toUInt8, hand, Nat.mod_mod]

/-! ## 5. Decoding -/

section Decoding

variable {s rest chars : List UInt8} {cursor bytes : Nat}

/-- **The loop of `decode`**: all of the characters stand for something, and the bytes are the bits of them. -/
theorem decodeLoop_spec {ins : List Nat} {t : BitState} (h : At s cursor (chars ++ rest))
    (inv : BitInv 6 8 ins (t.out.map UInt8.toNat) t) (hbits : t.bits < 8)
    (hbytes : bytes = 6 * (ins.length + chars.length) / 8) :
    (∃ ds t', List.Forall₂ IsSextet chars ds ∧ decodeLoop s bytes chars.length cursor t = .ok t' ∧
      BitInv 6 8 (ins ++ ds) (t'.out.map UInt8.toNat) t' ∧ t'.bits < 8) ∨
    (decodeLoop s bytes chars.length cursor t = .error .refused ∧ ∀ ds, ¬List.Forall₂ IsSextet chars ds) := by
  induction chars generalizing cursor ins t with
  | nil => exact .inl ⟨[], t, List.Forall₂.nil, rfl, by rwa [List.append_nil], hbits⟩
  | cons c chars ih =>
    rw [length_cons]
    unfold decodeLoop
    rw [cons_append] at h
    rw [h.read]
    simp only [bind, Except.bind]
    cases hdigit : base64Digit c with
    | none =>
      refine .inr ⟨rfl, fun ds hds => ?_⟩
      obtain ⟨_, _, ⟨d, hd, -⟩, -, -⟩ := forall₂_cons_left_iff.mp hds
      rw [hdigit] at hd
      cases hd
    | some d =>
      obtain ⟨hd, -⟩ := base64Digit_spec c d hdigit
      have hsextet : IsSextet c d.toNat := ⟨d, hdigit, rfl⟩
      have hcount := inv.groups.count
      rw [length_map] at hcount
      rw [length_cons] at hbytes
      obtain ⟨y, hy, hyv⟩ := shiftLeft_of_lt (x := t.accumulator) (k := 6) (by decide)
      have habsorb := fun out => inv.absorb (by decide) hyv hd out
      have hlength : bytes = 6 * ((ins ++ [d.toNat]).length + chars.length) / 8 := by
        rw [hbytes, length_append, length_singleton]
        congr 2
        omega
      -- whatever state is handed on, the rest of the characters decides
      have hrest : ∀ t', BitInv 6 8 (ins ++ [d.toNat]) (t'.out.map UInt8.toNat) t' → t'.bits < 8 →
          (∃ ds t'', List.Forall₂ IsSextet (c :: chars) ds ∧
            decodeLoop s bytes chars.length (cursor + 1) t' = .ok t'' ∧
            BitInv 6 8 (ins ++ ds) (t''.out.map UInt8.toNat) t'' ∧ t''.bits < 8) ∨
          (decodeLoop s bytes chars.length (cursor + 1) t' = .error .refused ∧
            ∀ ds, ¬List.Forall₂ IsSextet (c :: chars) ds) := by
        intro t' inv' hbits'
        rcases ih h.next inv' hbits' hlength with ⟨ds, t'', hds, hloop, inv'', hbits''⟩ | ⟨hloop, hnone⟩
        · refine .inl ⟨d.toNat :: ds, t'', hds.cons hsextet, hloop, ?_, hbits''⟩
          rwa [append_assoc, singleton_append] at inv''
        · refine .inr ⟨hloop, fun ds hds => ?_⟩
          obtain ⟨_, ds', -, hds', -⟩ := forall₂_cons_left_iff.mp hds
          exact hnone ds' hds'
      rw [hy]
      by_cases height : t.bits + 6 ≥ 8
      · have hroom : t.out.length ≠ bytes := by omega
        obtain ⟨z, hz, hzv⟩ := shiftRight_of_lt (x := y ||| d) (k := t.bits + 6 - 8) (by omega)
        have hemit := (habsorb t.out).groups.emit height
        have hbyte := (habsorb t.out).front (w := 8) (k := t.bits + 6 - 8) (by omega) hzv
        simp only [height, if_true, hroom, if_false, hz]
        refine hrest _ ⟨?_, (habsorb t.out).register⟩ (by dsimp only; omega)
        rw [map_append, map_singleton, toNat_low_byte, hbyte]
        exact hemit
      · simp only [height, if_false]
        exact hrest _ (habsorb t.out) (by dsimp only; omega)

/-- What characters and bytes that belong together have in common. -/
def Encodes (ds : List Nat) (bytes : List UInt8) : Prop :=
  positional 64 ds = positional 256 (bytes.map UInt8.toNat) * 2 ^ (6 * ds.length - 8 * bytes.length)

theorem leftover_iff {x one : UInt32} {k : Nat} (hk : k < 8) (hone : one.toNat = 1 * 2 ^ k % 2 ^ 32) :
    x &&& (one - 1) = 0 ↔ x.toNat % 2 ^ k = 0 := by
  have hpow : 2 ^ k ≤ 2 ^ 8 := Nat.pow_le_pow_right (by decide) hk.le
  have hpos := Nat.two_pow_pos k
  have hone' : one.toNat = 2 ^ k := by
    rw [hone, Nat.one_mul]
    exact Nat.mod_eq_of_lt (by omega)
  have hle : (1 : UInt32) ≤ one := UInt32.le_iff_toNat_le.mpr (by
    show 1 ≤ one.toNat
    omega)
  have hmask : (x &&& (one - 1)).toNat = x.toNat % 2 ^ k := by
    rw [UInt32.toNat_and, UInt32.toNat_sub_of_le _ _ hle, hone']
    exact Nat.and_two_pow_sub_one_eq_mod x.toNat k
  rw [← hmask]
  exact ⟨fun h => by rw [h]; rfl, fun h => UInt32.toNat_inj.mp h⟩

/-- **`decode`**, where the bytes are as many as the characters have whole ones. -/
theorem decode_spec (h : At s cursor (chars ++ rest)) (hbytes : bytes = 6 * chars.length / 8) :
    (∃ ds, ∃ v : Vector UInt8 bytes, List.Forall₂ IsSextet chars ds ∧
      decode s cursor chars.length bytes = .ok v ∧ Encodes ds v.toList) ∨
    (decode s cursor chars.length bytes = .error .refused ∧
      ∀ ds, ∀ v : Vector UInt8 bytes, List.Forall₂ IsSextet chars ds → ¬Encodes ds v.toList) := by
  have hnil : BitInv 6 8 [] (([] : List UInt8).map UInt8.toNat) ⟨0, 0, []⟩ := ⟨regrouped_nil 6 8, rfl⟩
  unfold decode
  rcases decodeLoop_spec (t := ⟨0, 0, []⟩) h hnil (by decide) (by simpa using hbytes) with
    ⟨ds, t', hds, hloop, inv, hbits⟩ | ⟨hloop, hnone⟩
  · have hcount := inv.groups.count
    have hds' := hds.length_eq
    rw [length_map, nil_append] at hcount
    have hlength : t'.out.length = bytes := by omega
    have hleft : 6 * ds.length - 8 * bytes = t'.bits := by omega
    obtain ⟨one, hone, honev⟩ := shiftLeft_of_lt (x := 1) (k := t'.bits) (by omega)
    have hmask : t'.accumulator &&& (one - 1) = 0 ↔ positional (2 ^ 6) ds % 2 ^ t'.bits = 0 := by
      rw [leftover_iff hbits honev, inv.register, nil_append]
      have hdvd : 2 ^ t'.bits ∣ 2 ^ 32 := Nat.pow_dvd_pow 2 (by omega)
      rw [Nat.mod_mod_of_dvd _ hdvd]
    have hexact := inv.groups.exact
    rw [nil_append] at hexact
    rw [hloop]
    simp only [bind, Except.bind, hone]
    by_cases hzero : t'.accumulator &&& (one - 1) = 0
    · refine .inl ⟨ds, ⟨t'.out.toArray, hlength⟩, hds, dif_pos ⟨hlength, hzero⟩, ?_⟩
      show positional 64 ds = positional 256 (t'.out.map UInt8.toNat) * 2 ^ (6 * ds.length - 8 * t'.out.length)
      rw [hlength, hleft]
      exact hexact.mp (hmask.mp hzero)
    · refine .inr ⟨dif_neg fun h => hzero h.2, fun ds' v hds' henc => hzero (hmask.mpr ?_)⟩
      have heq : ds' = ds := (right_unique_forall₂' isSextet_rightUnique) hds' hds
      subst heq
      unfold Encodes at henc
      rw [Vector.length_toList, hleft] at henc
      show positional 64 ds' % 2 ^ t'.bits = 0
      rw [henc, Nat.mul_mod_left]
  · refine .inr ⟨?_, fun ds v hds => absurd hds (hnone ds)⟩
    rw [hloop]
    rfl

end Decoding

/-! ## 6. Encoding -/

section Encoding

variable {ins ds : List Nat}

theorem emitDigits_spec {accumulator : UInt32} {bits : Nat} {out : List UInt8}
    (inv : BitInv 8 6 ins ds ⟨accumulator, bits, out⟩) (hds : List.Forall₂ IsSextet out ds) (hbits : bits ≤ 32) :
    ∃ t' ds', emitDigits accumulator bits out = .ok t' ∧ BitInv 8 6 ins ds' t' ∧
      List.Forall₂ IsSextet t'.out ds' ∧ t'.bits < 6 := by
  fun_induction emitDigits accumulator bits out generalizing ds with
  | case1 bits out ih =>
    obtain ⟨z, hz, hzv⟩ := shiftRight_of_lt (x := accumulator) (k := bits) (by omega)
    have hfront := inv.front (w := 6) (k := bits) (by omega) hzv
    have hemit : Regrouped 8 6 ins (ds ++ [positional (2 ^ 8) ins / 2 ^ bits % 2 ^ 6]) bits :=
      inv.groups.emit (show 6 ≤ bits + 6 by omega)
    obtain ⟨c, hc, hsextet⟩ := sextet_at z
    rw [hfront] at hsextet
    have hbits' : bits ≤ 32 := Nat.le_trans (Nat.le_add_right bits 6) hbits
    obtain ⟨t', ds', hloop, hrest⟩ := ih c ⟨hemit, inv.register⟩ (rel_append hds (.cons hsextet .nil)) hbits'
    refine ⟨t', ds', ?_, hrest⟩
    rw [hz]
    simp only [bind, Except.bind, hc]
    exact hloop
  | case2 bits out hsmall =>
    exact ⟨_, ds, rfl, inv, hds, by
      show bits < 6
      by_contra hle
      exact hsmall (bits - 6) (by omega)⟩

/-- **The loop of `encode_base64`.** -/
theorem encodeLoop_spec {t : BitState} (input : List UInt8) (inv : BitInv 8 6 ins ds t)
    (hds : List.Forall₂ IsSextet t.out ds) (hbits : t.bits < 6) :
    ∃ t' ds', encodeLoop input t = .ok t' ∧ BitInv 8 6 (ins ++ input.map UInt8.toNat) ds' t' ∧
      List.Forall₂ IsSextet t'.out ds' ∧ t'.bits < 6 := by
  induction input generalizing t ins ds with
  | nil => exact ⟨t, ds, rfl, by rwa [map_nil, List.append_nil], hds, hbits⟩
  | cons b input ih =>
    have hb : b.toUInt32.toNat < 2 ^ 8 := by
      rw [UInt8.toNat_toUInt32]
      exact b.toNat_lt
    obtain ⟨y, hy, hyv⟩ := shiftLeft_of_lt (x := t.accumulator) (k := 8) (by decide)
    have habsorb := inv.absorb (by decide) hyv hb t.out
    obtain ⟨t', ds', hemit, inv', hds', hbits'⟩ := emitDigits_spec habsorb hds (by omega)
    obtain ⟨t'', ds'', hloop, inv'', hrest⟩ := ih inv' hds' hbits'
    refine ⟨t'', ds'', ?_, ?_, hrest⟩
    · unfold encodeLoop
      rw [hy]
      simp only [bind, Except.bind, hemit]
      exact hloop
    · rwa [append_assoc, UInt8.toNat_toUInt32, singleton_append] at inv''

/-- **`encode_base64`**: as many characters as the bits need, into a buffer with room for them. -/
theorem encodeBase64_spec (input : List UInt8) (capacity : Nat) (h : (8 * input.length + 5) / 6 < capacity) :
    ∃ chars ds, encodeBase64 input capacity = .ok chars ∧ List.Forall₂ IsSextet chars ds ∧ Encodes ds input ∧
      ds.length = (8 * input.length + 5) / 6 := by
  obtain ⟨t, ds, hloop, inv, hds, hbits⟩ := encodeLoop_spec (t := ⟨0, 0, []⟩) input ⟨regrouped_nil 8 6, rfl⟩
    List.Forall₂.nil (by decide)
  rw [nil_append] at inv
  have hcount := inv.groups.count
  have hvalue := inv.groups.value
  rw [length_map] at hcount
  suffices hlast : ∃ chars ds', lastDigit t = .ok chars ∧ List.Forall₂ IsSextet chars ds' ∧ Encodes ds' input ∧
      ds'.length = (8 * input.length + 5) / 6 by
    obtain ⟨chars, ds', hlast, hds', henc, hlength⟩ := hlast
    refine ⟨chars, ds', ?_, hds', henc, hlength⟩
    have hroom : chars.length < capacity := by
      rw [hds'.length_eq, hlength]
      exact h
    unfold encodeBase64
    rw [hloop]
    simp only [bind, Except.bind, hlast, hroom, if_true]
  unfold lastDigit
  by_cases hleft : t.bits = 0
  · -- every bit is written
    refine ⟨t.out, ds, if_neg (not_not.mpr hleft), hds, ?_, by omega⟩
    unfold Encodes
    rw [show 6 * ds.length - 8 * input.length = 0 by omega, Nat.pow_zero, Nat.mul_one]
    rw [hleft, Nat.pow_zero, Nat.div_one] at hvalue
    exact hvalue
  · obtain ⟨y, hy, hyv⟩ := shiftLeft_of_lt (x := t.accumulator) (k := 6 - t.bits) (by omega)
    obtain ⟨c, hc, hsextet⟩ := sextet_at y
    have hlow : y.toNat % 2 ^ 6 = positional (2 ^ 8) (input.map UInt8.toNat) * 2 ^ (6 - t.bits) % 2 ^ 6 := by
      rw [hyv, inv.register, Nat.mod_mul_mod, Nat.mod_mod_of_dvd _ (Nat.pow_dvd_pow 2 (by decide : 6 ≤ 32))]
    have hpad := inv.groups.pad hbits.le
    rw [hlow] at hsextet
    refine ⟨t.out ++ [c], _, ?_, rel_append hds (.cons hsextet .nil), ?_, ?_⟩
    · rw [if_pos hleft, hy]
      simp only [bind, Except.bind, hc]
    · unfold Encodes
      rw [length_append, length_singleton,
        show 6 * (ds.length + 1) - 8 * input.length = 6 - t.bits by omega]
      exact hpad
    · rw [length_append, length_singleton]
      omega

end Encoding

theorem encodes_inj {ds : List Nat} {bytes bytes' : List UInt8} (hlength : bytes.length = bytes'.length)
    (h : Encodes ds bytes) (h' : Encodes ds bytes') : bytes = bytes' := by
  unfold Encodes at h h'
  rw [h, hlength] at h'
  have hlt : ∀ l : List UInt8, ∀ d ∈ l.map UInt8.toNat, d < 256 := by
    intro l d hd
    obtain ⟨b, -, rfl⟩ := mem_map.mp hd
    exact b.toNat_lt
  refine map_injective_iff.mpr (fun _ _ => UInt8.toNat_inj.mp) ?_
  exact positional_inj (by decide) (by simpa using hlength) (hlt _) (hlt _)
    (Nat.eq_of_mul_eq_mul_right (Nat.two_pow_pos _) h')

/-- **Characters are decoded iff they are what the bytes are encoded to**, and to decode them is safe. -/
theorem decode_iff {s rest chars : List UInt8} {cursor : Nat} (bytes capacity : Nat) (h : At s cursor (chars ++ rest))
    (hbytes : bytes = 6 * chars.length / 8) (hchars : chars.length = (8 * bytes + 5) / 6)
    (hcapacity : chars.length < capacity) :
    decode s cursor chars.length bytes ≠ .error .fault ∧
      ∀ v, decode s cursor chars.length bytes = .ok v ↔ encodeBase64 v.toList capacity = .ok chars := by
  have hspec := decode_spec h hbytes
  refine ⟨?_, fun v => ?_⟩
  · rcases hspec with ⟨_, _, -, hok, -⟩ | ⟨hrefused, -⟩
    · rw [hok]
      exact fun h => by cases h
    · rw [hrefused]
      exact fun h => by cases h
  obtain ⟨chars', ds', hencode, hds', henc', hlength'⟩ :=
    encodeBase64_spec v.toList capacity (by rw [Vector.length_toList, ← hchars]; exact hcapacity)
  rw [Vector.length_toList, ← hchars] at hlength'
  constructor
  · intro hok
    rcases hspec with ⟨ds, v', hds, hok', henc⟩ | ⟨hrefused, -⟩
    · rw [hok] at hok'
      obtain rfl := Except.ok.inj hok'
      have hlength : ds.length = ds'.length := by rw [hlength', hds.length_eq]
      unfold Encodes at henc henc'
      rw [← hlength, ← henc] at henc'
      have hsame := positional_inj (by decide) hlength (sextets_lt hds) (sextets_lt hds') henc'.symm
      subst hsame
      rw [hencode, (left_unique_forall₂' isSextet_leftUnique) hds hds']
    · rw [hok] at hrefused
      cases hrefused
  · intro hok
    rw [hencode] at hok
    obtain rfl := Except.ok.inj hok
    rcases hspec with ⟨ds, v', hds, hok', henc⟩ | ⟨-, hnone⟩
    · have hsame : ds = ds' := (right_unique_forall₂' isSextet_rightUnique) hds hds'
      subst hsame
      have hv : v'.toList = v.toList := encodes_inj (by simp) henc henc'
      rw [hok', Vector.toList_inj.mp hv]
    · exact absurd henc' (hnone ds' v hds')

/-! ## 7. Records -/

theorem passwordEncode_spec (memory iterations : UInt32) (salt : Vector UInt8 16) (tag : Vector UInt8 32) :
    ∃ saltText tagText, encodeBase64 salt.toList 23 = .ok saltText ∧ encodeBase64 tag.toList 44 = .ok tagText ∧
      saltText.length = 22 ∧ tagText.length = 43 ∧
      passwordEncode memory iterations salt tag = some (.ok (phcFormat memory iterations saltText tagText)) := by
  obtain ⟨saltText, ds, hsalt, hds, -, hlength⟩ :=
    encodeBase64_spec salt.toList 23 (by rw [Vector.length_toList]; decide)
  obtain ⟨tagText, ds', htag, hds', -, hlength'⟩ :=
    encodeBase64_spec tag.toList 44 (by rw [Vector.length_toList]; decide)
  rw [Vector.length_toList, ← hds.length_eq] at hlength
  rw [Vector.length_toList, ← hds'.length_eq] at hlength'
  have hshort : ∀ n : UInt32, (numeral n.toNat).length ≤ 10 := by
    intro n
    have hlt := n.toNat_lt
    unfold numeral
    split
    · decide
    · rw [length_map, length_reverse]
      exact (Nat.digits_length_le_iff (by decide) _).mpr (by omega)
  have hroom : (phcFormat memory iterations saltText tagText).length < 128 := by
    have hmemory := hshort memory
    have hiterations := hshort iterations
    unfold phcFormat
    simp only [length_append]
    have h17 : (phcText "$argon2id$v=19$m=").length = 17 := by decide
    have h3 : (phcText ",t=").length = 3 := by decide
    have h5 : (phcText ",p=1$").length = 5 := by decide
    have h1 : (phcText "$").length = 1 := by decide
    omega
  refine ⟨saltText, tagText, hsalt, htag, hlength, hlength', ?_⟩
  unfold passwordEncode
  rw [hsalt, htag]
  exact if_neg (Nat.not_le.mpr hroom)

section Fields

variable {s rest : List UInt8} {cursor : Nat}

theorem literal_cases (word : List UInt8) (h : At s cursor rest) :
    literal s cursor word = .error .refused ∨
      ∃ rest', rest = word ++ rest' ∧ literal s cursor word = .ok (cursor + word.length) ∧
        At s (cursor + word.length) rest' := by
  rw [literal_at word h]
  split
  · rename_i hprefix
    obtain ⟨rest', rfl⟩ := hprefix
    exact .inr ⟨rest', rfl, rfl, h.skip word⟩
  · exact .inl rfl

theorem literal_append {word : List UInt8} (h : At s cursor (word ++ rest)) :
    literal s cursor word = .ok (cursor + word.length) := by
  rw [literal_at word h, if_pos (prefix_append ..)]

theorem decimal_cases (h : At s cursor rest) : decimal s cursor = .error .refused ∨
      ∃ n : UInt32, ∃ rest', rest = numeral n.toNat ++ rest' ∧
        decimal s cursor = .ok (cursor + (numeral n.toNat).length, n) ∧
        At s (cursor + (numeral n.toNat).length) rest' := by
  rw [decimal_at h]
  split
  · rename_i hok
    obtain ⟨hfits, hnumeral⟩ := hok
    have hdigits := numeral_iff.mp ⟨hnumeral, rfl⟩
    have hn : (UInt32.ofNat (decimalFrom 0 (rest.takeWhile isDigit))).toNat =
        decimalFrom 0 (rest.takeWhile isDigit) := UInt32.toNat_ofNat_of_lt' hfits
    have hsplit : rest = numeral (decimalFrom 0 (rest.takeWhile isDigit)) ++ rest.dropWhile isDigit := by
      rw [← hdigits, takeWhile_append_dropWhile]
    refine .inr ⟨UInt32.ofNat (decimalFrom 0 (rest.takeWhile isDigit)), rest.dropWhile isDigit, ?_, ?_, ?_⟩
    · rw [hn]
      exact hsplit
    · rw [hn, ← hdigits]
    · rw [hn]
      rw [hsplit] at h
      exact h.skip _
  · exact .inl rfl

theorem decimal_append {n : UInt32} {b : UInt8} (hb : isDigit b = false)
    (h : At s cursor (numeral n.toNat ++ b :: rest)) :
    decimal s cursor = .ok (cursor + (numeral n.toNat).length, n) := by
  have hdigits : (numeral n.toNat ++ b :: rest).takeWhile isDigit = numeral n.toNat := by
    rw [takeWhile_append_of_pos (all_eq_true.mp (isNumeral_numeral n.toNat).digits),
      takeWhile_cons_of_neg (by simp [hb]), List.append_nil]
  rw [decimal_at h, hdigits, decimalFrom_numeral, if_pos ⟨n.toNat_lt, isNumeral_numeral _⟩, UInt32.ofNat_toNat]

theorem decode_cases {chars : List UInt8} (bytes capacity : Nat) (h : At s cursor (chars ++ rest))
    (hbytes : bytes = 6 * chars.length / 8) (hchars : chars.length = (8 * bytes + 5) / 6)
    (hcapacity : chars.length < capacity) :
    decode s cursor chars.length bytes = .error .refused ∨
      ∃ v, decode s cursor chars.length bytes = .ok v ∧ encodeBase64 v.toList capacity = .ok chars := by
  obtain ⟨hsafe, hiff⟩ := decode_iff bytes capacity h hbytes hchars hcapacity
  cases hresult : decode s cursor chars.length bytes with
  | ok v => exact .inr ⟨v, rfl, (hiff v).mp hresult⟩
  | error e =>
    cases e with
    | fault => exact absurd hresult hsafe
    | refused => exact .inl rfl

/-- **What is accepted is what is written**, and no step is at fault. -/
theorem parseFields_sound (s : List UInt8) : parseFields s = .error .refused ∨
      ∃ f, parseFields s = .ok f ∧ passwordEncode f.memory f.iterations f.salt f.tag = some (.ok s) := by
  unfold parseFields
  rcases literal_cases (phcText "$argon2id$v=19$m=") (at_zero s) with href | ⟨rest1, hs, hword1, hat1⟩
  · left; rw [href]; rfl
  rw [hword1]
  rcases decimal_cases hat1 with href | ⟨memory, rest2, hrest1, hmemory, hat2⟩
  · left; simp only [bind, Except.bind, href]
  simp only [bind, Except.bind, hmemory]
  rcases literal_cases (phcText ",t=") hat2 with href | ⟨rest3, hrest2, hword2, hat3⟩
  · left; simp only [href]
  simp only [hword2]
  rcases decimal_cases hat3 with href | ⟨iterations, rest4, hrest3, hiterations, hat4⟩
  · left; simp only [href]
  simp only [hiterations]
  rcases literal_cases (phcText ",p=1$") hat4 with href | ⟨rest5, hrest4, hword3, hat5⟩
  · left; simp only [href]
  simp only [hword3, hat5.remaining]
  by_cases hlength : rest5.length ≠ 66
  · left; rw [if_pos hlength]
  rw [if_neg hlength]
  rw [not_not] at hlength
  -- the salt, the separator and the tag
  obtain ⟨saltText, b, tagText, hrest5, hsaltLength, htagLength⟩ :
      ∃ saltText b tagText, rest5 = saltText ++ b :: tagText ∧ saltText.length = 22 ∧ tagText.length = 43 := by
    have hlt : 22 < rest5.length := by omega
    refine ⟨rest5.take 22, rest5[22], rest5.drop 23, ?_, by simp; omega, by simp; omega⟩
    rw [getElem_cons_drop, take_append_drop]
  rw [hrest5] at hat5
  have hat6 := hat5.skip saltText
  rw [hsaltLength] at hat6
  simp only [hat6.read]
  by_cases hb : b ≠ 0x24
  · left; rw [if_pos hb]
  rw [if_neg hb]
  rw [not_not] at hb
  have hsalt := decode_cases 16 23 hat5 (by rw [hsaltLength]) (by rw [hsaltLength])
    (by rw [hsaltLength]; decide)
  have hat7 := hat6.next
  rw [← List.append_nil tagText] at hat7
  have htag := decode_cases 32 44 hat7 (by rw [htagLength]) (by rw [htagLength])
    (by rw [htagLength]; decide)
  rw [hsaltLength] at hsalt
  rw [htagLength] at htag
  rcases hsalt with href | ⟨salt, hsalt, hsaltText⟩
  · left; simp only [href]
  rcases htag with href | ⟨tag, htag, htagText⟩
  · left; simp only [hsalt, href]
  right
  refine ⟨⟨memory, iterations, salt, tag⟩, by simp only [hsalt, htag], ?_⟩
  obtain ⟨saltText', tagText', hsaltText', htagText', -, -, hencode⟩ := passwordEncode_spec memory iterations salt tag
  rw [hsaltText] at hsaltText'
  rw [htagText] at htagText'
  obtain rfl := Except.ok.inj hsaltText'
  obtain rfl := Except.ok.inj htagText'
  rw [hencode, hs, hrest1, hrest2, hrest3, hrest4, hrest5, hb]
  simp only [phcFormat, append_assoc]
  rfl

theorem parseFields_complete {f : PhcFields}
    (h : passwordEncode f.memory f.iterations f.salt f.tag = some (.ok s)) : parseFields s = .ok f := by
  obtain ⟨saltText, tagText, hsalt, htag, hsaltLength, htagLength, hencode⟩ :=
    passwordEncode_spec f.memory f.iterations f.salt f.tag
  rw [hencode] at h
  have hs := Except.ok.inj (Option.some.inj h)
  have hat := at_zero s
  nth_rewrite 2 [← hs] at hat
  simp only [phcFormat, append_assoc] at hat
  have hat1 := hat.skip (phcText "$argon2id$v=19$m=")
  have hat2 := hat1.skip (numeral f.memory.toNat)
  have hat3 := hat2.skip (phcText ",t=")
  have hat4 := hat3.skip (numeral f.iterations.toNat)
  have hat5 := hat4.skip (phcText ",p=1$")
  have hat6 := hat5.skip saltText
  rw [hsaltLength, show phcText "$" ++ tagText = 0x24 :: tagText from rfl] at hat6
  have hat7 := hat6.next
  rw [← List.append_nil tagText] at hat7
  have hdecodeSalt := (decode_iff 16 23 hat5 (by rw [hsaltLength]) (by rw [hsaltLength])
    (by rw [hsaltLength]; decide)).2 f.salt |>.mpr hsalt
  have hdecodeTag := (decode_iff 32 44 hat7 (by rw [htagLength]) (by rw [htagLength])
    (by rw [htagLength]; decide)).2 f.tag |>.mpr htag
  rw [hsaltLength] at hdecodeSalt
  rw [htagLength] at hdecodeTag
  have hseparator := hat6.read
  have hlength : (saltText ++ (phcText "$" ++ tagText)).length = 66 := by
    simp only [length_append, hsaltLength, htagLength]
    decide
  have hdecimal1 := decimal_append (b := 0x2C) (by decide) hat1
  have hdecimal2 := decimal_append (b := 0x2C) (by decide) hat3
  unfold parseFields
  simp only [bind, Except.bind, literal_append hat, hdecimal1, literal_append hat2, hdecimal2, literal_append hat4,
    hat5.remaining, hlength, hseparator, hdecodeSalt, hdecodeTag, ne_eq, not_true_eq_false, if_false]

end Fields

/-! ## 8. The parser -/

/-- The ranges of the costs that a policy lets pass. -/
def PasswordPolicy.admits (policy : PasswordPolicy) (memory iterations : UInt32) : Prop :=
  8 ≤ memory ∧ memory ≤ policy.maxVerifyMemoryKib ∧ 1 ≤ iterations ∧ iterations ≤ policy.maxVerifyIterations

theorem parse_of_encode (policy : PasswordPolicy) {s : List UInt8} {memory iterations : UInt32}
    {salt : Vector UInt8 16} {tag : Vector UInt8 32} (h : passwordEncode memory iterations salt tag = some (.ok s)) :
    (policy.admits memory iterations →
      policy.parse s = some (.ok ⟨⟨19, memory, iterations, 1, s.length⟩, salt, tag⟩)) ∧
    (¬policy.admits memory iterations → policy.parse s = some (.error .range)) := by
  have hfields := parseFields_complete (f := ⟨memory, iterations, salt, tag⟩) h
  have hiff : (memory < 8 ∨ memory > policy.maxVerifyMemoryKib ∨ iterations < 1 ∨
      iterations > policy.maxVerifyIterations) ↔ ¬policy.admits memory iterations := by
    simp only [PasswordPolicy.admits, not_and_or, UInt32.not_le, gt_iff_lt]
  unfold PasswordPolicy.parse
  rw [hfields]
  exact ⟨fun hin => if_neg fun hout => hiff.mp hout hin, fun hout => if_pos (hiff.mpr hout)⟩

theorem parse_cases (policy : PasswordPolicy) (s : List UInt8) : policy.parse s = some (.error .protocol) ∧
      (∀ memory iterations salt tag, passwordEncode memory iterations salt tag ≠ some (.ok s)) ∨
    ∃ memory iterations salt tag, passwordEncode memory iterations salt tag = some (.ok s) ∧
      (policy.admits memory iterations ∧
          policy.parse s = some (.ok ⟨⟨19, memory, iterations, 1, s.length⟩, salt, tag⟩) ∨
        ¬policy.admits memory iterations ∧ policy.parse s = some (.error .range)) := by
  rcases parseFields_sound s with href | ⟨f, -, hencode⟩
  · refine .inl ⟨?_, fun memory iterations salt tag hencode => ?_⟩
    · unfold PasswordPolicy.parse
      rw [href]
    · rw [parseFields_complete (f := ⟨memory, iterations, salt, tag⟩) hencode] at href
      cases href
  · obtain ⟨hin, hout⟩ := parse_of_encode policy hencode
    refine .inr ⟨_, _, _, _, hencode, ?_⟩
    by_cases hadmits : policy.admits f.memory f.iterations
    · exact .inl ⟨hadmits, hin hadmits⟩
    · exact .inr ⟨hadmits, hout hadmits⟩

/-- **The results of the parser.** -/
theorem password_codec (policy : PasswordPolicy) (s : List UInt8) :
    -- accepted, with exactly these values
    (∀ r, policy.parse s = some (.ok r) ↔
      ∃ memory iterations salt tag, policy.admits memory iterations ∧
        passwordEncode memory iterations salt tag = some (.ok s) ∧
        r = ⟨⟨19, memory, iterations, 1, s.length⟩, salt, tag⟩) ∧
      -- to write the values again is the text, so that there is one text for a record
      (∀ r, policy.parse s = some (.ok r) →
        passwordEncode r.info.memoryKib r.info.iterations r.salt r.tag = some (.ok s) ∧
        ∀ s' r', policy.parse s' = some (.ok r') → r'.info.memoryKib = r.info.memoryKib →
          r'.info.iterations = r.info.iterations → r'.salt = r.salt → r'.tag = r.tag → s' = s) ∧
      -- the other results
      (policy.parse s = some (.error .range) ↔
        ∃ memory iterations salt tag, ¬policy.admits memory iterations ∧
          passwordEncode memory iterations salt tag = some (.ok s)) ∧
      (policy.parse s = some (.error .protocol) ↔
        ∀ memory iterations salt tag, passwordEncode memory iterations salt tag ≠ some (.ok s)) ∧
      -- no step is at fault, and these are all of the results
      (policy.parse s = some (.error .protocol) ∨ policy.parse s = some (.error .range) ∨
        ∃ r, policy.parse s = some (.ok r)) ∧
      ∀ memory iterations salt tag, ∃ text, passwordEncode memory iterations salt tag = some (.ok text) := by
  have haccept : ∀ s r, policy.parse s = some (.ok r) ↔
      ∃ memory iterations salt tag, policy.admits memory iterations ∧
        passwordEncode memory iterations salt tag = some (.ok s) ∧
        r = ⟨⟨19, memory, iterations, 1, s.length⟩, salt, tag⟩ := by
    intro s r
    constructor
    · intro hparse
      rcases parse_cases policy s with ⟨e, -⟩ | ⟨_, _, _, _, hencode, ⟨hin, e⟩ | ⟨-, e⟩⟩
      · cases e.symm.trans hparse
      · cases e.symm.trans hparse
        exact ⟨_, _, _, _, hin, hencode, rfl⟩
      · cases e.symm.trans hparse
    · rintro ⟨memory, iterations, salt, tag, hadmits, hencode, rfl⟩
      exact (parse_of_encode policy hencode).1 hadmits
  have hwrites : ∀ memory iterations salt tag, ∃ text, passwordEncode memory iterations salt tag = some (.ok text) :=
    fun memory iterations salt tag => by
      obtain ⟨_, _, -, -, -, -, hencode⟩ := passwordEncode_spec memory iterations salt tag
      exact ⟨_, hencode⟩
  refine ⟨haccept s, fun r hr => ?_, and_assoc.mp (and_assoc.mp ⟨?_, hwrites⟩)⟩
  · obtain ⟨memory, iterations, salt, tag, -, hencode, rfl⟩ := (haccept s r).mp hr
    refine ⟨hencode, fun s' r' hr' hmemory hiterations hsalt htag => ?_⟩
    obtain ⟨memory', iterations', salt', tag', -, hencode', rfl⟩ := (haccept s' r').mp hr'
    dsimp only at hmemory hiterations hsalt htag
    rw [hmemory, hiterations, hsalt, htag, hencode] at hencode'
    exact (Except.ok.inj (Option.some.inj hencode')).symm
  rcases parse_cases policy s with ⟨e, hnone⟩ | ⟨_, _, _, _, hencode, ⟨-, e⟩ | ⟨hout, e⟩⟩
  · rw [e]
    exact ⟨⟨⟨(by cases ·), fun ⟨_, _, _, _, _, hencode⟩ => (hnone _ _ _ _ hencode).elim⟩, fun _ => hnone, fun _ => rfl⟩,
      .inl rfl⟩
  · rw [e]
    exact ⟨⟨⟨(by cases ·), fun ⟨_, _, _, _, hnot, hencode⟩ => e.symm.trans ((parse_of_encode policy hencode).2 hnot)⟩,
      (by cases ·), fun hnone => (hnone _ _ _ _ hencode).elim⟩, .inr (.inr ⟨_, rfl⟩)⟩
  · rw [e]
    exact ⟨⟨⟨fun _ => ⟨_, _, _, _, hout, hencode⟩, fun _ => rfl⟩,
      (by cases ·), fun hnone => (hnone _ _ _ _ hencode).elim⟩, .inr (.inl rfl)⟩

end Vireo.Security
