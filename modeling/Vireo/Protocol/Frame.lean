/-
  File:      Vireo/Protocol/Frame.lean
  Subject:   ONE FRAME: the header in front, the checksum, and the fields behind.
-/
import Vireo.Protocol.Codec
import Vireo.Protocol.TlvSchema
import Mathlib.Data.List.Perm.Basic

namespace Vireo.Protocol

open Lib List

/-! ## 1. The bytes of a frame -/

theorem writeU32Be_read {s : Bytes} (h : 4 ≤ s.length) : writeU32Be (readU32Be s) = s.take 4 := by
  match s, h with
  | a :: b :: c :: d :: t, _ =>
    simp only [readU32Be, writeU32Be, getD_cons_zero, getD_cons_succ, take_succ_cons,
      List.take_zero, List.cons.injEq, and_true]
    refine ⟨?_, ?_, ?_, ?_⟩ <;> apply UInt8.toBitVec_inj.mp <;> ext i hi
    · simp
      grind
    · simp
      grind
    · simp
      grind
    · simp

theorem writeU64Be_read {s : Bytes} (h : 8 ≤ s.length) : writeU64Be (readU64Be s) = s.take 8 := by
  match s, h with
  | a :: b :: c :: d :: e :: f :: g :: h :: t, _ =>
    simp only [readU64Be, writeU64Be, getD_cons_zero, getD_cons_succ, take_succ_cons,
      List.take_zero, List.cons.injEq, and_true]
    refine ⟨?_, ?_, ?_, ?_, ?_, ?_, ?_, ?_⟩ <;> apply UInt8.toBitVec_inj.mp <;> ext i hi
    · simp
      grind
    · simp
      grind
    · simp
      grind
    · simp
      grind
    · simp
      grind
    · simp
      grind
    · simp
      grind
    · simp

variable {header : Header}

/-- **A header that is decoded is in front of the frame**, every byte of it. -/
theorem take_of_headerDecode {wire : Bytes} (h : headerDecode wire = .ok header) :
    wire.take headerSize = header.encoded := by
  unfold headerDecode at h
  split at h
  · cases h
  rename_i hsize
  split at h
  · cases h
  rename_i hmagic
  split at h
  · cases h
  rename_i hversion
  split at h
  · cases h
  rename_i hlength
  dsimp only at h
  split at h
  · cases h
  cases h
  have hlen : 32 ≤ wire.length := Nat.not_lt.mp hsize
  have hfour : ∀ n, n + 4 ≤ 32 → wire.take (n + 4) = wire.take n ++ writeU32Be (readU32Be (wire.drop n)) := by
    intro n hn
    rw [writeU32Be_read (by rw [length_drop]; omega), take_add]
  have htwo : ∀ n, n + 2 ≤ 32 → wire.take (n + 2) = wire.take n ++ writeU16Be (readU16Be (wire.drop n)) := by
    intro n hn
    rw [writeU16Be_read (by rw [length_drop]; omega), take_add]
  have hone : ∀ n, n + 1 ≤ 32 → wire.take (n + 1) = wire.take n ++ [wire.getD n 0] := by
    intro n hn
    rw [take_add, getD_eq_getElem?_getD, List.getElem?_eq_getElem (by omega), drop_eq_getElem_cons (by omega)]
    rfl
  show wire.take (28 + 4) = _
  rw [hfour 28 (by omega), hfour 24 (by omega), hfour 20 (by omega), hfour 16 (by omega),
    hfour 12 (by omega), htwo 10 (by omega), htwo 8 (by omega), htwo 6 (by omega), hone 5 (by omega),
    hone 4 (by omega), ← writeU32Be_read (by omega), not_not.mp hmagic]
  have hv : wire.getD 4 0 = protocolVersion := not_not.mp hversion
  have hl : wire.getD 5 0 = UInt8.ofNat headerSize := not_not.mp hlength
  rw [hv, hl]
  rfl

/-- A frame: the header with its checksum, and the body. -/
def sealedFrame (header : Header) (body : Bytes) : Bytes := (header.sealedWith body).encoded ++ body

/-- **A frame that is decoded and verifies is a sealed frame**: no byte of it is anything else. -/
theorem eq_sealedFrame {wire : Bytes} (hdecode : headerDecode wire = .ok header)
    (hcrc : (frameCrc32cVerify (wire.take headerSize) (wire.drop headerSize)).1 = .ok) :
    wire = sealedFrame header (wire.drop headerSize) ∧ header.sealedWith (wire.drop headerSize) = header := by
  have htake := take_of_headerDecode hdecode
  rw [htake, frameCrc32cVerify_ok, frameCrc32cCalculate_ok, Header.drop_encoded, readU32Be_write'] at hcrc
  have hsealed : header.sealedWith (wire.drop headerSize) = header := by
    have hcovered : coveredBytes header.encoded (wire.drop headerSize) =
        header.covered ++ wire.drop headerSize := rfl
    unfold Header.sealedWith
    rw [← hcovered, ← hcrc.2]
  refine ⟨?_, hsealed⟩
  unfold sealedFrame
  rw [hsealed, ← htake, take_append_drop]

theorem length_sealedFrame (header : Header) (body : Bytes) :
    (sealedFrame header body).length = headerSize + body.length := by
  rw [sealedFrame, length_append, Header.length_encoded]

theorem take_sealedFrame (header : Header) (body : Bytes) :
    (sealedFrame header body).take headerSize = (header.sealedWith body).encoded := rfl

theorem drop_sealedFrame (header : Header) (body : Bytes) :
    (sealedFrame header body).drop headerSize = body := rfl

/-! ## 2. The envelope -/

section Envelope

variable {ι : Type} (bad envelope crc : ι) (validate : Header → Except (Result × CodecIssue) Unit)
  (refused : Header → Nat → Prop) [∀ header n, Decidable (refused header n)]

/-- What the decoders start with: the header, what the command refuses, the checksum; `bad`, `envelope` and
    `crc` are the issues. -/
def frameEnvelope (wire : Bytes) : Except ι Header :=
  match headerDecode wire with
  | .error _ => .error bad
  | .ok header =>
    match validate header with
    | .error _ => .error bad
    | .ok _ =>
      if refused header wire.length then .error envelope
      else if (frameCrc32cVerify (wire.take headerSize)
          ((wire.drop headerSize).take header.bodyLen.toNat)).1 ≠ .ok then .error crc
      else .ok header

/-- A check that does not look at the checksum, and that asks for the size that the header tells. -/
structure Checks : Prop where
  validate_crc : ∀ header c, validate { header with crc32c := c } = validate header
  refused_crc : ∀ header c n, refused { header with crc32c := c } n ↔ refused header n
  size : ∀ header n, ¬ refused header n → n = headerSize + header.bodyLen.toNat

variable {validate refused}

/-- **The envelope of a sealed frame** depends on its header and on the size of its body. -/
theorem frameEnvelope_sealed (hchecks : Checks validate refused) (header : Header) (body : Bytes) :
    frameEnvelope bad envelope crc validate refused (sealedFrame header body) =
      if header.bodyLen.toNat > maxBodySize then .error bad
      else
        match validate header with
        | .error _ => .error bad
        | .ok _ =>
          if refused header (headerSize + body.length) then .error envelope
          else .ok (header.sealedWith body) := by
  have hsame : validate (header.sealedWith body) = validate header := hchecks.validate_crc header _
  have hlen : (header.sealedWith body).bodyLen.toNat = header.bodyLen.toNat := rfl
  have hdecode : headerDecode (sealedFrame header body) =
      if header.bodyLen.toNat > maxBodySize then .error (.protocol, .bodyTooLarge)
      else .ok (header.sealedWith body) := headerDecode_encoded (header.sealedWith body) body
  unfold frameEnvelope
  rw [hdecode, length_sealedFrame, take_sealedFrame, drop_sealedFrame]
  by_cases hlarge : header.bodyLen.toNat > maxBodySize
  · rw [if_pos hlarge, if_pos hlarge]
  rw [if_neg hlarge, if_neg hlarge]
  dsimp only
  rw [hsame]
  cases validate header with
  | error e => rfl
  | ok u =>
    dsimp only
    have hrefused : refused (header.sealedWith body) (headerSize + body.length) ↔
        refused header (headerSize + body.length) := hchecks.refused_crc header _ _
    by_cases hbad : refused header (headerSize + body.length)
    · rw [if_pos (hrefused.mpr hbad), if_pos hbad]
    rw [if_neg (fun h => hbad (hrefused.mp h)), if_neg hbad]
    have hsize := hchecks.size header _ hbad
    have hequal : header.bodyLen.toNat = body.length := by omega
    rw [hlen, hequal, take_length, frameCrc32cVerify_sealed hequal (by omega), if_neg (by decide)]

/-- **What passes the envelope is a sealed frame** with a header that is not refused. -/
theorem frameEnvelope_ok (hchecks : Checks validate refused) {wire : Bytes} {header : Header}
    (h : frameEnvelope bad envelope crc validate refused wire = .ok header) :
    wire = sealedFrame header (wire.drop headerSize) ∧ header.sealedWith (wire.drop headerSize) = header ∧
      validate header = .ok () ∧ ¬ refused header (headerSize + (wire.drop headerSize).length) ∧
      (wire.drop headerSize).take header.bodyLen.toNat = wire.drop headerSize := by
  unfold frameEnvelope at h
  split at h
  · cases h
  rename_i header' hdecode
  split at h
  · cases h
  rename_i u hvalid
  split at h
  · cases h
  rename_i hbad
  split at h
  · cases h
  rename_i hcrc
  cases h
  have hlong := (headerDecode_ok hdecode).1
  have hdrop : headerSize + (wire.drop headerSize).length = wire.length := by
    rw [length_drop]
    omega
  have hsize := hchecks.size header _ hbad
  have hall : (wire.drop headerSize).take header.bodyLen.toNat = wire.drop headerSize :=
    take_of_length_le (by omega)
  rw [hall] at hcrc
  obtain ⟨hwire, hsealed⟩ := eq_sealedFrame hdecode (not_not.mp hcrc)
  exact ⟨hwire, hsealed, hvalid, hdrop ▸ hbad, hall⟩

end Envelope

section

variable (hknown : commandIsKnown header.command = true)
include hknown

theorem headerValidate_iff (hreserved : commandIsReserved header.command = false)
    (hflags : flagsHaveUnknownBits header.flags = false) (hbody : header.bodyLen.toNat ≤ maxBodySize) :
    headerValidate header = if header.sequence = 0 then .error (.protocol, .invalidSequence) else .ok () := by
  unfold headerValidate
  rw [if_neg (by omega), hflags, if_neg (by decide), hreserved, if_neg (by decide), hknown, if_neg (by decide)]
  rfl

/-- **A request without flags** is in order when it has a sequence number and no status. -/
theorem requestHeaderValidate_iff (hreserved : commandIsReserved header.command = false)
    (hflags : header.flags = 0) (hbody : header.bodyLen.toNat ≤ maxBodySize) :
    requestHeaderValidate header = .ok () ↔ header.sequence ≠ 0 ∧ header.status = 0 := by
  have hunknown : flagsHaveUnknownBits header.flags = false := by
    rw [hflags]
    decide
  have hresponse : header.flags &&& flagResponse = 0 := by
    rw [hflags]
    decide
  have hmore : header.flags &&& flagMore = 0 := by
    rw [hflags]
    decide
  unfold requestHeaderValidate
  rw [headerValidate_iff hknown hreserved hunknown hbody]
  by_cases hsequence : header.sequence = 0
  · rw [if_pos hsequence]
    exact ⟨fun h => (by cases h), fun h => absurd hsequence h.1⟩
  · rw [if_neg hsequence]
    show (if header.flags &&& flagResponse ≠ 0 then _ else _) = _ ↔ _
    rw [if_neg (not_not.mpr hresponse), if_neg (not_not.mpr hmore)]
    by_cases hstatus : header.status = requestStatus
    · rw [if_neg (not_not.mpr hstatus)]
      exact ⟨fun _ => ⟨hsequence, hstatus⟩, fun _ => rfl⟩
    · rw [if_pos hstatus]
      exact ⟨fun h => (by cases h), fun h => absurd h.2 hstatus⟩

/-- **A response without other flags** is in order when it has a sequence number and a known status. -/
theorem responseHeaderValidate_iff (hreserved : commandIsReserved header.command = false)
    (hflags : header.flags = flagResponse) (hbody : header.bodyLen.toNat ≤ maxBodySize) :
    responseHeaderValidate header = .ok () ↔ header.sequence ≠ 0 ∧ statusIsKnown header.status = true := by
  have hunknown : flagsHaveUnknownBits header.flags = false := by
    rw [hflags]
    decide
  have hresponse : header.flags &&& flagResponse ≠ 0 := by
    rw [hflags]
    decide
  unfold responseHeaderValidate
  rw [headerValidate_iff hknown hreserved hunknown hbody]
  by_cases hsequence : header.sequence = 0
  · rw [if_pos hsequence]
    exact ⟨fun h => (by cases h), fun h => absurd hsequence h.1⟩
  · rw [if_neg hsequence]
    show (if header.flags &&& flagResponse = 0 then _ else _) = _ ↔ _
    rw [if_neg hresponse]
    cases hstatus : statusIsKnown header.status with
    | true => exact ⟨fun _ => ⟨hsequence, rfl⟩, fun _ => rfl⟩
    | false => exact ⟨fun h => (by cases h), fun h => (by cases h.2)⟩

end

/-! ## 3. Rules and fields -/

theorem schemaValidate_take (data : Option Bytes) (size : Nat) (rules : List TlvRule) (n : Nat)
    (policy : TlvUnknownPolicy) (seen : Option Bytes) (seenCapacity : Nat) :
    schemaValidate data size (some rules) n policy seen seenCapacity =
      schemaValidate data size (some (rules.take n)) n policy seen seenCapacity := by
  have hvalid : rulesAreValid (some rules) n = rulesAreValid (some (rules.take n)) n := by
    unfold rulesAreValid
    rw [Option.getD_some, Option.getD_some, take_take, Nat.min_self]
    rfl
  unfold schemaValidate
  rw [hvalid, Option.getD_some, Option.getD_some, take_take, Nat.min_self]
  rfl

variable {rules : List TlvRule}

/-- **The first rules of a table are a schema of their own.** -/
theorem schema_prefix_iff {body seen : Bytes} {n : Nat}
    (hv : ValidRules (rules.take n)) (hn : n ≤ rules.length) (hseen : n ≤ seen.length) :
    (schemaValidate (some body) body.length (some rules) n .reject (some seen) seen.length).result = .ok ↔
      ∃ fields, Accepted (rules.take n) .reject body fields := by
  have hcall : SchemaCall (some body) body.length (some (rules.take n)) n .reject (some seen) seen.length := by
    refine ⟨rfl, ?_, rfl, hv, by decide, hseen⟩
    show (rules.take n).length = n
    rw [length_take]
    omega
  rw [schemaValidate_take]
  exact schemaValidate_iff hcall

variable {fields : List TlvField}

/-- **Fields that each have a rule they fit are accepted** when their types are as often there as the
    rules say. -/
theorem accepted_of_ruled (hv : ValidRules rules)
    (hruled : ∀ f ∈ fields, ∃ rule ∈ rules, rule.type = f.type ∧ rule.Fits f.value)
    (honce : ∀ rule ∈ rules, rule.repeatable = false → (fields.map TlvField.type).count rule.type ≤ 1)
    (hpresent : ∀ rule ∈ rules, rule.required = true → rule.type ∈ fields.map TlvField.type) :
    Accepted rules .reject (tlvCoding.encodeAll fields) fields := by
  refine ⟨rfl, fun f hf rule hrule htype => ?_, fun rule hrule hrep => ?_, fun rule hrule hreq => ?_,
    .inr fun f hf => ?_⟩
  · obtain ⟨rule', hrule', htype', hfits⟩ := hruled f hf
    rw [hv.unique hrule hrule' (htype.trans htype'.symm)]
    exact hfits
  · have hcount := honce rule hrule hrep
    rw [List.count, countP_map] at hcount
    exact hcount
  · obtain ⟨f, hf, htype⟩ := mem_map.mp (hpresent rule hrule hreq)
    exact ⟨f, hf, htype⟩
  · obtain ⟨rule, hrule, htype, -⟩ := hruled f hf
    exact ⟨rule, hrule, htype⟩

theorem accepted_of_types (hv : ValidRules rules) (htypes : fields.map TlvField.type = rules.map TlvRule.type)
    (hruled : ∀ f ∈ fields, ∃ rule ∈ rules, rule.type = f.type ∧ rule.Fits f.value) :
    Accepted rules .reject (tlvCoding.encodeAll fields) fields := by
  have hnodup : (rules.map TlvRule.type).Nodup := pairwise_map.mpr hv.types
  refine accepted_of_ruled hv hruled (fun rule _ _ => ?_) fun rule hrule _ => ?_
  · rw [htypes]
    exact nodup_iff_count_le_one.mp hnodup _
  · rw [htypes]
    exact mem_map_of_mem hrule

theorem fits_u64 (type : UInt16) (required repeatable : Bool) (value : UInt64) :
    (⟨type, 8, 8, .u64, required, repeatable⟩ : TlvRule).Fits (writeU64Be value) :=
  ⟨⟨by simp, by simp, by simp [TlvValueKind.width]⟩, by simp [TlvValueKind.IsText], by simp⟩

theorem fits_u16 (type : UInt16) (required repeatable : Bool) (value : UInt16) :
    (⟨type, 2, 2, .u16, required, repeatable⟩ : TlvRule).Fits (writeU16Be value) :=
  ⟨⟨by simp, by simp, by simp [TlvValueKind.width]⟩, by simp [TlvValueKind.IsText], by simp⟩

theorem fits_bytes {type low high : UInt16} {required repeatable : Bool} {value : Bytes}
    (hlow : low.toNat ≤ value.length) (hhigh : value.length ≤ high.toNat) :
    (⟨type, low, high, .bytes, required, repeatable⟩ : TlvRule).Fits value :=
  ⟨⟨hlow, hhigh, by simp [TlvValueKind.width]⟩, by simp [TlvValueKind.IsText], by simp⟩

section Types

variable {rules : List TlvRule} {s : Bytes} {fields : List TlvField}

theorem Accepted.nodup (h : Accepted rules .reject s fields)
    (hstrict : ∀ rule ∈ rules, rule.repeatable = false) : (fields.map (·.type)).Nodup := by
  refine nodup_iff_count_le_one.mpr fun type => ?_
  by_cases hmem : type ∈ fields.map (·.type)
  · obtain ⟨f, hf, rfl⟩ := mem_map.mp hmem
    rcases h.known with hskip | hknown
    · cases hskip
    · obtain ⟨rule, hrule, htype⟩ := hknown f hf
      have hcount := h.once rule hrule (hstrict rule hrule)
      rw [List.count, countP_map, ← htype]
      exact hcount
  · rw [count_eq_zero_of_not_mem hmem]
    exact Nat.zero_le 1

/-- **The types that are accepted are those of the rules**, in some order, without those that may be
    left out and are. -/
theorem Accepted.types_perm (hv : ValidRules rules) (h : Accepted rules .reject s fields)
    (hstrict : ∀ rule ∈ rules, rule.repeatable = false) :
    (fields.map (·.type)).Perm ((rules.map (·.type)).filter fun t => t ∈ fields.map (·.type)) := by
  have hrules : (rules.map (·.type)).Nodup := pairwise_map.mpr hv.types
  refine (perm_ext_iff_of_nodup (h.nodup hstrict) (hrules.filter _)).mpr fun type => ?_
  rw [mem_filter, decide_eq_true_iff]
  refine ⟨fun hmem => ⟨?_, hmem⟩, fun hmem => hmem.2⟩
  obtain ⟨f, hf, rfl⟩ := mem_map.mp hmem
  rcases h.known with hskip | hknown
  · cases hskip
  · obtain ⟨rule, hrule, htype⟩ := hknown f hf
    exact htype ▸ mem_map_of_mem hrule

theorem Accepted.types_perm_all (hv : ValidRules rules) (h : Accepted rules .reject s fields)
    (hstrict : ∀ rule ∈ rules, rule.repeatable = false) (hall : ∀ rule ∈ rules, rule.required = true) :
    (fields.map (·.type)).Perm (rules.map (·.type)) := by
  have hperm := h.types_perm hv hstrict
  rwa [filter_eq_self.mpr fun type htype => ?_] at hperm
  obtain ⟨rule, hrule, rfl⟩ := mem_map.mp htype
  obtain ⟨f, hf, heq⟩ := h.present rule hrule (hall rule hrule)
  rw [decide_eq_true_iff, ← heq]
  exact mem_map_of_mem hf

theorem Accepted.perm {fields' : List TlvField} (h : Accepted rules .reject s fields)
    (hperm : fields.Perm fields') : Accepted rules .reject (tlvCoding.encodeAll fields') fields' := by
  refine ⟨rfl, fun f hf => h.fits f (hperm.mem_iff.mpr hf), fun rule hrule hrep => ?_, fun rule hrule hreq => ?_,
    .inr fun f hf => ?_⟩
  · rw [← hperm.countP_eq]
    exact h.once rule hrule hrep
  · obtain ⟨f, hf, htype⟩ := h.present rule hrule hreq
    exact ⟨f, hperm.mem_iff.mp hf, htype⟩
  · exact h.known.resolve_left (by decide) f (hperm.mem_iff.mpr hf)

end Types

theorem exists_perm_of_map_perm {α β : Type*} (key : α → β) {l : List α} {keys : List β}
    (h : (l.map key).Perm keys) : ∃ l', l.Perm l' ∧ l'.map key = keys := by
  have hforall : List.Forall₂ (fun b a => b = key a) (l.map key) l := by
    rw [forall₂_map_left_iff]
    exact forall₂_same.mpr fun a _ => rfl
  obtain ⟨l', hkeys, hperm⟩ := perm_comp_forall₂ h.symm hforall
  refine ⟨l', hperm.symm, ?_⟩
  clear hperm hforall h
  induction hkeys with
  | nil => rfl
  | cons heq _ ih => rw [map_cons, ih, heq]

/-- **A reader whose steps for different types commute does not care for the order of the fields.** -/
theorem foldlM_perm {σ ε : Type} {step : σ → TlvField → Except ε σ} {l l' : List TlvField} (hperm : l.Perm l')
    (hnodup : (l.map (·.type)).Nodup)
    (hcomm : ∀ x ∈ l, ∀ y ∈ l, x.type ≠ y.type → ∀ s,
      (step s x >>= fun s => step s y) = (step s y >>= fun s => step s x)) (s : σ) :
    l.foldlM step s = l'.foldlM step s := by
  rw [foldlM_eq_foldl, foldlM_eq_foldl]
  refine hperm.foldl_eq' (fun x hx y hy m => ?_) _
  by_cases htype : x.type = y.type
  · rw [inj_on_of_nodup_map hnodup hx hy htype]
  cases m with
  | error e => rfl
  | ok s => exact hcomm x hx y hy htype s

end Vireo.Protocol
