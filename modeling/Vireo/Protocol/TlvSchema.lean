/-
  File:      Vireo/Protocol/TlvSchema.lean
  Subject:   THE SCHEMA OF A FIELD STREAM (`src/protocol/tlv.c`): the rule table and its validator.
-/
import Vireo.Protocol.Tlv
import Vireo.Protocol.TlvText

namespace Vireo.Protocol

open Lib List

/-! ## 1. The rule table -/

/-- `vireo_tlv_value_kind_t`; a number outside of the enumeration is `undefined`. -/
inductive TlvValueKind where
  | bytes
  | u16
  | u32
  | u64
  | utf8
  | name
  | undefined
deriving DecidableEq, Inhabited

/-- `vireo_tlv_unknown_policy_t`; a number outside of the enumeration is `undefined`. -/
inductive TlvUnknownPolicy where
  | reject
  | skip
  | undefined
deriving DecidableEq, Inhabited

/-- `vireo_tlv_rule_t`. -/
structure TlvRule where
  type : UInt16
  minLength : UInt16
  maxLength : UInt16
  valueKind : TlvValueKind
  required : Bool
  repeatable : Bool
deriving DecidableEq, Inhabited

/-- The loop of `vireo_tlv_rules_are_valid`: `previous` are the rules before the current one. -/
def rulesAreValidFrom (previous : List TlvRule) : List TlvRule → Bool
  | [] => true
  | rule :: rules =>
    if rule.minLength > rule.maxLength then false
    else if rule.valueKind = .undefined then false
    else if previous.any (·.type = rule.type) then false
    else rulesAreValidFrom (previous ++ [rule]) rules

/-- `vireo_tlv_rules_are_valid`. -/
def rulesAreValid (rules : Option (List TlvRule)) (ruleCount : Nat) : Bool :=
  if ruleCount ≠ 0 ∧ rules.isNone then false
  else rulesAreValidFrom [] ((rules.getD []).take ruleCount)

/-- `vireo_tlv_find_rule_index`: the number of rules when there is none of the type. -/
def findRuleIndex (rules : List TlvRule) (type : UInt16) : Nat := rules.findIdx (·.type = type)

/-! ## 2. The validator -/

/-- `vireo_tlv_value_validate`. -/
def valueValidate (rule : TlvRule) (view : TlvView) : TlvIssue :=
  if view.length < rule.minLength.toNat ∨ view.length > rule.maxLength.toNat then .invalidLength
  else
    let value := view.value.getD []
    match rule.valueKind with
    | .bytes => .none
    | .u16 => if view.length ≠ 2 then .invalidLength else .none
    | .u32 => if view.length ≠ 4 then .invalidLength else .none
    | .u64 => if view.length ≠ 8 then .invalidLength else .none
    | .utf8 => if !utf8IsValid value then .invalidUtf8 else .none
    | .name =>
      if !utf8IsValid value then .invalidUtf8
      else if !nameIsValid value then .invalidName
      else .none
    | .undefined => .invalidLength

/-- The body of the field loop of `vireo_tlv_schema_validate`: the marks after a field that is
    accepted, the issue of one that is not. -/
def fieldValidate (rules : List TlvRule) (policy : TlvUnknownPolicy) (seen : Bytes) (view : TlvView) :
    Except TlvIssue Bytes :=
  let index := findRuleIndex rules view.type
  if index = rules.length then
    if policy = .reject then .error .unknownType else .ok seen
  else
    let rule := rules.getD index default
    if seen.getD index 0 ≠ 0 ∧ ¬ rule.repeatable then .error .duplicateField
    else if valueValidate rule view ≠ .none then .error (valueValidate rule view)
    else .ok (seen.set index 1)

/-- What `vireo_tlv_schema_validate` returns and leaves in the issue and in the marks. -/
structure SchemaReport where
  result : Result
  issue : TlvIssue
  seen : Bytes
deriving DecidableEq

/-- The field loop of `vireo_tlv_schema_validate`; a reader is at its end after as many steps as
    there are bytes. -/
def validateFields (rules : List TlvRule) (policy : TlvUnknownPolicy) :
    Nat → TlvReader → Bytes → SchemaReport
  | 0, _, seen => ⟨.ok, .none, seen⟩
  | k + 1, reader, seen =>
    let next := reader.next default
    if next.result = .notFound then ⟨.ok, next.issue, seen⟩
    else if next.result ≠ .ok then ⟨next.result, next.issue, seen⟩
    else
      match fieldValidate rules policy seen next.view with
      | .error issue => ⟨.protocol, issue, seen⟩
      | .ok seen => validateFields rules policy k next.reader seen

/-- The last loop of `vireo_tlv_schema_validate`, over the rules and their marks. -/
def validateRequired : List TlvRule → Bytes → Result × TlvIssue
  | rule :: rules, mark :: seen =>
    if rule.required ∧ mark = 0 then (.protocol, .missingRequiredField)
    else validateRequired rules seen
  | _, _ => (.ok, .none)

/-- `vireo_tlv_schema_validate`. -/
def schemaValidate (data : Option Bytes) (size : Nat) (rules : Option (List TlvRule)) (ruleCount : Nat)
    (policy : TlvUnknownPolicy) (seen : Option Bytes) (seenCapacity : Nat) : SchemaReport :=
  let region := seen.getD []
  if data.isNone ∧ size ≠ 0 then ⟨.invalidArgument, .none, region⟩
  else if ruleCount ≠ 0 ∧ (rules.isNone ∨ seen.isNone) then ⟨.invalidArgument, .none, region⟩
  else if policy ≠ .reject ∧ policy ≠ .skip then ⟨.invalidArgument, .none, region⟩
  else if seenCapacity < ruleCount then ⟨.range, .none, region⟩
  else if rulesAreValid rules ruleCount = false then ⟨.invalidArgument, .none, region⟩
  else
    let cleared := overwrite region 0 (List.replicate ruleCount 0)
    match TlvReader.init data size with
    | .error e => ⟨e, .none, cleared⟩
    | .ok reader =>
      let table := (rules.getD []).take ruleCount
      let fields := validateFields table policy (size + 1) reader cleared
      if fields.result ≠ .ok then fields
      else
        let last := validateRequired table fields.seen
        ⟨last.1, last.2, fields.seen⟩

/-! ## 3. What is wrong with a stream -/

/-- The length an integer value has. -/
def TlvValueKind.width : TlvValueKind → Option Nat
  | .u16 => some 2
  | .u32 => some 4
  | .u64 => some 8
  | _ => none

/-- The value is a text. -/
def TlvValueKind.IsText (kind : TlvValueKind) : Prop := kind = .utf8 ∨ kind = .name

/-- The length of a value is within the bounds of its rule and that of an integer if it is one. -/
def TlvRule.LengthOk (rule : TlvRule) (n : Nat) : Prop :=
  rule.minLength.toNat ≤ n ∧ n ≤ rule.maxLength.toNat ∧ ∀ width, rule.valueKind.width = some width → n = width

/-- A value is what its rule asks for. -/
structure TlvRule.Fits (rule : TlvRule) (value : Bytes) : Prop where
  length : rule.LengthOk value.length
  text : rule.valueKind.IsText → IsUtf8 value
  name : rule.valueKind = .name → IsName value

/-- What is wrong with a value: its length, or then as a text, or as a name, which is a text first. -/
inductive TlvRule.Misfits (rule : TlvRule) (value : Bytes) : TlvIssue → Prop
  | length (bad : ¬ rule.LengthOk value.length) : rule.Misfits value .invalidLength
  | utf8 (fits : rule.LengthOk value.length) (text : rule.valueKind.IsText) (bad : ¬ IsUtf8 value) :
      rule.Misfits value .invalidUtf8
  | name (fits : rule.LengthOk value.length) (kind : rule.valueKind = .name) (text : IsUtf8 value)
      (bad : ¬ IsName value) : rule.Misfits value .invalidName

/-- A rule table: bounds that are not empty, kinds of the enumeration, one rule for a type. -/
structure ValidRules (rules : List TlvRule) : Prop where
  bounds : ∀ rule ∈ rules, rule.minLength ≤ rule.maxLength
  kinds : ∀ rule ∈ rules, rule.valueKind ≠ .undefined
  types : rules.Pairwise fun a b => a.type ≠ b.type

/-- What is wrong with the field `f` after the fields `before`. The value of a field that is there
    again is not looked at. -/
inductive Breaks (rules : List TlvRule) (policy : TlvUnknownPolicy) (before : List TlvField)
    (f : TlvField) : TlvIssue → Prop
  | unknown (strict : policy = .reject) (none : ∀ rule ∈ rules, rule.type ≠ f.type) :
      Breaks rules policy before f .unknownType
  | duplicate {rule : TlvRule} (mem : rule ∈ rules) (type : rule.type = f.type)
      (once : rule.repeatable = false) (again : ∃ g ∈ before, g.type = f.type) :
      Breaks rules policy before f .duplicateField
  | value {rule : TlvRule} {issue : TlvIssue} (mem : rule ∈ rules) (type : rule.type = f.type)
      (admitted : rule.repeatable = true ∨ ∀ g ∈ before, g.type ≠ f.type)
      (bad : rule.Misfits f.value issue) : Breaks rules policy before f issue

/-- What is wrong at the front of `rest` after the fields `before`: the field there, or that there
    are bytes and no field. -/
inductive Spot (rules : List TlvRule) (policy : TlvUnknownPolicy) (before : List TlvField)
    (rest : Bytes) : TlvIssue → Prop
  | field {f : TlvField} {after : Bytes} {issue : TlvIssue} (front : rest = f.encode ++ after)
      (breaks : Breaks rules policy before f issue) : Spot rules policy before rest issue
  | cutHeader (some : rest ≠ []) (short : rest.length < tlvHeaderSize) :
      Spot rules policy before rest .truncatedHeader
  | cutValue (header : tlvHeaderSize ≤ rest.length)
      (short : rest.length < tlvHeaderSize + (readU16Be (rest.drop tlvLengthOffset)).toNat) :
      Spot rules policy before rest .truncatedValue

/-- A violation of the schema in `s` and its place: where the field or the torso starts, or the number of the
    rule whose field is missing. -/
inductive Violation (rules : List TlvRule) (policy : TlvUnknownPolicy) (s : Bytes) :
    Nat → TlvIssue → Prop
  | wire {before : List TlvField} {rest : Bytes} {issue : TlvIssue}
      (front : s = tlvCoding.encodeAll before ++ rest) (spot : Spot rules policy before rest issue) :
      Violation rules policy s (tlvCoding.encodeAll before).length issue
  | missing {fields : List TlvField} {i : Nat} {rule : TlvRule} (all : s = tlvCoding.encodeAll fields)
      (rule_at : rules[i]? = some rule) (required : rule.required = true)
      (none : ∀ f ∈ fields, f.type ≠ rule.type) :
      Violation rules policy s (s.length + i) .missingRequiredField

/-- A stream made of fields, each as its rule says and as often, and none without a rule unless these are
    skipped. -/
structure Accepted (rules : List TlvRule) (policy : TlvUnknownPolicy) (s : Bytes)
    (fields : List TlvField) : Prop where
  all : s = tlvCoding.encodeAll fields
  fits : ∀ f ∈ fields, ∀ rule ∈ rules, rule.type = f.type → rule.Fits f.value
  once : ∀ rule ∈ rules, rule.repeatable = false → fields.countP (·.type = rule.type) ≤ 1
  present : ∀ rule ∈ rules, rule.required = true → ∃ f ∈ fields, f.type = rule.type
  known : policy = .skip ∨ ∀ f ∈ fields, ∃ rule ∈ rules, rule.type = f.type

/-! ## 4. The rules -/

theorem rulesAreValidFrom_iff (previous rules : List TlvRule) : rulesAreValidFrom previous rules = true ↔
      ValidRules rules ∧ ∀ rule ∈ rules, ∀ p ∈ previous, p.type ≠ rule.type := by
  induction rules generalizing previous with
  | nil =>
    simp only [rulesAreValidFrom, true_iff]
    exact ⟨⟨by simp, by simp, .nil⟩, by simp⟩
  | cons rule rules ih =>
    unfold rulesAreValidFrom
    split
    · rename_i hbounds
      simp only [Bool.false_eq_true, false_iff]
      intro ⟨hvalid, _⟩
      exact UInt16.not_lt.mpr (hvalid.bounds rule (by simp)) hbounds
    · split
      · rename_i hbounds hkind
        simp only [Bool.false_eq_true, false_iff]
        intro ⟨hvalid, _⟩
        exact hvalid.kinds rule (by simp) hkind
      · split
        · rename_i hbounds hkind hany
          simp only [Bool.false_eq_true, false_iff]
          intro ⟨_, hfresh⟩
          obtain ⟨p, hp, htype⟩ := any_eq_true.mp hany
          exact hfresh rule (by simp) p hp (by simpa using htype)
        · rename_i hbounds hkind hany
          have hfresh : ∀ p ∈ previous, p.type ≠ rule.type := by simpa using hany
          rw [ih]
          constructor
          · intro ⟨hvalid, hrest⟩
            refine ⟨⟨?_, ?_, ?_⟩, ?_⟩
            · exact forall_mem_cons.mpr ⟨UInt16.not_lt.mp hbounds, hvalid.bounds⟩
            · exact forall_mem_cons.mpr ⟨hkind, hvalid.kinds⟩
            · exact pairwise_cons.mpr ⟨fun r hr => hrest r hr rule (by simp), hvalid.types⟩
            · exact forall_mem_cons.mpr ⟨hfresh, fun r hr p hp => hrest r hr p (by simp [hp])⟩
          · intro ⟨⟨hb, hk, ht⟩, hrest⟩
            rw [forall_mem_cons] at hb hk hrest
            rw [pairwise_cons] at ht
            refine ⟨⟨hb.2, hk.2, ht.2⟩, fun r hr p hp => ?_⟩
            rcases mem_append.mp hp with hp | hp
            · exact hrest.2 r hr p hp
            · rw [mem_singleton.mp hp]; exact ht.1 r hr

/-- **The check of the rule table decides what a rule table is.** -/
theorem rulesAreValid_iff (rules : Option (List TlvRule)) :
    rulesAreValid rules (rules.getD []).length = true ↔ ValidRules (rules.getD []) := by
  unfold rulesAreValid
  rw [if_neg, take_length, rulesAreValidFrom_iff]
  · simp
  intro ⟨hlen, hnull⟩
  rw [Option.isNone_iff_eq_none.mp hnull] at hlen
  exact hlen rfl

theorem ValidRules.unique_at {rules : List TlvRule} (h : ValidRules rules) {i j : Nat} {a b : TlvRule}
    (ha : rules[i]? = some a) (hb : rules[j]? = some b) (htype : a.type = b.type) : i = j := by
  obtain ⟨hi, rfl⟩ := List.getElem?_eq_some_iff.mp ha
  obtain ⟨hj, rfl⟩ := List.getElem?_eq_some_iff.mp hb
  have htypes := pairwise_iff_getElem.mp h.types
  by_contra hne
  rcases Nat.lt_or_gt_of_ne hne with hlt | hgt
  · exact htypes i j hi hj hlt htype
  · exact htypes j i hj hi hgt htype.symm

theorem ValidRules.unique {rules : List TlvRule} (h : ValidRules rules) {a b : TlvRule}
    (ha : a ∈ rules) (hb : b ∈ rules) (htype : a.type = b.type) : a = b := by
  obtain ⟨i, hi⟩ := mem_iff_getElem?.mp ha
  obtain ⟨j, hj⟩ := mem_iff_getElem?.mp hb
  obtain rfl := h.unique_at hi hj htype
  rw [hi] at hj
  exact Option.some.inj hj

theorem findRuleIndex_spec (rules : List TlvRule) (type : UInt16) :
    (findRuleIndex rules type = rules.length ∧ ∀ rule ∈ rules, rule.type ≠ type) ∨
      (findRuleIndex rules type ≠ rules.length ∧
        ∃ rule, rules[findRuleIndex rules type]? = some rule ∧ rule.type = type) := by
  unfold findRuleIndex
  by_cases h : ∃ rule ∈ rules, decide (rule.type = type) = true
  · have hlt := findIdx_lt_length_of_exists h
    have htype := findIdx_getElem (w := hlt)
    exact .inr ⟨by omega, _, List.getElem?_eq_getElem hlt, by simpa using htype⟩
  · have hnone : ∀ rule ∈ rules, rule.type ≠ type := by simpa using h
    exact .inl ⟨findIdx_eq_length.mpr (by simpa using hnone), hnone⟩

/-! ## 5. One value -/

section Value

variable {rule : TlvRule} {value : Bytes}

theorem TlvRule.Fits.not_misfits (h : rule.Fits value) (issue : TlvIssue) :
    ¬ rule.Misfits value issue := by
  intro hbad
  cases hbad with
  | length bad => exact bad h.length
  | utf8 fits text bad => exact bad (h.text text)
  | name fits kind text bad => exact bad (h.name kind)

theorem TlvRule.Misfits.ne_none {issue : TlvIssue} (h : rule.Misfits value issue) : issue ≠ .none := by
  cases h <;> simp

theorem TlvRule.Misfits.unique {i j : TlvIssue} (h : rule.Misfits value i) (h' : rule.Misfits value j) :
    i = j := by
  cases h with
  | length bad =>
    cases h' with
    | length => rfl
    | utf8 fits => exact absurd fits bad
    | name fits => exact absurd fits bad
  | utf8 fits text bad =>
    cases h' with
    | length bad' => exact absurd fits bad'
    | utf8 => rfl
    | name _ _ text' => exact absurd text' bad
  | name fits kind text bad =>
    cases h' with
    | length bad' => exact absurd fits bad'
    | utf8 _ _ bad' => exact absurd text bad'
    | name => rfl

/-- What the check of a value says of it. -/
inductive Valued (rule : TlvRule) (value : Bytes) : TlvIssue → Prop
  | fits (fits : rule.Fits value) : Valued rule value .none
  | misfits {issue : TlvIssue} (bad : rule.Misfits value issue) : Valued rule value issue

theorem TlvRule.lengthOk_of {n : Nat} (hwidth : rule.valueKind.width = none)
    (hbounds : ¬ (n < rule.minLength.toNat ∨ n > rule.maxLength.toNat)) : rule.LengthOk n := by
  refine ⟨by omega, by omega, fun width h => ?_⟩
  rw [hwidth] at h
  cases h

theorem valued_width {w : Nat} (hwidth : rule.valueKind.width = some w) (htext : ¬ rule.valueKind.IsText)
    (hbounds : ¬ (value.length < rule.minLength.toNat ∨ value.length > rule.maxLength.toNat)) :
    Valued rule value (if value.length ≠ w then .invalidLength else .none) := by
  split
  · rename_i hne
    exact .misfits (.length fun h => hne (h.2.2 w hwidth))
  · rename_i heq
    refine .fits ⟨⟨by omega, by omega, fun width h => ?_⟩, fun h => absurd h htext, fun h => ?_⟩
    · rw [hwidth] at h
      cases h
      omega
    · exact absurd (.inr h) htext

theorem valueValidate_spec (hkind : rule.valueKind ≠ .undefined) (f : TlvField) :
    Valued rule f.value (valueValidate rule f.view) := by
  unfold valueValidate TlvField.view
  dsimp only [Option.getD_some]
  split
  · rename_i hbounds
    refine .misfits (.length fun h => ?_)
    have h₁ := h.1
    have h₂ := h.2.1
    omega
  · rename_i hbounds
    cases hk : rule.valueKind with
    | bytes =>
      refine .fits ⟨TlvRule.lengthOk_of (by rw [hk]; rfl) hbounds, ?_, ?_⟩ <;>
        simp [TlvValueKind.IsText, hk]
    | u16 => exact valued_width (by rw [hk]; rfl) (by simp [TlvValueKind.IsText, hk]) hbounds
    | u32 => exact valued_width (by rw [hk]; rfl) (by simp [TlvValueKind.IsText, hk]) hbounds
    | u64 => exact valued_width (by rw [hk]; rfl) (by simp [TlvValueKind.IsText, hk]) hbounds
    | utf8 =>
      have hlen : rule.LengthOk f.value.length := TlvRule.lengthOk_of (by rw [hk]; rfl) hbounds
      have htext := utf8IsValid_iff f.value
      cases hv : utf8IsValid f.value with
      | true => exact .fits ⟨hlen, fun _ => htext.mp hv, by simp [hk]⟩
      | false => exact .misfits (.utf8 hlen (.inl hk) fun h => by simp [htext.mpr h] at hv)
    | name =>
      have hlen : rule.LengthOk f.value.length := TlvRule.lengthOk_of (by rw [hk]; rfl) hbounds
      have htext := utf8IsValid_iff f.value
      cases hv : utf8IsValid f.value with
      | false => exact .misfits (.utf8 hlen (.inr hk) fun h => by simp [htext.mpr h] at hv)
      | true =>
        have hname := nameIsValid_iff (htext.mp hv)
        cases hn : nameIsValid f.value with
        | true => exact .fits ⟨hlen, fun _ => htext.mp hv, fun _ => hname.mp hn⟩
        | false =>
          exact .misfits (.name hlen hk (htext.mp hv) fun h => by simp [hname.mpr h] at hn)
    | undefined => exact absurd hk hkind

end Value

/-! ## 6. One field -/

/-- The marks say which rules had a field. -/
structure Seen (rules : List TlvRule) (before : List TlvField) (seen : Bytes) : Prop where
  length : rules.length ≤ seen.length
  mark : ∀ i rule, rules[i]? = some rule → (seen.getD i 0 ≠ 0 ↔ ∃ g ∈ before, g.type = rule.type)

/-- What the check of a field says of it. -/
inductive Fielded (rules : List TlvRule) (policy : TlvUnknownPolicy) (before : List TlvField)
    (f : TlvField) : Except TlvIssue Bytes → Prop
  | passed {marks : Bytes} (clean : ∀ issue, ¬ Breaks rules policy before f issue)
      (seen : Seen rules (before ++ [f]) marks) : Fielded rules policy before f (.ok marks)
  | stopped {issue : TlvIssue} (breaks : Breaks rules policy before f issue) :
      Fielded rules policy before f (.error issue)

section Field

variable {rules : List TlvRule} {policy : TlvUnknownPolicy} {before : List TlvField} {f : TlvField}
  {marks : Bytes} {rule : TlvRule}

theorem not_breaks (hv : ValidRules rules) (hmem : rule ∈ rules) (htype : rule.type = f.type)
    (hfits : rule.Fits f.value) (hadmitted : rule.repeatable = true ∨ ∀ g ∈ before, g.type ≠ f.type)
    (issue : TlvIssue) :
    ¬ Breaks rules policy before f issue := by
  intro h
  cases h with
  | unknown strict none => exact none rule hmem htype
  | @duplicate rule' mem type once again =>
    obtain rfl := hv.unique mem hmem (type.trans htype.symm)
    obtain ⟨g, hg, hgt⟩ := again
    rcases hadmitted with hrep | hfresh
    · rw [once] at hrep; cases hrep
    · exact hfresh g hg hgt
  | @value rule' _ mem type admitted bad =>
    obtain rfl := hv.unique mem hmem (type.trans htype.symm)
    exact hfits.not_misfits issue bad

theorem not_admitted (once : rule.repeatable = false) (again : ∃ g ∈ before, g.type = f.type) :
    ¬ (rule.repeatable = true ∨ ∀ g ∈ before, g.type ≠ f.type) := by
  intro hadmitted
  obtain ⟨g, hg, hgt⟩ := again
  rcases hadmitted with hrep | hfresh
  · rw [once] at hrep; cases hrep
  · exact hfresh g hg hgt

theorem Breaks.unique (hv : ValidRules rules) {i j : TlvIssue} (h : Breaks rules policy before f i)
    (h' : Breaks rules policy before f j) : i = j := by
  cases h with
  | unknown strict none =>
    cases h' with
    | unknown => rfl
    | duplicate mem type => exact absurd type (none _ mem)
    | value mem type => exact absurd type (none _ mem)
  | duplicate mem type once again =>
    cases h' with
    | unknown _ none => exact absurd type (none _ mem)
    | duplicate => rfl
    | value mem' type' admitted =>
      obtain rfl := hv.unique mem' mem (type'.trans type.symm)
      exact absurd admitted (not_admitted once again)
  | value mem type admitted bad =>
    cases h' with
    | unknown _ none => exact absurd type (none _ mem)
    | duplicate mem' type' once again =>
      obtain rfl := hv.unique mem' mem (type'.trans type.symm)
      exact absurd admitted (not_admitted once again)
    | value mem' type' admitted' bad' =>
      obtain rfl := hv.unique mem' mem (type'.trans type.symm)
      exact bad.unique bad'

theorem Seen.skip (h : Seen rules before marks) (hnone : ∀ rule ∈ rules, rule.type ≠ f.type) :
    Seen rules (before ++ [f]) marks := by
  refine ⟨h.length, fun i rule hrule => (h.mark i rule hrule).trans ?_⟩
  have hne := hnone rule (mem_of_getElem? hrule)
  simp [hne.symm]

theorem Seen.set (hv : ValidRules rules) (h : Seen rules before marks) {i : Nat} (hrule : rules[i]? = some rule)
    (htype : rule.type = f.type) :
    Seen rules (before ++ [f]) (marks.set i 1) := by
  obtain ⟨hi, -⟩ := List.getElem?_eq_some_iff.mp hrule
  have hlen := h.length
  refine ⟨by rw [length_set]; exact hlen, fun j rule' hrule' => ?_⟩
  have hmark := h.mark j rule' hrule'
  by_cases hij : i = j
  · subst hij
    obtain rfl : rule = rule' := by rw [hrule] at hrule'; exact Option.some.inj hrule'
    have hone : (marks.set i 1).getD i 0 = 1 := by
      rw [getD_eq_getElem?_getD, List.getElem?_set_self (by omega)]
      rfl
    rw [hone]
    simp [htype]
  · have hother : (marks.set i 1).getD j 0 = marks.getD j 0 := by
      rw [getD_eq_getElem?_getD, List.getElem?_set_ne hij, ← getD_eq_getElem?_getD]
    have hne : f.type ≠ rule'.type := by
      intro heq
      exact hij (hv.unique_at hrule hrule' (htype.trans heq))
    rw [hother, hmark]
    simp [hne]

/-- **The check of a field says what is wrong with it**, and marks the rule of one that is right. -/
theorem fieldValidate_spec (hv : ValidRules rules) (h : Seen rules before marks) :
    Fielded rules policy before f (fieldValidate rules policy marks f.view) := by
  have hfind := findRuleIndex_spec rules f.type
  have hview : f.view.type = f.type := rfl
  unfold fieldValidate
  rw [hview]
  generalize findRuleIndex rules f.type = i at hfind ⊢
  dsimp only
  rcases hfind with hnone | hsome
  · obtain ⟨hi, hnone⟩ := hnone
    rw [if_pos hi]
    by_cases hstrict : policy = .reject
    · rw [if_pos hstrict]
      exact .stopped (.unknown hstrict hnone)
    · rw [if_neg hstrict]
      refine .passed (fun issue hbad => ?_) (h.skip hnone)
      cases hbad with
      | unknown strict => exact hstrict strict
      | duplicate mem type => exact hnone _ mem type
      | value mem type => exact hnone _ mem type
  · obtain ⟨hi, rule, hrule, htype⟩ := hsome
    have hmem := mem_of_getElem? hrule
    have hget : rules.getD i default = rule := by
      rw [getD_eq_getElem?_getD, hrule]
      rfl
    have hmark := h.mark i rule hrule
    rw [htype] at hmark
    have hvalue := valueValidate_spec (hv.kinds rule hmem) f
    rw [if_neg hi, hget]
    by_cases hdup : marks.getD i 0 ≠ 0 ∧ ¬ rule.repeatable = true
    · rw [if_pos hdup]
      exact .stopped (.duplicate hmem htype (by simpa using hdup.2) (hmark.mp hdup.1))
    · have hadmitted : rule.repeatable = true ∨ ∀ g ∈ before, g.type ≠ f.type := by
        by_cases hrep : rule.repeatable = true
        · exact .inl hrep
        · refine .inr fun g hg hgt => hdup ⟨hmark.mpr ⟨g, hg, hgt⟩, hrep⟩
      rw [if_neg hdup]
      generalize valueValidate rule f.view = issue at hvalue ⊢
      cases hvalue with
      | fits fits =>
        rw [if_neg (by simp)]
        exact .passed (not_breaks hv hmem htype fits hadmitted) (h.set hv hrule htype)
      | misfits bad =>
        rw [if_pos bad.ne_none]
        exact .stopped (.value hmem htype hadmitted bad)

end Field

/-! ## 7. The whole stream -/

/-- Nothing is wrong with any of `fields`, which come after `before`. -/
def Clean (rules : List TlvRule) (policy : TlvUnknownPolicy) (before fields : List TlvField) : Prop :=
  ∀ as f bs, fields = as ++ f :: bs → ∀ issue, ¬ Breaks rules policy (before ++ as) f issue

/-- What the field loop says of the stream `s` after the fields `before`. -/
inductive Walked (rules : List TlvRule) (policy : TlvUnknownPolicy) (before : List TlvField)
    (s : Bytes) : SchemaReport → Prop
  | passed (fields : List TlvField) {marks : Bytes} (all : s = tlvCoding.encodeAll fields)
      (clean : Clean rules policy before fields) (seen : Seen rules (before ++ fields) marks) :
      Walked rules policy before s ⟨.ok, .none, marks⟩
  | stopped (fields : List TlvField) {rest marks : Bytes} {issue : TlvIssue}
      (front : s = tlvCoding.encodeAll fields ++ rest) (clean : Clean rules policy before fields)
      (spot : Spot rules policy (before ++ fields) rest issue) :
      Walked rules policy before s ⟨.protocol, issue, marks⟩

section Stream

variable {rules : List TlvRule} {policy : TlvUnknownPolicy} {before fields : List TlvField} {s marks : Bytes}
  {f : TlvField} {rest : Bytes} {issue : TlvIssue}

theorem Clean.nil : Clean rules policy before [] := by
  intro as f bs h
  cases as <;> cases h

section

variable (h : ∀ issue, ¬ Breaks rules policy before f issue)
include h

theorem Clean.cons (hrest : Clean rules policy (before ++ [f]) fields) :
    Clean rules policy before (f :: fields) := by
  intro as g bs hsplit
  cases as with
  | nil =>
    obtain ⟨rfl, rfl⟩ := List.cons.inj hsplit
    rw [List.append_nil]
    exact h
  | cons a as =>
    obtain ⟨rfl, htail⟩ := List.cons.inj hsplit
    have := hrest as g bs htail
    rwa [append_assoc] at this

theorem Walked.cons {t : Bytes} {report : SchemaReport}
    (hs : s = f.encode ++ t) (hrest : Walked rules policy (before ++ [f]) t report) :
    Walked rules policy before s report := by
  cases hrest with
  | @passed fields marks all clean seen =>
    rw [append_assoc] at seen
    refine .passed (f :: fields) ?_ (clean.cons h) seen
    rw [hs, all]
    rfl
  | @stopped fields rest marks issue front clean spot =>
    rw [append_assoc] at spot
    refine .stopped (f :: fields) ?_ (clean.cons h) spot
    rw [hs, front, ← append_assoc]
    rfl

end

theorem cutValue_of_look (hlook : tlvLook rest = .more) (hlong : tlvHeaderSize ≤ rest.length) :
    rest.length < tlvHeaderSize + (readU16Be (rest.drop tlvLengthOffset)).toNat := by
  rw [tlvLook] at hlook
  rw [if_neg (by omega)] at hlook
  split at hlook
  · omega
  · cases hlook

theorem validateFields_spec (hv : ValidRules rules) {k : Nat} {r : TlvReader} (h : r.Sound)
    (hk : r.rest.length < k) (hseen : Seen rules before marks) :
    Walked rules policy before r.rest (validateFields rules policy k r marks) := by
  induction k generalizing r before marks with
  | zero => omega
  | succ k ih =>
    have hnext := next_spec h default
    unfold validateFields
    generalize r.next default = n at hnext ⊢
    cases hnext with
    | field f n look sound rest =>
      obtain ⟨-, hle, hn, -⟩ := tlvLook_item look
      have hs : r.rest = f.encode ++ r.rest.drop n := by
        rw [← show r.rest.take n = f.encode from tlvCoding.encode_look look, take_append_drop]
      have hfield : Fielded rules policy before f _ := fieldValidate_spec hv hseen
      dsimp only
      rw [if_neg (by decide), if_neg (by simp)]
      generalize fieldValidate rules policy marks f.view = o at hfield ⊢
      cases hfield with
      | passed clean seen =>
        have hwalk := ih sound (by rw [rest, length_drop]; simp [tlvHeaderSize] at hn; omega) seen
        rw [rest] at hwalk
        exact hwalk.cons clean hs
      | stopped breaks =>
        exact .stopped [] rfl .nil (.field hs (by rwa [List.append_nil]))
    | ended empty => exact .passed [] empty .nil (by rwa [List.append_nil])
    | cutHeader some look short => exact .stopped [] rfl .nil (.cutHeader some short)
    | cutValue some look long =>
      exact .stopped [] rfl .nil (.cutValue long (cutValue_of_look look long))

/-- **The loop over the rules stops at the first one whose field is missing.** -/
theorem validateRequired_spec (h : rules.length ≤ marks.length) :
    (validateRequired rules marks = (.ok, .none) ∧
      ∀ i rule, rules[i]? = some rule → rule.required = true → marks.getD i 0 ≠ 0) ∨
    (validateRequired rules marks = (.protocol, .missingRequiredField) ∧
      ∃ i rule, rules[i]? = some rule ∧ rule.required = true ∧ marks.getD i 0 = 0 ∧
        ∀ j < i, ∀ rule, rules[j]? = some rule → rule.required = true → marks.getD j 0 ≠ 0) := by
  induction rules generalizing marks with
  | nil => exact .inl ⟨by cases marks <;> rfl, by simp⟩
  | cons rule rules ih =>
    cases marks with
    | nil => simp at h
    | cons mark marks =>
      simp only [length_cons, Nat.add_le_add_iff_right] at h
      unfold validateRequired
      by_cases hbad : rule.required = true ∧ mark = 0
      · rw [if_pos hbad]
        exact .inr ⟨rfl, 0, rule, rfl, hbad.1, hbad.2, by simp⟩
      · rw [if_neg hbad]
        have hhead : rule.required = true → mark ≠ 0 := fun hr hm => hbad ⟨hr, hm⟩
        rcases ih h with hok | hmiss
        · refine .inl ⟨hok.1, fun i rule' hi => ?_⟩
          cases i with
          | zero =>
            cases hi
            exact hhead
          | succ i => exact hok.2 i rule' hi
        · obtain ⟨hres, i, rule', hi, hreq, hzero, hbefore⟩ := hmiss
          refine .inr ⟨hres, i + 1, rule', hi, hreq, hzero, fun j hj rule'' hjr => ?_⟩
          cases j with
          | zero =>
            cases hjr
            exact hhead
          | succ j => exact hbefore j (by omega) rule'' hjr

/-! ## 8. The first violation -/

theorem Spot.rest_ne_nil (h : Spot rules policy before rest issue) : rest ≠ [] := by
  intro hnil
  rw [hnil] at h
  cases h with
  | @field f after _ front =>
    have hlen := congrArg List.length front
    rw [length_append, f.length_encode, tlvHeaderSize, length_nil] at hlen
    omega
  | cutHeader some => exact some rfl
  | cutValue header =>
    rw [tlvHeaderSize, length_nil] at header
    omega

theorem Spot.breaks {after : Bytes} (h : Spot rules policy before (f.encode ++ after) issue) :
    Breaks rules policy before f issue := by
  have hlook : tlvLook (f.encode ++ after) = .item f f.encode.length := tlvCoding.look_encode f after
  cases h with
  | @field g after' _ front breaks =>
    have hlook' : tlvLook (g.encode ++ after') = .item g g.encode.length :=
      tlvCoding.look_encode g after'
    rw [← front, hlook] at hlook'
    cases hlook'
    exact breaks
  | cutHeader some short =>
    obtain ⟨hlong, -⟩ := tlvLook_item hlook
    omega
  | cutValue header short =>
    obtain ⟨-, hle, hn, hlen, -⟩ := tlvLook_item hlook
    omega

theorem Spot.unique (hv : ValidRules rules) {i j : TlvIssue} (h : Spot rules policy before rest i)
    (h' : Spot rules policy before rest j) : i = j := by
  cases h with
  | field front breaks =>
    rw [front] at h'
    exact breaks.unique hv h'.breaks
  | cutHeader some short =>
    cases h' with
    | field front breaks =>
      have hspot : Spot rules policy before rest .truncatedHeader := .cutHeader some short
      rw [front] at hspot
      exact hspot.breaks.unique hv breaks
    | cutHeader => rfl
    | cutValue header => omega
  | cutValue header short =>
    cases h' with
    | field front breaks =>
      have hspot : Spot rules policy before rest .truncatedValue := .cutValue header short
      rw [front] at hspot
      exact hspot.breaks.unique hv breaks
    | cutHeader _ short' => omega
    | cutValue => rfl

theorem Clean.before_spot {before : List TlvField} {rest rest' : Bytes} (h : Clean rules policy [] fields)
    (hs : s = tlvCoding.encodeAll fields ++ rest) (hs' : s = tlvCoding.encodeAll before ++ rest')
    (hspot : Spot rules policy before rest' issue) :
    ∃ more, before = fields ++ more ∧ rest = tlvCoding.encodeAll more ++ rest' := by
  have hreads := tlvCoding.reads_iff.mpr hs
  have hreads' := tlvCoding.reads_iff.mpr hs'
  rcases hreads.comparable hreads' with later | earlier
  · obtain ⟨more, hmore, hrest⟩ := later
    exact ⟨more, hmore, tlvCoding.reads_iff.mp hrest⟩
  · -- the thing that is wrong would be one of the clean fields
    obtain ⟨f, fs, hfields, hrest⟩ := earlier
    have hfront := tlvCoding.reads_iff.mp hrest
    rw [Coding.encodeAll_cons, append_assoc] at hfront
    rw [hfront] at hspot
    exact absurd hspot.breaks (h before f fs hfields issue)

/-- **The first thing that is wrong after clean fields is the first violation.** -/
theorem Clean.first (hv : ValidRules rules) (h : Clean rules policy [] fields)
    (hs : s = tlvCoding.encodeAll fields ++ rest) (hspot : Spot rules policy fields rest issue) {pos : Nat}
    {issue' : TlvIssue} (hviol : Violation rules policy s pos issue') :
    (tlvCoding.encodeAll fields).length < pos ∨
      (pos = (tlvCoding.encodeAll fields).length ∧ issue' = issue) := by
  cases hviol with
  | @wire before rest' _ front spot =>
    obtain ⟨more, rfl, hrest⟩ := h.before_spot hs front spot
    cases more with
    | nil =>
      simp only [Coding.encodeAll_nil, nil_append, List.append_nil] at hrest spot ⊢
      rw [← hrest] at spot
      exact .inr ⟨trivial, spot.unique hv hspot⟩
    | cons f more =>
      left
      have hlen : 0 < f.encode.length := by rw [f.length_encode, tlvHeaderSize]; omega
      simp only [Coding.encodeAll_append, Coding.encodeAll_cons, length_append]
      change _ < _ + (f.encode.length + _)
      omega
  | missing all rule_at required none =>
    left
    have hpos := length_pos_iff.mpr hspot.rest_ne_nil
    rw [hs, length_append]
    omega

theorem Clean.no_spot {before : List TlvField} (h : Clean rules policy [] fields)
    (hs : s = tlvCoding.encodeAll fields) (hs' : s = tlvCoding.encodeAll before ++ rest) :
    ¬ Spot rules policy before rest issue := by
  intro hspot
  obtain ⟨more, -, hrest⟩ := h.before_spot (by rw [hs, List.append_nil]) hs' hspot
  exact hspot.rest_ne_nil (append_eq_nil_iff.mp hrest.symm).2

theorem Seen.nil (marks : Bytes) : Seen rules [] (overwrite marks 0 (List.replicate rules.length 0)) := by
  have hcleared : overwrite marks 0 (List.replicate rules.length 0) =
      List.replicate rules.length 0 ++ marks.drop rules.length := by
    simp [overwrite]
  refine ⟨by rw [hcleared, length_append, length_replicate]; omega, fun i rule hrule => ?_⟩
  obtain ⟨hi, -⟩ := List.getElem?_eq_some_iff.mp hrule
  have hzero : (List.replicate rules.length (0 : UInt8) ++ marks.drop rules.length).getD i 0 = 0 := by
    rw [getD_eq_getElem?_getD, List.getElem?_append_left (by rwa [length_replicate]),
      List.getElem?_replicate, if_pos hi]
    rfl
  rw [hcleared, hzero]
  simp

end Stream

/-! ## 9. Accepted streams -/

theorem countP_le_one_iff {α : Type*} (p : α → Bool) (l : List α) :
    l.countP p ≤ 1 ↔ ∀ as x bs, l = as ++ x :: bs → p x = true → ∀ y ∈ as, p y = false := by
  constructor
  · intro h as x bs hl hx y hy
    rw [hl, countP_append, countP_cons_of_pos hx] at h
    have hzero : as.countP p = 0 := by omega
    simpa using countP_eq_zero.mp hzero y hy
  · intro h
    induction l with
    | nil => simp
    | cons x l ih =>
      have htail := ih fun as z bs hl hz y hy => h (x :: as) z bs (by rw [hl]; rfl) hz y (by simp [hy])
      by_cases hx : p x = true
      · have hzero : l.countP p = 0 := by
          refine countP_eq_zero.mpr fun z hz hpz => ?_
          obtain ⟨as, bs, rfl⟩ := append_of_mem hz
          have := h (x :: as) z bs rfl hpz x (by simp)
          rw [hx] at this
          cases this
        rw [countP_cons_of_pos hx, hzero]
      · rw [countP_cons_of_neg hx]
        exact htail

section Accept

variable {rules : List TlvRule} {policy : TlvUnknownPolicy} {s : Bytes} {fields : List TlvField}

theorem Accepted.of_clean (hpolicy : policy ≠ .undefined) (hs : s = tlvCoding.encodeAll fields)
    (h : Clean rules policy [] fields)
    (hpresent : ∀ rule ∈ rules, rule.required = true → ∃ f ∈ fields, f.type = rule.type) :
    Accepted rules policy s fields := by
  have hclean : ∀ as f bs, fields = as ++ f :: bs → ∀ issue, ¬ Breaks rules policy as f issue := h
  have hadmitted : ∀ as f bs, fields = as ++ f :: bs → ∀ rule ∈ rules, rule.type = f.type →
      rule.repeatable = true ∨ ∀ g ∈ as, g.type ≠ f.type := by
    intro as f bs hsplit rule hrule htype
    by_contra hno
    rw [not_or] at hno
    refine hclean as f bs hsplit _ (.duplicate hrule htype (by simpa using hno.1) ?_)
    simpa using hno.2
  refine ⟨hs, ?_, ?_, hpresent, ?_⟩
  · intro f hf rule hrule htype
    obtain ⟨as, bs, hsplit⟩ := append_of_mem hf
    have hgood : ∀ issue, ¬ rule.Misfits f.value issue := fun issue hbad =>
      hclean as f bs hsplit issue (.value hrule htype (hadmitted as f bs hsplit rule hrule htype) hbad)
    have hlen : rule.LengthOk f.value.length := not_not.mp fun hbad => hgood _ (.length hbad)
    have htext : rule.valueKind.IsText → IsUtf8 f.value := fun ht =>
      not_not.mp fun hbad => hgood _ (.utf8 hlen ht hbad)
    exact ⟨hlen, htext, fun hk =>
      not_not.mp fun hbad => hgood _ (.name hlen hk (htext (.inr hk)) hbad)⟩
  · intro rule hrule honce
    rw [countP_le_one_iff]
    intro as f bs hsplit hf g hg
    have hf' : f.type = rule.type := by simpa using hf
    rcases hadmitted as f bs hsplit rule hrule hf'.symm with hrep | hfresh
    · rw [honce] at hrep; cases hrep
    · have := hfresh g hg
      rw [hf'] at this
      simpa using this
  · by_cases hstrict : policy = .reject
    · refine .inr fun f hf => ?_
      obtain ⟨as, bs, hsplit⟩ := append_of_mem hf
      by_contra hno
      refine hclean as f bs hsplit _ (.unknown hstrict fun rule hrule htype => ?_)
      exact hno ⟨rule, hrule, htype⟩
    · left
      cases policy with
      | reject => exact absurd rfl hstrict
      | skip => rfl
      | undefined => exact absurd rfl hpolicy

theorem Accepted.clean (h : Accepted rules policy s fields) : Clean rules policy [] fields := by
  intro as f bs hsplit issue hbad
  have hf : f ∈ fields := by rw [hsplit]; simp
  cases hbad with
  | unknown strict none =>
    rcases h.known with hskip | hknown
    · rw [strict] at hskip; cases hskip
    · obtain ⟨rule, hrule, htype⟩ := hknown f hf
      exact none rule hrule htype
  | @duplicate rule mem type once again =>
    obtain ⟨g, hg, hgt⟩ := again
    have := (countP_le_one_iff _ _).mp (h.once rule mem once) as f bs hsplit (by simpa using type.symm)
      g (by simpa using hg)
    rw [hgt, type] at this
    simp at this
  | @value rule _ mem type admitted bad => exact (h.fits f hf rule mem type).not_misfits issue bad

theorem Accepted.no_violation (h : Accepted rules policy s fields) (pos : Nat) (issue : TlvIssue) : ¬ Violation rules policy s pos issue := by
  intro hviol
  cases hviol with
  | wire front spot => exact h.clean.no_spot h.all front spot
  | missing all rule_at required none =>
    obtain rfl := tlvCoding.encodeAll_injective (h.all.symm.trans all)
    obtain ⟨f, hf, htype⟩ := h.present _ (mem_of_getElem? rule_at) required
    exact none f hf htype

end Accept

/-! ## 10. The validator -/

/-- A call of the validator as its callers make it: regions as long as it says, a rule table, a policy, a mark
    for every rule. -/
structure SchemaCall (data : Option Bytes) (size : Nat) (rules : Option (List TlvRule)) (ruleCount : Nat)
    (policy : TlvUnknownPolicy) (seen : Option Bytes) (seenCapacity : Nat) : Prop where
  data_length : (data.getD []).length = size
  rules_length : (rules.getD []).length = ruleCount
  seen_length : (seen.getD []).length = seenCapacity
  valid : ValidRules (rules.getD [])
  defined : policy ≠ .undefined
  room : ruleCount ≤ seenCapacity

section Validate

variable {data : Option Bytes} {size : Nat} {rules : Option (List TlvRule)} {ruleCount : Nat}
  {policy : TlvUnknownPolicy} {seen : Option Bytes} {seenCapacity : Nat}

theorem isSome_of_length {α : Type*} {region : Option (List α)} {n : Nat}
    (h : (region.getD []).length = n) (hn : n ≠ 0) : region.isNone = false := by
  cases region with
  | none => exact absurd h.symm hn
  | some l => rfl

section

variable (h : SchemaCall data size rules ruleCount policy seen seenCapacity)
include h

theorem SchemaCall.eq_loops : schemaValidate data size rules ruleCount policy seen seenCapacity =
      let marks := overwrite (seen.getD []) 0 (List.replicate ruleCount 0)
      let fields := validateFields (rules.getD []) policy (size + 1) ⟨data, size, 0⟩ marks
      let last := validateRequired (rules.getD []) fields.seen
      if fields.result ≠ .ok then fields else ⟨last.1, last.2, fields.seen⟩ := by
  have hroom := h.room
  have hrules : rulesAreValid rules ruleCount = true := by
    rw [← h.rules_length]
    exact (rulesAreValid_iff rules).mpr h.valid
  have htable : (rules.getD []).take ruleCount = rules.getD [] :=
    take_of_length_le (by rw [h.rules_length])
  have hdata : ¬ (data.isNone = true ∧ size ≠ 0) := by
    intro ⟨hnull, hsize⟩
    rw [isSome_of_length h.data_length hsize] at hnull
    cases hnull
  have hnull : ¬ (ruleCount ≠ 0 ∧ (rules.isNone = true ∨ seen.isNone = true)) := by
    intro ⟨hcount, hnull⟩
    rw [isSome_of_length h.rules_length hcount, isSome_of_length h.seen_length (by omega)] at hnull
    cases hnull <;> contradiction
  have hpolicy : ¬ (policy ≠ .reject ∧ policy ≠ .skip) := by
    have hdef := h.defined
    cases policy <;> simp_all
  have hinit : TlvReader.init data size = .ok ⟨data, size, 0⟩ := if_neg hdata
  unfold schemaValidate
  rw [if_neg hdata, if_neg hnull, if_neg hpolicy, if_neg (by omega), hrules, if_neg (by decide), hinit, htable]

/-- What the validator says of a stream: it is made of fields that are as the rules say, or this is its first
    violation. -/
inductive Judged (table : List TlvRule) (policy : TlvUnknownPolicy) (s : Bytes) (report : SchemaReport) : Prop
  | accepted {fields : List TlvField} (h : Accepted table policy s fields) (ok : report.result = .ok)
      (clean : report.issue = .none)
  | refused {pos : Nat} (bad : report.result = .protocol) (violation : Violation table policy s pos report.issue)
      (first : ∀ pos' issue', Violation table policy s pos' issue' →
        pos < pos' ∨ (pos' = pos ∧ issue' = report.issue))

theorem schemaValidate_judged : Judged (rules.getD []) policy (data.getD [])
      (schemaValidate data size rules ruleCount policy seen seenCapacity) := by
  have hsound : (⟨data, size, 0⟩ : TlvReader).Sound := ⟨Nat.zero_le _, h.data_length⟩
  have hwalk := @validateFields_spec _ policy [] _ h.valid (size + 1) _ hsound
    (by rw [hsound.length_rest]; simp)
    (.nil (seen.getD []))
  rw [h.rules_length] at hwalk
  change Walked _ _ _ (data.getD []) _ at hwalk
  rw [h.eq_loops]
  dsimp only
  generalize validateFields (rules.getD []) policy (size + 1) ⟨data, size, 0⟩ _ = report at hwalk ⊢
  cases hwalk with
  | @passed fields marks all clean seen =>
    rw [if_neg (by simp)]
    dsimp only
    rcases validateRequired_spec seen.length with hok | hmissing
    · obtain ⟨hlast, hmarks⟩ := hok
      have haccepted : Accepted (rules.getD []) policy (data.getD []) fields := by
        refine .of_clean h.defined all clean fun rule hrule hreq => ?_
        obtain ⟨i, hi⟩ := mem_iff_getElem?.mp hrule
        exact (seen.mark i rule hi).mp (hmarks i rule hi hreq)
      rw [hlast]
      exact .accepted haccepted rfl rfl
    · obtain ⟨hlast, i, rule, hi, hreq, hzero, hbefore⟩ := hmissing
      have hnone : ∀ j rule, (rules.getD [])[j]? = some rule → marks.getD j 0 = 0 →
          ∀ f ∈ fields, f.type ≠ rule.type := fun j rule hj hz f hf htype =>
        (seen.mark j rule hj).mpr ⟨f, hf, htype⟩ hz
      rw [hlast]
      refine .refused rfl (.missing all hi hreq (hnone i rule hi hzero)) fun pos' issue' hviol' => ?_
      cases hviol' with
      | wire front spot => exact absurd spot (clean.no_spot all front)
      | @missing fields' j rule' all' hj hreq' none' =>
        -- the first of the missing fields is reported
        obtain rfl := tlvCoding.encodeAll_injective (all.symm.trans all')
        have hj0 : ¬ j < i := by
          intro hlt
          obtain ⟨f, hf, htype⟩ := (seen.mark j rule' hj).mp (hbefore j hlt rule' hj hreq')
          exact none' f hf htype
        by_cases hij : j = i
        · exact .inr ⟨by rw [hij], rfl⟩
        · exact .inl (by omega)
  | @stopped fields rest marks issue front clean spot =>
    rw [if_pos (by simp)]
    exact .refused rfl (.wire front spot) fun pos' issue' hviol' => clean.first h.valid front spot hviol'

theorem schemaValidate_iff :
    (schemaValidate data size rules ruleCount policy seen seenCapacity).result = .ok ↔
      ∃ fields, Accepted (rules.getD []) policy (data.getD []) fields := by
  cases schemaValidate_judged h with
  | accepted h ok => exact iff_of_true ok ⟨_, h⟩
  | refused bad violation =>
    rw [bad]
    exact iff_of_false nofun fun ⟨_, hacc⟩ => hacc.no_violation _ _ violation

end

/-- **The validator is exact**: it accepts the streams made of proper fields, and reports the first violation
    of every other one. -/
theorem schema_exact (h : SchemaCall data size rules ruleCount policy seen seenCapacity) :
    let s := data.getD []
    let table := rules.getD []
    let report := schemaValidate data size rules ruleCount policy seen seenCapacity
    (report.result = .ok ↔ ∃ fields, Accepted table policy s fields) ∧
    (report.result = .ok → report.issue = .none) ∧
    (report.result ≠ .ok → report.result = .protocol ∧
      ∃ pos, Violation table policy s pos report.issue ∧
        ∀ pos' issue', Violation table policy s pos' issue' →
          pos < pos' ∨ (pos' = pos ∧ issue' = report.issue)) := by
  refine ⟨schemaValidate_iff h, ?_⟩
  cases schemaValidate_judged h with
  | accepted h ok clean => exact ⟨fun _ => clean, fun hne => absurd ok hne⟩
  | refused bad violation first =>
    refine ⟨fun hok => ?_, fun _ => ⟨bad, _, violation, first⟩⟩
    cases bad.symm.trans hok

end Validate

/-- A required text of at most four bytes, given once. -/
theorem schema_exact_text :
    ∃ fields, Accepted [⟨1, 0, 4, .utf8, true, false⟩] .reject [0, 1, 0, 2, 0xC3, 0xA9] fields := by
  have h : SchemaCall (some [0, 1, 0, 2, 0xC3, 0xA9]) 6 (some [⟨1, 0, 4, .utf8, true, false⟩]) 1 .reject
      (some [0]) 1 :=
    ⟨rfl, rfl, rfl, (rulesAreValid_iff (some _)).mp (by decide), by decide, by decide⟩
  exact (schema_exact h).1.mp (by decide)

end Vireo.Protocol
