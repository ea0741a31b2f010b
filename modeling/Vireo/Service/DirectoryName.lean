/-
  File:      Vireo/Service/DirectoryName.lean
  Subject:   THE NAMES OF DIRECTORIES AND FILES (`src/service/directory_name.c`).

  Null arguments do not exist here; `errno` is restored by every entry and is left out, and so is the release
  of the normalised bytes.
-/
import Vireo.Protocol.TlvSchema

namespace Vireo.Service

open Lib Protocol

/-- `vireo_directory_name_issue_t`. -/
inductive DirectoryNameIssue where
  | none
  | length
  | utf8
  | syntax_
  | notNfc
deriving DecidableEq

/-- `VIREO_DIRECTORY_NAME_CAPACITY`. -/
def directoryNameCapacity : Nat := 255

/-- The rule of the one field. -/
def directoryNameRule : TlvRule := ⟨1, 1, 255, .name, true, false⟩

/-- `vireo_directory_name_validate_with_runtime`; the callback returns a result and the bytes it made. -/
def directoryNameValidate (normalize : Bytes → Result × Option Bytes) (name : Bytes) :
    Result × DirectoryNameIssue :=
  if name.length = 0 ∨ name.length > directoryNameCapacity then (.range, .length)
  else
    match TlvWriter.init (some (List.replicate 259 0)) 259 with
    | .error _ => (.internal, .none)
    | .ok writer =>
      let put := writer.put 1 (some name) name.length
      if put.1 ≠ .ok then (.internal, .none)
      else
        let encoded := slice (put.2.data.getD []) 0 put.2.used
        let validated :=
          schemaValidate (some encoded) put.2.used (some [directoryNameRule]) 1 .reject (some [0]) 1
        if validated.result ≠ .ok then
          if validated.result = .protocol ∧ validated.issue = .invalidUtf8 then (.protocol, .utf8)
          else if validated.result = .protocol ∧ validated.issue = .invalidName then (.protocol, .syntax_)
          else (.internal, .none)
        else if validated.issue ≠ .none then (.internal, .none)
        else
          match normalize name with
          | (.ok, none) => (.internal, .none)
          | (.ok, some normalized) => if normalized = name then (.ok, .none) else (.protocol, .notNfc)
          | (rc, _) => (if rc = .noMemory ∨ rc = .overflow then rc else .internal, .none)

/-- What is to be said of a name: the first that applies. -/
inductive NameVerdict (normalize : Bytes → Result × Option Bytes) (name : Bytes) :
    Result × DirectoryNameIssue → Prop
  | length (bad : ¬ (1 ≤ name.length ∧ name.length ≤ 255)) : NameVerdict normalize name (.range, .length)
  | utf8 (short : 1 ≤ name.length ∧ name.length ≤ 255) (bad : ¬ IsUtf8 name) :
      NameVerdict normalize name (.protocol, .utf8)
  | syntax_ (short : 1 ≤ name.length ∧ name.length ≤ 255) (text : IsUtf8 name) (bad : ¬ IsName name) :
      NameVerdict normalize name (.protocol, .syntax_)
  | failed {rc : Result} {made : Option Bytes} (short : 1 ≤ name.length ∧ name.length ≤ 255)
      (good : IsName name) (normal : normalize name = (rc, made)) (bad : rc ≠ .ok ∨ made = none) :
      NameVerdict normalize name (if rc = .noMemory ∨ rc = .overflow then rc else .internal, .none)
  | notNfc {made : Bytes} (short : 1 ≤ name.length ∧ name.length ≤ 255) (good : IsName name)
      (normal : normalize name = (.ok, some made)) (other : made ≠ name) :
      NameVerdict normalize name (.protocol, .notNfc)
  | valid (short : 1 ≤ name.length ∧ name.length ≤ 255) (good : IsName name)
      (normal : normalize name = (.ok, some name)) : NameVerdict normalize name (.ok, .none)

section

variable {f : TlvField} (hf : f.type = 1) (hlen : 1 ≤ f.value.length ∧ f.value.length ≤ 255)
include hf hlen

theorem name_accepted (h : IsName f.value) : Accepted [directoryNameRule] .reject f.encode [f] where
  all := (List.append_nil _).symm
  fits := by
    simp only [List.mem_singleton]
    rintro _ rfl _ rfl -
    exact ⟨⟨hlen.1, hlen.2, nofun⟩, fun _ => h.imp fun _ ht => ht.1, fun _ => h⟩
  once _ _ _ := List.countP_le_length
  present := by simp [directoryNameRule, hf]
  known := .inr (by simp [directoryNameRule, hf])

theorem name_judged :
    let v := schemaValidate (some f.encode) f.encode.length (some [directoryNameRule]) 1 .reject (some [0]) 1
    (IsName f.value → v.result = .ok ∧ v.issue = .none) ∧
      ∀ issue, directoryNameRule.Misfits f.value issue → v.result = .protocol ∧ v.issue = issue := by
  have hcall : SchemaCall (some f.encode) f.encode.length (some [directoryNameRule]) 1 .reject (some [0]) 1 :=
    ⟨rfl, rfl, rfl, (rulesAreValid_iff (some [directoryNameRule])).mp (by decide), by decide, by decide⟩
  have hspot : ∀ {issue}, directoryNameRule.Misfits f.value issue →
      Violation [directoryNameRule] .reject f.encode 0 issue := fun bad =>
    @Violation.wire _ _ _ [] f.encode _ rfl (.field (List.append_nil f.encode).symm
      (.value (List.mem_singleton_self _) hf.symm (.inr nofun) bad))
  cases schemaValidate_judged hcall with
  | accepted h ok clean => exact ⟨fun _ => ⟨ok, clean⟩, fun _ hbad => absurd (hspot hbad) (h.no_violation _ _)⟩
  | refused bad violation first =>
    refine ⟨fun h => absurd violation ((name_accepted hf hlen h).no_violation _ _), fun issue hbad => ⟨bad, ?_⟩⟩
    exact ((first 0 issue (hspot hbad)).resolve_left (Nat.not_lt_zero _)).2.symm

end

theorem put_name (f : TlvField) (hlen : f.value.length ≤ 255) : ∃ w,
    (⟨some (List.replicate 259 0), 259, 0⟩ : TlvWriter).put f.type (some f.value) f.value.length = (.ok, w) ∧
      slice (w.data.getD []) 0 w.used = f.encode ∧ w.used = f.encode.length := by
  have hsound : (⟨some (List.replicate 259 0), 259, 0⟩ : TlvWriter).Sound :=
    ⟨Nat.zero_le _, List.length_replicate, by decide⟩
  have hroom : 0 + f.encode.length ≤ 259 := by
    rw [f.length_encode, tlvHeaderSize]
    omega
  obtain ⟨w, hput, hwrote⟩ := put_spec hsound f hroom
  exact ⟨w, hput, hwrote.written hsound, hwrote.used.trans (Nat.zero_add _)⟩

theorem nameScans_iff (data : Bytes) : utf8IsValid data = true ∧ nameIsValid data = true ↔ IsName data := by
  rw [utf8IsValid_iff]
  constructor
  · exact fun ⟨htext, h⟩ => (nameIsValid_iff htext).mp h
  · intro h
    have htext : IsUtf8 data := h.imp fun _ ht => ht.1
    exact ⟨htext, (nameIsValid_iff htext).mpr h⟩

theorem directoryNameValidate_verdict (normalize : Bytes → Result × Option Bytes) (name : Bytes) :
    NameVerdict normalize name (directoryNameValidate normalize name) := by
  unfold directoryNameValidate
  split
  · rename_i hbad
    exact .length fun h => by rw [directoryNameCapacity] at hbad; omega
  rename_i hlen
  have short : 1 ≤ name.length ∧ name.length ≤ 255 := by
    rw [directoryNameCapacity] at hlen
    omega
  obtain ⟨w, hput, hencoded, hused⟩ := put_name ⟨1, name, by rw [tlvMaxValueSize]; omega⟩ short.2
  obtain ⟨hgood, hbad⟩ := @name_judged ⟨1, name, by rw [tlvMaxValueSize]; omega⟩ rfl short
  rw [show TlvWriter.init (some (List.replicate 259 0)) 259 =
    .ok ⟨some (List.replicate 259 0), 259, 0⟩ from rfl]
  dsimp only at hput ⊢
  rw [hput, if_neg (not_not.mpr rfl), hencoded, hused]
  by_cases htext : IsUtf8 name
  · by_cases hn : IsName name
    · obtain ⟨hok, hclean⟩ := hgood hn
      rw [hok, hclean, if_neg (not_not.mpr rfl), if_neg (not_not.mpr rfl)]
      rcases hnormal : normalize name with ⟨rc, made⟩
      cases rc with
      | ok =>
        cases made with
        | none => exact .failed short hn hnormal (.inr rfl)
        | some made =>
          dsimp only
          split
          · rename_i hsame
            exact .valid short hn (hsame ▸ hnormal)
          · rename_i hother
            exact .notNfc short hn hnormal hother
      | _ => exact .failed short hn hnormal (.inl (by decide))
    · obtain ⟨hresult, hissue⟩ := hbad _ (.name ⟨short.1, short.2, by rintro _ ⟨⟩⟩ rfl htext hn)
      rw [hresult, hissue]
      exact .syntax_ short htext hn
  · obtain ⟨hresult, hissue⟩ := hbad _ (.utf8 ⟨short.1, short.2, by rintro _ ⟨⟩⟩ (.inr rfl) htext)
    rw [hresult, hissue]
    exact .utf8 short htext

/-- **The scans and the check of a name are exact.** The scan for UTF-8 accepts the encodings of sequences of
    Unicode scalar values, the scan for names those that name an entry, and the check says the first thing that
    is wrong. -/
theorem name_validation_exact :
    (∀ data, utf8IsValid data = true ↔ IsUtf8 data) ∧
    (∀ data, utf8IsValid data = true ∧ nameIsValid data = true ↔ IsName data) ∧
    ∀ (normalize : Bytes → Result × Option Bytes) (name : Bytes),
      NameVerdict normalize name (directoryNameValidate normalize name) ∧
      ((directoryNameValidate normalize name).1 = .ok ↔ (1 ≤ name.length ∧ name.length ≤ 255) ∧
        (utf8IsValid name = true ∧ nameIsValid name = true) ∧ normalize name = (.ok, some name)) := by
  refine ⟨utf8IsValid_iff, nameScans_iff, fun normalize name =>
    ⟨directoryNameValidate_verdict normalize name, ?_⟩⟩
  rw [nameScans_iff]
  have h := directoryNameValidate_verdict normalize name
  generalize directoryNameValidate normalize name = r at h
  cases h with
  | length bad => exact iff_of_false nofun fun h => bad h.1
  | utf8 _ bad => exact iff_of_false nofun fun h => bad (h.2.1.imp fun _ ht => ht.1)
  | syntax_ _ _ bad => exact iff_of_false nofun fun h => bad h.2.1
  | @failed rc made _ _ normal bad =>
    refine iff_of_false (fun h => ?_) fun h => ?_
    · dsimp only at h
      split at h
      · rename_i hkept
        rw [h] at hkept
        exact hkept.elim nofun nofun
      · cases h
    · cases normal.symm.trans h.2.2
      exact bad.elim (fun h => h rfl) nofun
  | notNfc _ _ normal other =>
    refine iff_of_false nofun fun h => ?_
    cases normal.symm.trans h.2.2
    exact other rfl
  | valid short good normal => exact iff_of_true rfl ⟨short, good, normal⟩

end Vireo.Service
