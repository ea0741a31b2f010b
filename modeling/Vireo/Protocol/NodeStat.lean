/-
  File:      Vireo/Protocol/NodeStat.lean
  Subject:   THE RESPONSE OF STAT (`src/protocol/node_stat.c`): the metadata of a node, with a parent and a
             hash or without.
-/
import Vireo.Protocol.NodeName
import Vireo.Protocol.NodeRoot

namespace Vireo.Protocol

open Lib List
open TlvField (encode ofU16 ofU64 type)
open TlvWriter (chain)

/-! ## 1. Metadata -/

/-- `vireo_node_stat_metadata_t`. -/
structure StatMetadata where
  nodeId : UInt64
  hasParent : Bool
  parentId : UInt64
  name : Cells UInt8 nameCapacity
  nameLength : Nat
  type : UInt16
  size : UInt64
  createdAtMs : UInt64
  updatedAtMs : UInt64
  hasObjectHash : Bool
  objectHash : Cells UInt8 hashSize

def StatMetadata.zero : StatMetadata := ⟨0, false, 0, .fill _ 0, 0, 0, 0, 0, 0, false, .fill _ 0⟩

/-- `status_allowed` of STAT. -/
def statStatuses : List UInt16 :=
  [0, 1001, 1002, 1004, 1005, 1006, 1007, 1008, 1101, 1201, 1901, 1902, 1906, 1907, 1908]

variable (m : StatMetadata)

/-- `metadata_zero`. -/
def metadataZero : Bool :=
  m.nodeId = 0 && !m.hasParent && m.parentId = 0 && m.nameLength = 0 && zeroBytes m.name.val && m.type = 0 &&
    m.size = 0 && m.createdAtMs = 0 && m.updatedAtMs = 0 && !m.hasObjectHash && zeroBytes m.objectHash.val

/-- `metadata_valid`. -/
def metadataValid : Bool :=
  if m.nodeId = 0 ∨ m.nameLength > nameCapacity ∨ m.updatedAtMs < m.createdAtMs then false
  else if m.hasParent = true ∧ (m.parentId = 0 ∨ m.nameLength = 0) then false
  else if m.hasParent = false ∧ (m.parentId ≠ 0 ∨ m.nameLength ≠ 0 ∨ m.type ≠ typeDirectory) then false
  else if (m.name.val.take m.nameLength).any fun b => b = 0 ∨ b = 0x2F then false
  else if (m.nameLength = 1 ∧ m.name.val.getD 0 0 = 0x2E) ∨
      (m.nameLength = 2 ∧ m.name.val.getD 0 0 = 0x2E ∧ m.name.val.getD 1 0 = 0x2E) then false
  else if m.type = typeDirectory then m.size = 0 && !m.hasObjectHash && zeroBytes m.objectHash.val
  else m.type = typeFile && m.hasObjectHash

/-- The size of the body that the encoder computes. -/
def metadataSize : Nat :=
  58 + m.nameLength + (if m.hasParent then 12 else 0) + if m.hasObjectHash then 36 else 0

/-- The fields are written. -/
def putMetadata (w : TlvWriter) : Except Result TlvWriter := do
  let w ← chain (w.putU64 tlvNodeId m.nodeId)
  let w ← if m.hasParent then chain (w.putU64 tlvParentId m.parentId) else .ok w
  let w ← chain (w.put tlvNameBytes (some m.name.val) m.nameLength)
  let w ← chain (w.putU16 tlvNodeType m.type)
  let w ← chain (w.putU64 tlvSize m.size)
  let w ← chain (w.putU64 tlvCreatedAtMs m.createdAtMs)
  let w ← chain (w.putU64 tlvUpdatedAtMs m.updatedAtMs)
  if m.hasObjectHash then chain (w.put tlvObjectHash (some m.objectHash.val) 32) else .ok w

/-- The switch of `read_metadata`. -/
def readMetadataField (f : TlvView) : Except Result StatMetadata :=
  if f.type = tlvNodeId then f.readU64.map fun v => { m with nodeId := v }
  else if f.type = tlvParentId then f.readU64.map fun v => { m with hasParent := true, parentId := v }
  else if f.type = tlvNameBytes then
    .ok { m with nameLength := f.length, name := m.name.copy ((f.value.getD []).take f.length) }
  else if f.type = tlvNodeType then f.readU16.map fun v => { m with type := v }
  else if f.type = tlvSize then f.readU64.map fun v => { m with size := v }
  else if f.type = tlvCreatedAtMs then f.readU64.map fun v => { m with createdAtMs := v }
  else if f.type = tlvUpdatedAtMs then f.readU64.map fun v => { m with updatedAtMs := v }
  else if f.type = tlvObjectHash then
    .ok { m with hasObjectHash := true, objectHash := m.objectHash.copy ((f.value.getD []).take 32) }
  else .error .protocol

/-- `vireo_node_stat_response_encode`: the writer is put behind the header even when there is no body. -/
def nodeStatResponseEncode (v : NodeResponse StatMetadata) (capacity : Nat) (frame : Cells UInt8 393) :
    Except Result Bytes :=
  if v.sequence = 0 ∨ decide (v.status ∈ statStatuses) = false ∨
      (if v.status = 0 then v.sessionHandle = 0 ∨ metadataValid v.payload = false
      else v.sessionHandle ≠ 0 ∨ metadataZero v.payload = false) then .error .invalidArgument
  else
    let body := if v.status = 0 then metadataSize v.payload else 0
    if capacity < 32 + body then .error .range
    else do
      let frame ← nodeWrite body frame.val fun w => if body ≠ 0 then putMetadata v.payload w else .ok w
      publish (nodeHeader commandNodeStat flagResponse v.status body v.sequence v.sessionHandle) frame (32 + body)

/-- `vireo_node_stat_response_decode`. A body that is too long is that of an OK: the others have none. -/
def nodeStatResponseDecode : Bytes → NodeResponse StatMetadata → NodeDecoded (NodeResponse StatMetadata) :=
  nodeResponseDecode (fun _ => none) commandNodeStat statStatuses (fun n => n > 361) .zero
    (nodeRead statRules 8 fieldsIssue readMetadataField .zero metadataValid)

/-! ## 2. Its fields -/

/-- The hash as a field. -/
def hashField (hash : Cells UInt8 hashSize) : TlvField :=
  ⟨tlvObjectHash, hash.val, by rw [hash.property]; decide⟩

/-- The body of a response of STAT. -/
def statPayload : NodePayload StatMetadata where
  Good m := metadataValid m = true
  fields m := [.ofU64 tlvNodeId m.nodeId] ++ (if m.hasParent then [.ofU64 tlvParentId m.parentId] else []) ++
    [nameField tlvNameBytes m.name m.nameLength, .ofU16 tlvNodeType m.type, .ofU64 tlvSize m.size,
      .ofU64 tlvCreatedAtMs m.createdAtMs, .ofU64 tlvUpdatedAtMs m.updatedAtMs] ++
    if m.hasObjectHash then [hashField m.objectHash] else []
  trimmed m := { m with name := trimName m.name m.nameLength }

/-- What is not there is zero, and the name is not longer than the array for it. -/
structure StatMetadata.Proper (m : StatMetadata) : Prop where
  name : m.nameLength ≤ nameCapacity
  parent : m.hasParent = false → m.parentId = 0
  hash : m.hasObjectHash = false → m.objectHash = .fill _ 0

variable {m : StatMetadata}

theorem proper_of_valid (h : metadataValid m = true) : m.Proper := by
  unfold metadataValid at h
  split at h
  · cases h
  rename_i hname
  split at h
  · cases h
  split at h
  · cases h
  rename_i hparent
  split at h
  · cases h
  split at h
  · cases h
  refine ⟨by omega, fun hno => ?_, fun hno => ?_⟩
  · simp only [hno, true_and, not_or, not_not] at hparent
    exact hparent.1
  · split at h
    · simp only [Bool.and_eq_true] at h
      exact zeroBytes_iff.mp h.2
    · rw [hno, Bool.and_false] at h
      cases h

theorem metadataZero_iff (m : StatMetadata) : metadataZero m = true ↔ m = .zero := by
  obtain ⟨nodeId, hasParent, parentId, name, nameLength, type, size, created, updated, hasHash, hash⟩ := m
  unfold metadataZero StatMetadata.zero
  simp only [Bool.and_eq_true, decide_eq_true_iff, Bool.not_eq_true', zeroBytes_iff, StatMetadata.mk.injEq]
  tauto

theorem metadataValid_trimmed (m : StatMetadata) :
    metadataValid (statPayload.trimmed m) = metadataValid m := by
  by_cases hbad : m.nodeId = 0 ∨ m.nameLength > nameCapacity ∨ m.updatedAtMs < m.createdAtMs
  · have h₁ : metadataValid m = false := if_pos hbad
    have h₂ : metadataValid (statPayload.trimmed m) = false := if_pos hbad
    rw [h₁, h₂]
  · have hle : m.nameLength ≤ nameCapacity := by omega
    have hbad' : ¬ ((statPayload.trimmed m).nodeId = 0 ∨ (statPayload.trimmed m).nameLength > nameCapacity ∨
        (statPayload.trimmed m).updatedAtMs < (statPayload.trimmed m).createdAtMs) := hbad
    have hdots : ((m.nameLength = 1 ∧ (trimName m.name m.nameLength).val.getD 0 0 = 0x2E) ∨
        (m.nameLength = 2 ∧ (trimName m.name m.nameLength).val.getD 0 0 = 0x2E ∧
          (trimName m.name m.nameLength).val.getD 1 0 = 0x2E)) ↔
        ((m.nameLength = 1 ∧ m.name.val.getD 0 0 = 0x2E) ∨
        (m.nameLength = 2 ∧ m.name.val.getD 0 0 = 0x2E ∧ m.name.val.getD 1 0 = 0x2E)) := by
      refine or_congr (and_congr_right fun hone => ?_) (and_congr_right fun htwo => ?_)
      · rw [getD_trimName m.name hle (by omega)]
      · rw [getD_trimName m.name hle (by omega), getD_trimName m.name hle (by omega)]
    unfold metadataValid
    rw [if_neg hbad, if_neg hbad']
    refine if_congr .rfl rfl (if_congr .rfl rfl ?_)
    show (if ((trimName m.name m.nameLength).val.take m.nameLength).any _ = true then _ else _) = _
    rw [take_trimName m.name hle]
    exact if_congr .rfl rfl (if_congr hdots rfl rfl)

section

variable (h : m.nameLength ≤ nameCapacity)
include h

theorem length_statPayload : (statPayload.body m).length = metadataSize m := by
  have hhash : (tlvCoding.encode (hashField m.objectHash)).length = 36 := by
    show (encode _).length = _
    rw [TlvField.length_encode, tlvHeaderSize]
    show 4 + m.objectHash.val.length = 36
    rw [m.objectHash.property, hashSize]
  have hu16 : ∀ t x, (tlvCoding.encode (ofU16 t x)).length = 6 := fun t x => rfl
  dsimp only [NodePayload.body, statPayload, metadataSize]
  cases m.hasParent <;> cases m.hasObjectHash <;>
    simp only [Coding.encodeAll_append, Coding.encodeAll_cons, Coding.encodeAll_nil, length_append,
      length_nil, length_encode_ofU64, hu16, length_encode_nameField _ _ h, hhash, if_true,
      Bool.false_eq_true, if_false] <;>
    omega

theorem metadataSize_le : metadataSize m ≤ 361 := by
  rw [nameCapacity] at h
  unfold metadataSize
  split <;> split <;> omega

theorem statPayload_writes : statPayload.Writes metadataSize putMetadata 393 m := by
  have hlen := length_statPayload h
  have hle := metadataSize_le h
  have hname := length_take_name m.name h
  have hhash : m.objectHash.val.length = 32 := m.objectHash.property
  refine ⟨hlen.symm, fun w => ?_, by omega, by rw [hlen, maxBodySize]; omega⟩
  dsimp only [putMetadata, statPayload, nameField, hashField]
  cases m.hasParent <;> cases m.hasObjectHash <;>
    simp only [foldlM_append, foldlM_cons, foldlM_nil, bind_assoc, ok_bind, bind_ok, bind_pure,
      putField_u64, putField_u16, putField_take _ hname, putField_bytes _ hhash, if_true, Bool.false_eq_true,
      if_false, List.append_nil]

/-! ## 3. The rules -/

omit h in
theorem valid_statRules : ValidRules statRules := (rulesAreValid_iff (some statRules)).mp (by decide)

omit h in
theorem types_statPayload (m : StatMetadata) : (statPayload.fields m).map type =
    [0x0401] ++ (if m.hasParent then [0x0402] else []) ++ [0x0403, 0x0404, 0x0405, 0x0406, 0x0407] ++
      if m.hasObjectHash then [0x0408] else [] := by
  dsimp only [statPayload]
  cases m.hasParent <;> cases m.hasObjectHash <;> rfl

theorem accepted_stat : Accepted statRules .reject (statPayload.body m) (statPayload.fields m) := by
  have hname := length_take_name m.name h
  have hhash : m.objectHash.val.length = 32 := m.objectHash.property
  have htypes := types_statPayload m
  rw [nameCapacity] at h
  refine accepted_of_ruled valid_statRules ?_ ?_ ?_
  · dsimp only [statPayload]
    simp only [forall_mem_append, forall_mem_cons]
    refine ⟨⟨⟨⟨⟨_, by decide, rfl, fits_u64 0x0401 true false _⟩, by simp⟩, ?_⟩,
      ⟨⟨⟨0x0403, 0, 255, .bytes, true, false⟩, by decide, rfl, fits_bytes (Nat.zero_le _) ?_⟩,
        ⟨_, by decide, rfl, fits_u16 0x0404 true false _⟩, ⟨_, by decide, rfl, fits_u64 0x0405 true false _⟩,
        ⟨_, by decide, rfl, fits_u64 0x0406 true false _⟩, ⟨_, by decide, rfl, fits_u64 0x0407 true false _⟩,
        by simp⟩⟩, ?_⟩
    · intro f hf
      split at hf
      · rw [mem_singleton.mp hf]
        exact ⟨_, by decide, rfl, fits_u64 0x0402 false false _⟩
      · cases hf
    · show (m.name.val.take m.nameLength).length ≤ 255
      omega
    · intro f hf
      split at hf
      · rw [mem_singleton.mp hf]
        exact ⟨⟨0x0408, 32, 32, .bytes, false, false⟩, by decide, rfl, fits_bytes hhash.ge hhash.le⟩
      · cases hf
  · rw [htypes]
    cases m.hasParent <;> cases m.hasObjectHash <;> decide
  · rw [htypes]
    cases m.hasParent <;> cases m.hasObjectHash <;> decide

end

/-! ## 4. The reader of the body -/

/-- What a field does to the value. -/
def putMetadataField (f : TlvField) (m : StatMetadata) : StatMetadata where
  nodeId := if f.type = tlvNodeId then readU64Be f.value else m.nodeId
  hasParent := if f.type = tlvParentId then true else m.hasParent
  parentId := if f.type = tlvParentId then readU64Be f.value else m.parentId
  name := if f.type = tlvNameBytes then m.name.copy f.value else m.name
  nameLength := if f.type = tlvNameBytes then f.value.length else m.nameLength
  type := if f.type = tlvNodeType then readU16Be f.value else m.type
  size := if f.type = tlvSize then readU64Be f.value else m.size
  createdAtMs := if f.type = tlvCreatedAtMs then readU64Be f.value else m.createdAtMs
  updatedAtMs := if f.type = tlvUpdatedAtMs then readU64Be f.value else m.updatedAtMs
  hasObjectHash := if f.type = tlvObjectHash then true else m.hasObjectHash
  objectHash := if f.type = tlvObjectHash then m.objectHash.copy f.value else m.objectHash

theorem putMetadataField_comm (f g : TlvField) (hne : f.type ≠ g.type) (m : StatMetadata) :
    putMetadataField f (putMetadataField g m) = putMetadataField g (putMetadataField f m) := by
  unfold putMetadataField
  simp only [StatMetadata.mk.injEq]
  exact ⟨ite_type_comm hne _ _ _, ite_type_comm hne _ _ _, ite_type_comm hne _ _ _,
    ite_put_comm hne (·.copy f.value) (·.copy g.value) m.name, ite_type_comm hne _ _ _,
    ite_type_comm hne _ _ _, ite_type_comm hne _ _ _, ite_type_comm hne _ _ _, ite_type_comm hne _ _ _,
    ite_type_comm hne _ _ _, ite_put_comm hne (·.copy f.value) (·.copy g.value) m.objectHash⟩

section Read

variable {fields : List TlvField} {s : Bytes} {l : List TlvField} {t : UInt16} {c : Bool}

theorem readMetadataField_eq (h : Accepted statRules .reject s fields) :
    ∀ f ∈ fields, ∀ m, readMetadataField m f.view = .ok (putMetadataField f m) := by
  intro f hf m
  obtain ⟨rule, hrule, htype, hfits⟩ := h.ruled hf
  have hview : f.view.type = f.type := rfl
  have hall : (f.view.value.getD []).take f.view.length = f.value := take_length
  unfold readMetadataField putMetadataField
  rw [hview, hall, htype]
  simp only [statRules, mem_cons, not_mem_nil, or_false] at hrule
  rcases hrule with rfl | rfl | rfl | rfl | rfl | rfl | rfl | rfl
  · rw [readU64_of_length (hfits.length.2.2 8 rfl)]
    rfl
  · rw [readU64_of_length (hfits.length.2.2 8 rfl)]
    rfl
  · rfl
  · rw [readU16_of_length (hfits.length.2.2 2 rfl)]
    rfl
  · rw [readU64_of_length (hfits.length.2.2 8 rfl)]
    rfl
  · rw [readU64_of_length (hfits.length.2.2 8 rfl)]
    rfl
  · rw [readU64_of_length (hfits.length.2.2 8 rfl)]
    rfl
  · have hcut : (f.view.value.getD []).take 32 = f.value := take_of_length_le hfits.length.2.1
    rw [hcut]
    rfl

section

variable (m : StatMetadata)

theorem putMetadataField_u64 (x : UInt64) :
    putMetadataField (.ofU64 tlvNodeId x) m = { m with nodeId := x } ∧
      putMetadataField (.ofU64 tlvParentId x) m = { m with hasParent := true, parentId := x } ∧
      putMetadataField (.ofU64 tlvSize x) m = { m with size := x } ∧
      putMetadataField (.ofU64 tlvCreatedAtMs x) m = { m with createdAtMs := x } ∧
      putMetadataField (.ofU64 tlvUpdatedAtMs x) m = { m with updatedAtMs := x } := by
  have hread : ∀ type, readU64Be (ofU64 type x).value = x := fun type => by simp [ofU64]
  have htype : ∀ type, (ofU64 type x).type = type := fun type => rfl
  simp only [putMetadataField, hread, htype]
  exact ⟨rfl, rfl, rfl, rfl, rfl⟩

theorem putMetadataField_type (x : UInt16) :
    putMetadataField (.ofU16 tlvNodeType x) m = { m with type := x } := by
  have hread : readU16Be (ofU16 tlvNodeType x).value = x := by simp [ofU16]
  have htype : (ofU16 tlvNodeType x).type = tlvNodeType := rfl
  simp only [putMetadataField, hread, htype]
  rfl

theorem putMetadataField_name (name : Cells UInt8 nameCapacity) {n : Nat}
    (h : n ≤ nameCapacity) : putMetadataField (nameField tlvNameBytes name n) m =
      { m with name := m.name.copy (name.val.take n), nameLength := n } := by
  have hlen : (nameField tlvNameBytes name n).value.length = n := length_take_name name h
  have htype : (nameField tlvNameBytes name n).type = tlvNameBytes := rfl
  simp only [putMetadataField, hlen, htype]
  rfl

theorem putMetadataField_hash (hash : Cells UInt8 hashSize) :
    putMetadataField (hashField hash) m = { m with hasObjectHash := true, objectHash := hash } := by
  have hcopy : m.objectHash.copy (hashField hash).value = hash := Cells.copy_full _ _
  have htype : (hashField hash).type = tlvObjectHash := rfl
  simp only [putMetadataField, hcopy, htype]
  rfl

end

theorem fold_metadata (h : Accepted statRules .reject s fields) {m : StatMetadata} (hm : m.Proper)
    (hperm : (statPayload.fields m).Perm fields) :
    fields.foldlM (fun m f => readMetadataField m f.view) .zero = .ok (statPayload.trimmed m) := by
  refine (foldlM_put (readMetadataField_eq h) putMetadataField_comm (h.nodup (by decide)) hperm.symm
    StatMetadata.zero).trans (congrArg Except.ok ?_)
  have hparent := hm.parent
  have hhash := hm.hash
  obtain ⟨nodeId, hasParent, parentId, name, nameLength, type, size, created, updated, hasHash, hash⟩ := m
  have hname : nameLength ≤ nameCapacity := hm.name
  dsimp only [statPayload] at hparent hhash ⊢
  -- what is not among the fields stays zero, as it is in the metadata
  cases hasParent with
  | false =>
    cases hparent rfl
    cases hasHash with
    | false =>
      cases hhash rfl
      simp only [foldl_append, foldl_cons, foldl_nil, putMetadataField_u64, putMetadataField_type,
        putMetadataField_name _ _ hname, Bool.false_eq_true, if_false]
      rfl
    | true =>
      simp only [foldl_append, foldl_cons, foldl_nil, putMetadataField_u64, putMetadataField_type,
        putMetadataField_name _ _ hname, putMetadataField_hash, Bool.false_eq_true, if_false, if_true]
      rfl
  | true =>
    cases hasHash with
    | false =>
      cases hhash rfl
      simp only [foldl_append, foldl_cons, foldl_nil, putMetadataField_u64, putMetadataField_type,
        putMetadataField_name _ _ hname, Bool.false_eq_true, if_false, if_true]
      rfl
    | true =>
      simp only [foldl_append, foldl_cons, foldl_nil, putMetadataField_u64, putMetadataField_type,
        putMetadataField_name _ _ hname, putMetadataField_hash, if_true]
      rfl

theorem type_of_optional (h : l.map type = if c then [t] else []) : ∀ f ∈ l, f.type = t := by
  intro f hf
  have hmem : f.type ∈ l.map type := mem_map_of_mem hf
  rw [h] at hmem
  split at hmem
  · exact mem_singleton.mp hmem
  · cases hmem

theorem optional_ofU64 (h : l.map type = if c then [t] else []) (hlen : ∀ f ∈ l, f.value.length = 8) :
    ∃ id, (c = false → id = 0) ∧ l = if c then [.ofU64 t id] else [] := by
  cases c with
  | false => exact ⟨0, fun _ => rfl, map_eq_nil_iff.mp h⟩
  | true =>
    obtain ⟨f, rfl, hf⟩ := map_eq_singleton_iff.mp h
    exact ⟨readU64Be f.value, fun hc => (by cases hc), congrArg (fun f => [f]) (eq_ofU64 hf (hlen f (by simp)))⟩

theorem optional_hash (h : l.map type = if c then [tlvObjectHash] else [])
    (hlen : ∀ f ∈ l, f.value.length = hashSize) :
    ∃ hash : Cells UInt8 hashSize, (c = false → hash = .fill _ 0) ∧ l = if c then [hashField hash] else [] := by
  cases c with
  | false => exact ⟨.fill _ 0, fun _ => rfl, map_eq_nil_iff.mp h⟩
  | true =>
    obtain ⟨f, rfl, hf⟩ := map_eq_singleton_iff.mp h
    exact ⟨⟨f.value, hlen f (by simp)⟩, fun hc => (by cases hc),
      congrArg (fun f => [f]) (eq_ofBytes hf f.length_le)⟩

theorem stat_types (h : Accepted statRules .reject s fields) : ∃ (fields' : List TlvField) (hasParent hasHash : Bool),
    fields.Perm fields' ∧ fields'.map type = [tlvNodeId] ++ (if hasParent then [tlvParentId] else []) ++
      [tlvNameBytes, tlvNodeType, tlvSize, tlvCreatedAtMs, tlvUpdatedAtMs] ++
        if hasHash then [tlvObjectHash] else [] := by
  have hperm : (fields.map type).Perm ((statRules.map TlvRule.type).filter fun t =>
    t ∈ fields.map type) := h.types_perm valid_statRules (by decide)
  have hrules : statRules.map TlvRule.type = [tlvNodeId, tlvParentId, tlvNameBytes, tlvNodeType, tlvSize,
    tlvCreatedAtMs, tlvUpdatedAtMs, tlvObjectHash] := rfl
  have hthere : ∀ t ∈ (statRules.filter TlvRule.required).map TlvRule.type, t ∈ fields.map type := by
    intro t ht
    obtain ⟨rule, hrule, rfl⟩ := mem_map.mp ht
    obtain ⟨f, hf, htype⟩ := h.present rule (mem_filter.mp hrule).1 (mem_filter.mp hrule).2
    exact htype ▸ mem_map_of_mem hf
  refine (exists_perm_of_map_perm type hperm).elim fun fields' ⟨hfields, htypes⟩ =>
    ⟨fields', decide (tlvParentId ∈ fields.map type), decide (tlvObjectHash ∈ fields.map type),
      hfields, htypes.trans ?_⟩
  rw [hrules]
  simp only [filter_cons, hthere tlvNodeId (by decide), hthere tlvNameBytes (by decide),
    hthere tlvNodeType (by decide), hthere tlvSize (by decide), hthere tlvCreatedAtMs (by decide),
    hthere tlvUpdatedAtMs (by decide), decide_true, if_true, filter_nil]
  split <;> split <;> rfl

theorem holds_metadata (h : Accepted statRules .reject s fields) :
    ∃ m : StatMetadata, m.Proper ∧ statPayload.trimmed m = m ∧ (statPayload.fields m).Perm fields := by
  obtain ⟨fields', hasParent, hasHash, hperm, htypes⟩ := stat_types h
  have hfits := (h.perm hperm).fits
  obtain ⟨l, l₄, rfl, hl, h₄⟩ := map_eq_append_iff.mp htypes
  obtain ⟨l, l₃, rfl, hl, h₃⟩ := map_eq_append_iff.mp hl
  obtain ⟨l₁, l₂, rfl, h₁, h₂⟩ := map_eq_append_iff.mp hl
  obtain ⟨id, rfl, hid⟩ := map_eq_singleton_iff.mp h₁
  obtain ⟨name, l, rfl, hname, hl⟩ := map_eq_cons_iff.mp h₃
  obtain ⟨type, l, rfl, htype, hl⟩ := map_eq_cons_iff.mp hl
  obtain ⟨size, l, rfl, hsize, hl⟩ := map_eq_cons_iff.mp hl
  obtain ⟨created, l, rfl, hcreated, hl⟩ := map_eq_cons_iff.mp hl
  obtain ⟨updated, rfl, hupdated⟩ := map_eq_singleton_iff.mp hl
  have hwide : ∀ f, f ∈ [id] ++ l₂ ++ [name, type, size, created, updated] ++ l₄ →
      ∀ t, (⟨t, 8, 8, .u64, true, false⟩ : TlvRule) ∈ statRules → t = f.type → f.value.length = 8 :=
    fun f hf t hrule ht => (hfits f hf _ hrule ht).length.2.2 8 rfl
  have hid8 := hwide id (by simp) 0x0401 (by decide) hid.symm
  have hsize8 := hwide size (by simp) 0x0405 (by decide) hsize.symm
  have hcreated8 := hwide created (by simp) 0x0406 (by decide) hcreated.symm
  have hupdated8 := hwide updated (by simp) 0x0407 (by decide) hupdated.symm
  have hname255 : name.value.length ≤ nameCapacity :=
    (hfits name (by simp) ⟨0x0403, 0, 255, .bytes, true, false⟩ (by decide) hname.symm).length.2.1
  have htype2 : type.value.length = 2 :=
    (hfits type (by simp) ⟨0x0404, 2, 2, .u16, true, false⟩ (by decide) htype.symm).length.2.2 2 rfl
  obtain ⟨parentId, hparent, hl₂⟩ := optional_ofU64 h₂ fun f hf =>
    (hfits f (by simp [hf]) ⟨0x0402, 8, 8, .u64, false, false⟩ (by decide)
      (type_of_optional h₂ f hf).symm).length.2.2 8 rfl
  obtain ⟨hash, hnone, hl₄⟩ := optional_hash h₄ fun f hf => by
    have hrule := hfits f (by simp [hf]) ⟨0x0408, 32, 32, .bytes, false, false⟩ (by decide)
      (type_of_optional h₄ f hf).symm
    exact Nat.le_antisymm hrule.length.2.1 hrule.length.1
  refine ⟨⟨readU64Be id.value, hasParent, parentId, (Cells.fill _ 0).copy name.value, name.value.length,
    readU16Be type.value, readU64Be size.value, readU64Be created.value, readU64Be updated.value, hasHash, hash⟩,
    ⟨hname255, hparent, hnone⟩, ?_, (List.Perm.of_eq ?_).trans hperm.symm⟩
  · show (⟨_, _, _, trimName _ _, _, _, _, _, _, _, _⟩ : StatMetadata) = _
    rw [trimName_copy hname255]
  · dsimp only [statPayload]
    rw [nameField_copy hname hname255, ← hl₂, ← hl₄, ← eq_ofU64 hid hid8, ← eq_ofU16 htype htype2,
      ← eq_ofU64 hsize hsize8, ← eq_ofU64 hcreated hcreated8, ← eq_ofU64 hupdated hupdated8]

theorem statPayload_held :
    statPayload.Held StatMetadata.Proper statRules readMetadataField .zero metadataValid where
  table := valid_statRules
  size m hm := by
    have hname := (proper_of_valid hm).name
    have hle := metadataSize_le hname
    rw [length_statPayload hname, maxBodySize]
    omega
  proper _ hm := proper_of_valid hm
  fits m hm := ⟨accepted_stat (proper_of_valid hm).name, (metadataValid_trimmed m).trans hm⟩
  holds s fields h := by
    obtain ⟨m, hproper, htrimmed, hperm⟩ := holds_metadata h
    exact ⟨m, hproper, htrimmed, hperm, id⟩
  fold s fields m h hproper hperm := fold_metadata h hproper hperm

end Read

/-! ## 5. The codec -/

theorem nodeStatResponseEncode_eq (v : NodeResponse StatMetadata) (capacity : Nat) (frame : Cells UInt8 393) :
    nodeStatResponseEncode v capacity frame = nodeResponseEncode commandNodeStat statStatuses metadataValid
      metadataZero metadataSize putMetadata v capacity frame.val := by
  have hempty : nodeWrite 0 frame.val (fun w => .ok w) = .ok frame.val := by
    have hwrite := @nodeWrite_eq frame.val [] (fun w => .ok w) (fun w => rfl) (by
      rw [frame.property]
      decide) (Nat.zero_le _)
    rw [Coding.encodeAll_nil, overwrite_nil] at hwrite
    exact hwrite
  unfold nodeStatResponseEncode nodeResponseEncode
  refine if_congr .rfl rfl (if_congr .rfl rfl ?_)
  generalize (if v.status = 0 then metadataSize v.payload else 0) = body
  by_cases hbody : body = 0
  · subst hbody
    have hput : (fun w => if (0 : Nat) ≠ 0 then putMetadata v.payload w else .ok w) =
        fun w : TlvWriter => (.ok w : Except Result TlvWriter) := funext fun w => if_neg (not_not.mpr rfl)
    rw [hput, hempty, if_neg (not_not.mpr rfl)]
  · have hput : (fun w => if body ≠ 0 then putMetadata v.payload w else .ok w) = putMetadata v.payload :=
      funext fun w => if_pos hbody
    rw [hput, if_pos hbody]

theorem nodeStatResponse_roundTrips :
    (statPayload.response commandNodeStat statStatuses .zero).RoundTrips nodeStatResponseEncode
      nodeStatResponseDecode := by
  have hencode : (statPayload.response commandNodeStat statStatuses .zero).Encodes nodeStatResponseEncode := by
    have hsome : ∀ m, statPayload.Good m → metadataSize m ≠ 0 := by
      intro m _
      unfold metadataSize
      omega
    have hcommon : (statPayload.response commandNodeStat statStatuses .zero).Encodes
        fun v capacity (frame : Cells UInt8 393) => nodeResponseEncode commandNodeStat statStatuses metadataValid
          metadataZero metadataSize putMetadata v capacity frame.val :=
      nodeResponse_encodes (fun m => .rfl) metadataZero_iff hsome fun m hm =>
        statPayload_writes (proper_of_valid hm).name
    refine ⟨fun v capacity frame => ?_, fun v capacity frame => ?_, fun v capacity frame => ?_⟩
    · rw [nodeStatResponseEncode_eq]
      exact hcommon.fits v capacity frame
    · rw [nodeStatResponseEncode_eq]
      exact hcommon.short v capacity frame
    · rw [nodeStatResponseEncode_eq]
      exact hcommon.invalid v capacity frame
  refine (statPayload_held.reads (Nat.le_refl 8) fun m hm => ?_).response_roundTrips rfl rfl rfl (fun _ _ => rfl)
    rfl hencode
  have hname := (proper_of_valid hm).name
  have hle := metadataSize_le hname
  rw [length_statPayload hname, gt_iff_lt, UInt32.lt_iff_toNat_lt, UInt32.toNat_ofNat_of_lt' (by
    show metadataSize m < 4294967296
    omega)]
  show ¬ 361 < metadataSize m
  omega

end Vireo.Protocol
