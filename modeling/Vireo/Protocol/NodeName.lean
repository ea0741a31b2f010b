/-
  File:      Vireo/Protocol/NodeName.lean
  Subject:   MESSAGES WITH A NAME: the requests of MKDIR and of MOVE (`src/protocol/node_mkdir.c`,
             `node_move.c`).
-/
import Vireo.Protocol.NodeKey

namespace Vireo.Protocol

open Lib List
open TlvWriter (chain)

/-! ## 1. Names -/

/-- A name with its tail cleared. -/
def trimName (name : Cells UInt8 nameCapacity) (n : Nat) : Cells UInt8 nameCapacity :=
  (Cells.fill _ 0).copy (name.val.take n)

theorem Cells.take_copy {α : Type} {n : Nat} (c : Cells α n) {xs : List α} (h : xs.length ≤ n) :
    (c.copy xs).val.take xs.length = xs := by
  show (overwrite c.val 0 (xs.take n)).take xs.length = xs
  rw [take_of_length_le h, overwrite, List.take_zero, nil_append, take_left]

theorem trimName_copy {value : Bytes} (h : value.length ≤ nameCapacity) :
    trimName ((Cells.fill _ 0).copy value) value.length = (Cells.fill _ 0).copy value := by
  rw [trimName, Cells.take_copy _ h]

section

variable (name : Cells UInt8 nameCapacity)

theorem length_take_name {n : Nat} (h : n ≤ nameCapacity) : (name.val.take n).length = n := by
  rw [length_take, name.property, Nat.min_eq_left h]

theorem take_trimName {n : Nat} (h : n ≤ nameCapacity) :
    (trimName name n).val.take n = name.val.take n := by
  have hlen := length_take_name name h
  have htake := Cells.take_copy (.fill nameCapacity 0) (hlen.trans_le h)
  rwa [hlen] at htake

theorem getD_trimName {n i : Nat} (h : n ≤ nameCapacity) (hi : i < n) :
    (trimName name n).val.getD i 0 = name.val.getD i 0 := by
  have htake := congrArg (fun l : Bytes => l[i]?) (take_trimName name h)
  simp only [List.getElem?_take_of_lt hi] at htake
  rw [getD_eq_getElem?_getD, getD_eq_getElem?_getD, htake]

end

/-- The name as a field. -/
def nameField (type : UInt16) (name : Cells UInt8 nameCapacity) (n : Nat) : TlvField :=
  ⟨type, name.val.take n, by
    rw [length_take, name.property, nameCapacity, tlvMaxValueSize]
    omega⟩

/-- The key as a field. -/
def keyField (key : Cells UInt8 keySize) : TlvField :=
  ⟨tlvIdempotencyKey, key.val, by rw [key.property]; decide⟩

variable {f : TlvField} {type : UInt16}

theorem nameField_copy (htype : f.type = type) (h : f.value.length ≤ nameCapacity) :
    nameField type ((Cells.fill _ 0).copy f.value) f.value.length = f := by
  unfold nameField
  simp only [Cells.take_copy _ h]
  exact (eq_ofBytes htype f.length_le).symm

theorem keyField_eq (htype : f.type = tlvIdempotencyKey) (h : f.value.length = keySize) :
    keyField ⟨f.value, h⟩ = f := (eq_ofBytes htype f.length_le).symm

theorem length_encode_nameField (type : UInt16) (name : Cells UInt8 nameCapacity) {n : Nat}
    (h : n ≤ nameCapacity) : (tlvCoding.encode (nameField type name n)).length = 4 + n := by
  show (TlvField.encode _).length = _
  rw [TlvField.length_encode, tlvHeaderSize]
  show 4 + (name.val.take n).length = 4 + n
  rw [length_take_name name h]

theorem length_encode_keyField (key : Cells UInt8 keySize) :
    (tlvCoding.encode (keyField key)).length = 20 := by
  show (TlvField.encode _).length = _
  rw [TlvField.length_encode, tlvHeaderSize]
  show 4 + key.val.length = 20
  rw [key.property, keySize]

theorem length_encode_ofU64 (type : UInt16) (value : UInt64) :
    (tlvCoding.encode (.ofU64 type value)).length = 12 := rfl

/-- The rules of a name and of a key. -/
def nameRule (type : UInt16) : TlvRule := ⟨type, 1, 255, .name, true, false⟩
def keyRule : TlvRule := ⟨0x0420, 16, 16, .bytes, true, false⟩
def idRule (type : UInt16) : TlvRule := ⟨type, 8, 8, .u64, true, false⟩

theorem le_of_nameFits {value : Bytes} (h : (nameRule type).Fits value) :
    0 < value.length ∧ value.length ≤ nameCapacity := ⟨h.length.1, h.length.2.1⟩

theorem fits_key (key : Cells UInt8 keySize) : keyRule.Fits key.val :=
  fits_bytes key.property.ge key.property.le

theorem accepted_written {rules : List TlvRule} {fields fields' : List TlvField}
    (h : Accepted rules .reject (tlvCoding.encodeAll fields) fields') :
    Accepted rules .reject (tlvCoding.encodeAll fields) fields :=
  tlvCoding.encodeAll_injective h.all ▸ h

/-! ## 2. MKDIR -/

/-- `parent_id`, `name`, `name_length` and `idempotency_key` of `vireo_node_mkdir_request_t`. -/
structure NodeMkdir where
  parentId : UInt64
  name : Cells UInt8 nameCapacity
  nameLength : Nat
  idempotencyKey : Cells UInt8 keySize
deriving DecidableEq

def NodeMkdir.zero : NodeMkdir := ⟨0, .fill _ 0, 0, .fill _ 0⟩

/-- `VIREO_NODE_MKDIR_TLV_NAME`. -/
def tlvName : UInt16 := 0x0403

/-- `request_rules` of MKDIR. -/
def mkdirRules : List TlvRule := [idRule tlvParentId, nameRule tlvName, keyRule]

variable (p : NodeMkdir)

/-- What the encoder checks before it writes. -/
def mkdirGood : Bool :=
  p.parentId ≠ 0 && p.nameLength ≠ 0 && decide (p.nameLength ≤ nameCapacity) && !zeroBytes p.idempotencyKey.val

/-- What the decoder checks in the end. -/
def mkdirRead : Bool := p.parentId ≠ 0 && !zeroBytes p.idempotencyKey.val

/-- The fields are written. -/
def putMkdir (w : TlvWriter) : Except Result TlvWriter := do
  let w ← chain (w.putU64 tlvParentId p.parentId)
  let w ← chain (w.put tlvName (some p.name.val) p.nameLength)
  chain (w.put tlvIdempotencyKey (some p.idempotencyKey.val) keySize)

/-- The switch of `read_request`. -/
def readMkdirField (f : TlvView) : Except Result NodeMkdir :=
  if f.type = tlvParentId then f.readU64.map fun v => { p with parentId := v }
  else if f.type = tlvName then
    .ok { p with nameLength := f.length, name := p.name.copy ((f.value.getD []).take f.length) }
  else if f.type = tlvIdempotencyKey then
    .ok { p with idempotencyKey := p.idempotencyKey.copy ((f.value.getD []).take keySize) }
  else .error .protocol

/-- `vireo_node_mkdir_request_encode`. -/
def nodeMkdirRequestEncode (v : NodeRequest NodeMkdir) (capacity : Nat) (frame : Cells UInt8 323) :
    Except Result Bytes :=
  nodeSchemaRequestEncode commandNodeMkdir mkdirGood (fun p => 36 + p.nameLength) putMkdir mkdirRules 3 v
    capacity frame.val

/-- `vireo_node_mkdir_request_decode`. -/
def nodeMkdirRequestDecode : Bytes → NodeRequest NodeMkdir → NodeDecoded (NodeRequest NodeMkdir) :=
  nodeRequestDecode (sizeCheck fun size => size < 69 ∨ size > 323) commandNodeMkdir (fun _ => False)
    (nodeRead mkdirRules 3 textIssue readMkdirField .zero mkdirRead)

/-- The body of a request of MKDIR. -/
def mkdirPayload : NodePayload NodeMkdir where
  Good p := mkdirGood p = true ∧ (nameRule tlvName).Fits (p.name.val.take p.nameLength)
  fields p := [.ofU64 tlvParentId p.parentId, nameField tlvName p.name p.nameLength, keyField p.idempotencyKey]
  trimmed p := { p with name := trimName p.name p.nameLength }

theorem mkdirGood_iff : mkdirGood p = true ↔
    mkdirRead p = true ∧ p.nameLength ≠ 0 ∧ p.nameLength ≤ nameCapacity := by
  unfold mkdirGood mkdirRead
  simp only [Bool.and_eq_true, decide_eq_true_iff]
  tauto

variable {p : NodeMkdir}

theorem length_mkdirPayload (h : p.nameLength ≤ nameCapacity) :
    (mkdirPayload.body p).length = 36 + p.nameLength := by
  unfold NodePayload.body mkdirPayload
  simp only [Coding.encodeAll_cons, Coding.encodeAll_nil, length_append, length_nil,
    length_encode_ofU64, length_encode_nameField _ _ h, length_encode_keyField]
  omega

theorem mkdirPayload_writes (h : mkdirGood p = true) :
    mkdirPayload.Writes (fun p => 36 + p.nameLength) putMkdir 323 p := by
  obtain ⟨-, -, hle⟩ := (mkdirGood_iff p).mp h
  have hlen := length_mkdirPayload hle
  rw [nameCapacity] at hle
  refine ⟨hlen.symm, fun w => ?_, by omega, by rw [hlen, maxBodySize]; omega⟩
  unfold putMkdir mkdirPayload nameField keyField
  simp only [foldlM_cons, foldlM_nil, bind_pure, putField_u64,
    putField_take _ (length_take_name p.name hle), putField_bytes _ p.idempotencyKey.property]

theorem valid_mkdirRules : ValidRules mkdirRules := (rulesAreValid_iff (some mkdirRules)).mp (by decide)

theorem accepted_mkdir (h : (nameRule tlvName).Fits (p.name.val.take p.nameLength)) :
    Accepted mkdirRules .reject (mkdirPayload.body p) (mkdirPayload.fields p) := by
  refine accepted_of_types valid_mkdirRules rfl ?_
  unfold mkdirPayload
  simp only [forall_mem_cons]
  exact ⟨⟨idRule tlvParentId, by decide, rfl, fits_u64 0x0402 true false _⟩,
    ⟨nameRule tlvName, by decide, rfl, h⟩, ⟨keyRule, by decide, rfl, fits_key _⟩, by simp⟩

/-- What a field does to the value. -/
def putMkdirField (f : TlvField) (p : NodeMkdir) : NodeMkdir where
  parentId := if f.type = tlvParentId then readU64Be f.value else p.parentId
  name := if f.type = tlvName then p.name.copy f.value else p.name
  nameLength := if f.type = tlvName then f.value.length else p.nameLength
  idempotencyKey := if f.type = tlvIdempotencyKey then p.idempotencyKey.copy f.value else p.idempotencyKey

section Mkdir

variable {fields : List TlvField} {s : Bytes}

theorem readMkdirField_eq (h : Accepted mkdirRules .reject s fields) :
    ∀ f ∈ fields, ∀ p, readMkdirField p f.view = .ok (putMkdirField f p) := by
  intro f hf p
  obtain ⟨rule, hrule, htype, hfits⟩ := h.ruled hf
  have hview : f.view.type = f.type := rfl
  have hall : (f.view.value.getD []).take f.view.length = f.value := take_length
  unfold readMkdirField putMkdirField
  rw [hview, hall]
  simp only [mkdirRules, mem_cons, not_mem_nil, or_false] at hrule
  rcases hrule with rfl | rfl | rfl
  · have hid : f.type = tlvParentId := htype
    rw [hid, readU64_of_length (hfits.length.2.2 8 rfl)]
    rfl
  · have hname : f.type = tlvName := htype
    rw [hname]
    rfl
  · have hkey : f.type = tlvIdempotencyKey := htype
    have hcut : (f.view.value.getD []).take keySize = f.value := take_of_length_le hfits.length.2.1
    rw [hkey, hcut]
    rfl

theorem putMkdirField_comm (f g : TlvField) (hne : f.type ≠ g.type) (p : NodeMkdir) :
    putMkdirField f (putMkdirField g p) = putMkdirField g (putMkdirField f p) := by
  unfold putMkdirField
  simp only [NodeMkdir.mk.injEq]
  exact ⟨ite_type_comm hne _ _ _, ite_put_comm hne (·.copy f.value) (·.copy g.value) p.name,
    ite_type_comm hne _ _ _, ite_put_comm hne (·.copy f.value) (·.copy g.value) p.idempotencyKey⟩

theorem mkdirPayload_held :
    mkdirPayload.Held (fun p => p.nameLength ≤ nameCapacity) mkdirRules readMkdirField .zero mkdirRead where
  table := valid_mkdirRules
  size p hp := by
    obtain ⟨-, -, hle⟩ := (mkdirGood_iff p).mp hp.1
    rw [length_mkdirPayload hle, maxBodySize]
    rw [nameCapacity] at hle
    omega
  proper p hp := ((mkdirGood_iff p).mp hp.1).2.2
  fits p hp := ⟨accepted_mkdir hp.2, ((mkdirGood_iff p).mp hp.1).1⟩
  holds s fields h := by
    obtain ⟨fields', hperm, htypes⟩ := h.ordered valid_mkdirRules (by decide) (by decide)
    have hfits := (h.perm hperm).fits
    obtain ⟨f, l, rfl, hf, hl⟩ := map_eq_cons_iff.mp htypes
    obtain ⟨g, l, rfl, hg, hl⟩ := map_eq_cons_iff.mp hl
    obtain ⟨k, l, rfl, hk, hl⟩ := map_eq_cons_iff.mp hl
    cases map_eq_nil_iff.mp hl
    have hid := hfits f (by simp) (idRule tlvParentId) (by simp [mkdirRules]) hf.symm
    have hname := hfits g (by simp) (nameRule tlvName) (by simp [mkdirRules]) hg.symm
    have hkey := hfits k (by simp) keyRule (by simp [mkdirRules]) hk.symm
    obtain ⟨hpos, hle⟩ := le_of_nameFits hname
    have hlen : k.value.length = keySize := Nat.le_antisymm hkey.length.2.1 hkey.length.1
    have hfield : [.ofU64 tlvParentId (readU64Be f.value),
        nameField tlvName ((Cells.fill _ 0).copy g.value) g.value.length, keyField ⟨k.value, hlen⟩] =
        [f, g, k] := by
      have hgt : g.type = tlvName := hg
      rw [nameField_copy hgt hle, keyField_eq hk hlen]
      exact congrArg (fun f => [f, g, k]) (eq_ofU64 hf (hid.length.2.2 8 rfl)).symm
    refine ⟨⟨readU64Be f.value, (Cells.fill _ 0).copy g.value, g.value.length, ⟨k.value, hlen⟩⟩, hle, ?_,
      (List.Perm.of_eq hfield).trans hperm.symm, fun hgood => ⟨(mkdirGood_iff _).mpr
        ⟨hgood, Nat.ne_of_gt hpos, hle⟩, ?_⟩⟩
    · show (⟨_, trimName _ _, _, _⟩ : NodeMkdir) = _
      rw [trimName_copy hle]
    · show (nameRule tlvName).Fits (((Cells.fill _ 0).copy g.value).val.take g.value.length)
      rw [Cells.take_copy _ hle]
      exact hname
  fold s fields p h hle hperm := by
    refine (foldlM_put (readMkdirField_eq h) putMkdirField_comm (h.nodup (by decide)) hperm.symm
      NodeMkdir.zero).trans (congrArg Except.ok ?_)
    show (⟨readU64Be (TlvField.ofU64 tlvParentId p.parentId).value, trimName p.name p.nameLength,
      (p.name.val.take p.nameLength).length, (Cells.fill _ 0).copy p.idempotencyKey.val⟩ : NodeMkdir) = _
    rw [readU64Be_ofU64, length_take_name _ hle, Cells.copy_full]
    rfl

theorem nodeMkdirRequest_roundTrips :
    (mkdirPayload.request commandNodeMkdir).RoundTrips nodeMkdirRequestEncode nodeMkdirRequestDecode := by
  refine (mkdirPayload_held.reads (Nat.le_refl 3) fun _ _ => not_false).request_roundTrips rfl rfl
    (fun p hp => ?_) (nodeSchemaRequest_encodes valid_mkdirRules (Nat.le_refl 3) (fun _ hp => hp.1)
      (fun _ hp => mkdirPayload_writes hp) fun p hp => ⟨fun ⟨fields, h⟩ => ⟨hp, ?_⟩, fun h =>
        ⟨_, accepted_mkdir h.2⟩⟩)
  · obtain ⟨-, hpos, hle⟩ := (mkdirGood_iff p).mp hp.1
    have hlen := length_mkdirPayload hle
    rw [nameCapacity] at hle
    rw [hlen]
    exact sizeCheck_of (by omega)
  · exact (accepted_written h).fits (nameField tlvName p.name p.nameLength) (by simp [mkdirPayload])
      (nameRule tlvName) (by simp [mkdirRules]) rfl

end Mkdir

/-! ## 3. MOVE -/

/-- `node_id`, `new_parent_id`, `new_name`, `new_name_length` and `idempotency_key` of
    `vireo_node_move_request_t`. -/
structure NodeMove where
  nodeId : UInt64
  newParentId : UInt64
  newName : Cells UInt8 nameCapacity
  newNameLength : Nat
  idempotencyKey : Cells UInt8 keySize

def NodeMove.zero : NodeMove := ⟨0, 0, .fill _ 0, 0, .fill _ 0⟩

/-- `VIREO_NODE_MOVE_TLV_NEW_PARENT_ID` and `VIREO_NODE_MOVE_TLV_NEW_NAME`. -/
def tlvNewParentId : UInt16 := 0x0430
def tlvNewName : UInt16 := 0x0431

/-- `request_rules` of MOVE. -/
def moveRules : List TlvRule := [idRule tlvNodeId, keyRule, idRule tlvNewParentId, nameRule tlvNewName]

/-- What the encoder checks before it writes. -/
def moveGood (p : NodeMove) : Bool :=
  p.nodeId ≠ 0 && p.newParentId ≠ 0 && p.newNameLength ≠ 0 && decide (p.newNameLength ≤ nameCapacity) &&
    !zeroBytes p.idempotencyKey.val

/-- What the decoder checks in the end. -/
def moveRead (p : NodeMove) : Bool := p.nodeId ≠ 0 && p.newParentId ≠ 0 && !zeroBytes p.idempotencyKey.val

/-- The fields are written. -/
def putMove (p : NodeMove) (w : TlvWriter) : Except Result TlvWriter := do
  let w ← chain (w.putU64 tlvNodeId p.nodeId)
  let w ← chain (w.put tlvIdempotencyKey (some p.idempotencyKey.val) keySize)
  let w ← chain (w.putU64 tlvNewParentId p.newParentId)
  chain (w.put tlvNewName (some p.newName.val) p.newNameLength)

/-- The switch of `read_request`. -/
def readMoveField (p : NodeMove) (f : TlvView) : Except Result NodeMove :=
  if f.type = tlvNodeId then f.readU64.map fun v => { p with nodeId := v }
  else if f.type = tlvNewParentId then f.readU64.map fun v => { p with newParentId := v }
  else if f.type = tlvNewName then
    .ok { p with newNameLength := f.length, newName := p.newName.copy ((f.value.getD []).take f.length) }
  else if f.type = tlvIdempotencyKey then
    .ok { p with idempotencyKey := p.idempotencyKey.copy ((f.value.getD []).take keySize) }
  else .error .protocol

/-- `vireo_node_move_request_encode`. -/
def nodeMoveRequestEncode (v : NodeRequest NodeMove) (capacity : Nat) (frame : Cells UInt8 335) :
    Except Result Bytes :=
  nodeSchemaRequestEncode commandNodeMove moveGood (fun p => 48 + p.newNameLength) putMove moveRules 4 v
    capacity frame.val

/-- `vireo_node_move_request_decode`. -/
def nodeMoveRequestDecode : Bytes → NodeRequest NodeMove → NodeDecoded (NodeRequest NodeMove) :=
  nodeRequestDecode (sizeCheck fun size => size < 81 ∨ size > 335) commandNodeMove (fun _ => False)
    (nodeRead moveRules 4 textIssue readMoveField .zero moveRead)

/-- The body of a request of MOVE. -/
def movePayload : NodePayload NodeMove where
  Good p := moveGood p = true ∧ (nameRule tlvNewName).Fits (p.newName.val.take p.newNameLength)
  fields p := [.ofU64 tlvNodeId p.nodeId, keyField p.idempotencyKey, .ofU64 tlvNewParentId p.newParentId,
    nameField tlvNewName p.newName p.newNameLength]
  trimmed p := { p with newName := trimName p.newName p.newNameLength }

theorem moveGood_iff (p : NodeMove) : moveGood p = true ↔
    moveRead p = true ∧ p.newNameLength ≠ 0 ∧ p.newNameLength ≤ nameCapacity := by
  unfold moveGood moveRead
  simp only [Bool.and_eq_true, decide_eq_true_iff]
  tauto

theorem length_movePayload {p : NodeMove} (h : p.newNameLength ≤ nameCapacity) :
    (movePayload.body p).length = 48 + p.newNameLength := by
  unfold NodePayload.body movePayload
  simp only [Coding.encodeAll_cons, Coding.encodeAll_nil, length_append, length_nil,
    length_encode_ofU64, length_encode_nameField _ _ h, length_encode_keyField]
  omega

theorem movePayload_writes {p : NodeMove} (h : moveGood p = true) :
    movePayload.Writes (fun p => 48 + p.newNameLength) putMove 335 p := by
  obtain ⟨-, -, hle⟩ := (moveGood_iff p).mp h
  have hlen := length_movePayload hle
  rw [nameCapacity] at hle
  refine ⟨hlen.symm, fun w => ?_, by omega, by rw [hlen, maxBodySize]; omega⟩
  unfold putMove movePayload nameField keyField
  simp only [foldlM_cons, foldlM_nil, bind_pure, putField_u64,
    putField_take _ (length_take_name p.newName hle), putField_bytes _ p.idempotencyKey.property]

theorem valid_moveRules : ValidRules moveRules := (rulesAreValid_iff (some moveRules)).mp (by decide)

theorem accepted_move {p : NodeMove} (h : (nameRule tlvNewName).Fits (p.newName.val.take p.newNameLength)) :
    Accepted moveRules .reject (movePayload.body p) (movePayload.fields p) := by
  refine accepted_of_types valid_moveRules rfl ?_
  unfold movePayload
  simp only [forall_mem_cons]
  exact ⟨⟨idRule tlvNodeId, by decide, rfl, fits_u64 0x0401 true false _⟩,
    ⟨keyRule, by decide, rfl, fits_key _⟩, ⟨idRule tlvNewParentId, by decide, rfl, fits_u64 0x0430 true false _⟩,
    ⟨nameRule tlvNewName, by decide, rfl, h⟩, by simp⟩

/-- What a field does to the value. -/
def putMoveField (f : TlvField) (p : NodeMove) : NodeMove where
  nodeId := if f.type = tlvNodeId then readU64Be f.value else p.nodeId
  newParentId := if f.type = tlvNewParentId then readU64Be f.value else p.newParentId
  newName := if f.type = tlvNewName then p.newName.copy f.value else p.newName
  newNameLength := if f.type = tlvNewName then f.value.length else p.newNameLength
  idempotencyKey := if f.type = tlvIdempotencyKey then p.idempotencyKey.copy f.value else p.idempotencyKey

section Move

variable {fields : List TlvField} {s : Bytes}

theorem readMoveField_eq (h : Accepted moveRules .reject s fields) :
    ∀ f ∈ fields, ∀ p, readMoveField p f.view = .ok (putMoveField f p) := by
  intro f hf p
  obtain ⟨rule, hrule, htype, hfits⟩ := h.ruled hf
  have hview : f.view.type = f.type := rfl
  have hall : (f.view.value.getD []).take f.view.length = f.value := take_length
  unfold readMoveField putMoveField
  rw [hview, hall]
  simp only [moveRules, mem_cons, not_mem_nil, or_false] at hrule
  rcases hrule with rfl | rfl | rfl | rfl
  · have hid : f.type = tlvNodeId := htype
    rw [hid, readU64_of_length (hfits.length.2.2 8 rfl)]
    rfl
  · have hkey : f.type = tlvIdempotencyKey := htype
    have hcut : (f.view.value.getD []).take keySize = f.value := take_of_length_le hfits.length.2.1
    rw [hkey, hcut]
    rfl
  · have hparent : f.type = tlvNewParentId := htype
    rw [hparent, readU64_of_length (hfits.length.2.2 8 rfl)]
    rfl
  · have hname : f.type = tlvNewName := htype
    rw [hname]
    rfl

theorem putMoveField_comm (f g : TlvField) (hne : f.type ≠ g.type) (p : NodeMove) :
    putMoveField f (putMoveField g p) = putMoveField g (putMoveField f p) := by
  unfold putMoveField
  simp only [NodeMove.mk.injEq]
  exact ⟨ite_type_comm hne _ _ _, ite_type_comm hne _ _ _,
    ite_put_comm hne (·.copy f.value) (·.copy g.value) p.newName, ite_type_comm hne _ _ _,
    ite_put_comm hne (·.copy f.value) (·.copy g.value) p.idempotencyKey⟩

theorem movePayload_held :
    movePayload.Held (fun p => p.newNameLength ≤ nameCapacity) moveRules readMoveField .zero moveRead where
  table := valid_moveRules
  size p hp := by
    obtain ⟨-, -, hle⟩ := (moveGood_iff p).mp hp.1
    rw [length_movePayload hle, maxBodySize]
    rw [nameCapacity] at hle
    omega
  proper p hp := ((moveGood_iff p).mp hp.1).2.2
  fits p hp := ⟨accepted_move hp.2, ((moveGood_iff p).mp hp.1).1⟩
  holds s fields h := by
    obtain ⟨fields', hperm, htypes⟩ := h.ordered valid_moveRules (by decide) (by decide)
    have hfits := (h.perm hperm).fits
    obtain ⟨f, l, rfl, hf, hl⟩ := map_eq_cons_iff.mp htypes
    obtain ⟨k, l, rfl, hk, hl⟩ := map_eq_cons_iff.mp hl
    obtain ⟨g, l, rfl, hg, hl⟩ := map_eq_cons_iff.mp hl
    obtain ⟨n, l, rfl, hn, hl⟩ := map_eq_cons_iff.mp hl
    cases map_eq_nil_iff.mp hl
    have hid := hfits f (by simp) (idRule tlvNodeId) (by simp [moveRules]) hf.symm
    have hkey := hfits k (by simp) keyRule (by simp [moveRules]) hk.symm
    have hparent := hfits g (by simp) (idRule tlvNewParentId) (by simp [moveRules]) hg.symm
    have hname := hfits n (by simp) (nameRule tlvNewName) (by simp [moveRules]) hn.symm
    obtain ⟨hpos, hle⟩ := le_of_nameFits hname
    have hlen : k.value.length = keySize := Nat.le_antisymm hkey.length.2.1 hkey.length.1
    have hfield : [.ofU64 tlvNodeId (readU64Be f.value), keyField ⟨k.value, hlen⟩,
        .ofU64 tlvNewParentId (readU64Be g.value),
        nameField tlvNewName ((Cells.fill _ 0).copy n.value) n.value.length] = [f, k, g, n] := by
      have hnt : n.type = tlvNewName := hn
      rw [nameField_copy hnt hle, keyField_eq hk hlen]
      exact congrArg₂ (fun f g => [f, k, g, n]) (eq_ofU64 hf (hid.length.2.2 8 rfl)).symm
        (eq_ofU64 hg (hparent.length.2.2 8 rfl)).symm
    refine ⟨⟨readU64Be f.value, readU64Be g.value, (Cells.fill _ 0).copy n.value, n.value.length,
      ⟨k.value, hlen⟩⟩, hle, ?_, (List.Perm.of_eq hfield).trans hperm.symm, fun hgood =>
        ⟨(moveGood_iff _).mpr ⟨hgood, Nat.ne_of_gt hpos, hle⟩, ?_⟩⟩
    · show (⟨_, _, trimName _ _, _, _⟩ : NodeMove) = _
      rw [trimName_copy hle]
    · show (nameRule tlvNewName).Fits (((Cells.fill _ 0).copy n.value).val.take n.value.length)
      rw [Cells.take_copy _ hle]
      exact hname
  fold s fields p h hle hperm := by
    refine (foldlM_put (readMoveField_eq h) putMoveField_comm (h.nodup (by decide)) hperm.symm
      NodeMove.zero).trans (congrArg Except.ok ?_)
    show (⟨readU64Be (TlvField.ofU64 tlvNodeId p.nodeId).value,
      readU64Be (TlvField.ofU64 tlvNewParentId p.newParentId).value, trimName p.newName p.newNameLength,
      (p.newName.val.take p.newNameLength).length, (Cells.fill _ 0).copy p.idempotencyKey.val⟩ : NodeMove) = _
    rw [readU64Be_ofU64, readU64Be_ofU64, length_take_name _ hle, Cells.copy_full]
    rfl

theorem nodeMoveRequest_roundTrips :
    (movePayload.request commandNodeMove).RoundTrips nodeMoveRequestEncode nodeMoveRequestDecode := by
  refine (movePayload_held.reads (Nat.le_refl 4) fun _ _ => not_false).request_roundTrips rfl rfl
    (fun p hp => ?_) (nodeSchemaRequest_encodes valid_moveRules (Nat.le_refl 4) (fun _ hp => hp.1)
      (fun _ hp => movePayload_writes hp) fun p hp => ⟨fun ⟨fields, h⟩ => ⟨hp, ?_⟩, fun h =>
        ⟨_, accepted_move h.2⟩⟩)
  · obtain ⟨-, hpos, hle⟩ := (moveGood_iff p).mp hp.1
    have hlen := length_movePayload hle
    rw [nameCapacity] at hle
    rw [hlen]
    exact sizeCheck_of (by omega)
  · exact (accepted_written h).fits (nameField tlvNewName p.newName p.newNameLength) (by simp [movePayload])
      (nameRule tlvNewName) (by simp [moveRules]) rfl

end Move

end Vireo.Protocol
