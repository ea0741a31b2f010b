/-
  File:      Vireo/Protocol/NodeKey.lean
  Subject:   MESSAGES OF A NODE ID AND A KEY: the command REMOVE (`src/protocol/node_remove.c`) and the
             responses of MKDIR and MOVE (`src/protocol/node_mkdir.c`, `node_move.c`).
-/
import Vireo.Protocol.NodeMessage

namespace Vireo.Protocol

open Lib List

/-! ## 1. The body -/

/-- `node_id` and `idempotency_key` of the requests and responses. -/
structure NodeKey where
  nodeId : UInt64
  idempotencyKey : Cells UInt8 keySize
deriving DecidableEq

def NodeKey.zero : NodeKey := ⟨0, .fill _ 0⟩

/-- `request_rules` of REMOVE, and `response_rules` of the three commands. -/
def keyRules : List TlvRule := [⟨0x0401, 8, 8, .u64, true, false⟩, ⟨0x0420, 16, 16, .bytes, true, false⟩]

variable (k : NodeKey)

/-- The checks of the encoders and decoders: there is an id, and a key. -/
def keyGood : Bool := k.nodeId ≠ 0 && !zeroBytes k.idempotencyKey.val

/-- What an error's response must not have. -/
def keyIsZero : Bool := k.nodeId = 0 && zeroBytes k.idempotencyKey.val

/-- The fields are written. -/
def putKey (w : TlvWriter) : Except Result TlvWriter := do
  let w ← TlvWriter.chain (w.putU64 tlvNodeId k.nodeId)
  TlvWriter.chain (w.put tlvIdempotencyKey (some k.idempotencyKey.val) keySize)

/-- One turn of the loop that reads the fields. REMOVE is `strict`: MKDIR and MOVE take every field that is
    not the node id for the key. -/
def readKeyField (strict : Bool) (k : NodeKey) (f : TlvView) : Except Result NodeKey :=
  if f.type = tlvNodeId then f.readU64.map fun v => { k with nodeId := v }
  else if strict = false ∨ f.type = tlvIdempotencyKey then
    .ok { k with idempotencyKey := k.idempotencyKey.copy ((f.value.getD []).take keySize) }
  else .error .protocol

/-- A body of a node id and a key. -/
def keyPayload : NodePayload NodeKey where
  Good k := keyGood k = true
  fields k := [.ofU64 tlvNodeId k.nodeId,
    ⟨tlvIdempotencyKey, k.idempotencyKey.val, by rw [k.idempotencyKey.property]; decide⟩]
  trimmed k := k

theorem length_keyPayload : (keyPayload.body k).length = 32 := by
  have hkey : k.idempotencyKey.val.length = 16 := k.idempotencyKey.property
  unfold NodePayload.body keyPayload
  rw [Coding.encodeAll_cons, Coding.encodeAll_cons, Coding.encodeAll_nil, length_append, List.append_nil]
  show (TlvField.encode _).length + (TlvField.encode _).length = 32
  rw [TlvField.length_encode, TlvField.length_encode]
  show 4 + 8 + (4 + k.idempotencyKey.val.length) = 32
  rw [hkey]

theorem keyPayload_writes {n : Nat} (hn : 64 ≤ n) (k : NodeKey) :
    keyPayload.Writes (fun _ => 32) putKey n k := by
  have hlen := length_keyPayload k
  refine ⟨hlen.symm, fun w => ?_, by omega, by rw [hlen]; decide⟩
  unfold putKey keyPayload
  simp only [foldlM_cons, foldlM_nil, bind_pure, putField_u64, putField_bytes _ k.idempotencyKey.property]

theorem keyIsZero_iff : keyIsZero k = true ↔ k = .zero := by
  obtain ⟨nodeId, key⟩ := k
  unfold keyIsZero NodeKey.zero
  rw [Bool.and_eq_true, zeroBytes_iff, decide_eq_true_iff, NodeKey.mk.injEq]

/-! ## 2. The reader of the body -/

theorem valid_keyRules : ValidRules keyRules := (rulesAreValid_iff (some keyRules)).mp (by decide)

/-- What a field does to the value. -/
def putKeyField (f : TlvField) (k : NodeKey) : NodeKey where
  nodeId := if f.type = tlvNodeId then readU64Be f.value else k.nodeId
  idempotencyKey := if f.type = tlvIdempotencyKey then k.idempotencyKey.copy f.value else k.idempotencyKey

section Read

variable {fields : List TlvField} {s body : Bytes} {strict : Bool}

theorem readKeyField_eq (h : Accepted keyRules .reject s fields) :
    ∀ f ∈ fields, ∀ k, readKeyField strict k f.view = .ok (putKeyField f k) := by
  intro f hf k
  obtain ⟨rule, hrule, htype, hfits⟩ := h.ruled hf
  have hview : f.view.type = f.type := rfl
  unfold readKeyField putKeyField
  rw [hview]
  simp only [keyRules, mem_cons, not_mem_nil, or_false] at hrule
  rcases hrule with heq | heq
  · subst heq
    have hid : f.type = tlvNodeId := htype
    rw [if_pos hid, if_pos hid, if_neg (by rw [hid]; decide), readU64_of_length (hfits.length.2.2 8 rfl)]
    rfl
  · subst heq
    have hkey : f.type = tlvIdempotencyKey := htype
    have hne : ¬ f.type = tlvNodeId := by
      rw [hkey]
      decide
    have hall : f.value.take keySize = f.value := take_of_length_le hfits.length.2.1
    rw [if_neg hne, if_neg hne, if_pos hkey, if_pos (.inr hkey)]
    show Except.ok { k with idempotencyKey := k.idempotencyKey.copy (f.value.take keySize) } = _
    rw [hall]

theorem ite_put_comm {α : Type} {x y t : UInt16} (hne : x ≠ y) (put put' : α → α) (a : α) :
    (if x = t then put (if y = t then put' a else a) else if y = t then put' a else a) =
      if y = t then put' (if x = t then put a else a) else if x = t then put a else a := by
  by_cases hx : x = t
  · have hy : ¬ y = t := fun hy => hne (hx.trans hy.symm)
    rw [if_pos hx, if_neg hy, if_neg hy, if_pos hx]
  · rw [if_neg hx, if_neg hx]

theorem putKeyField_comm (f g : TlvField) (hne : f.type ≠ g.type) (k : NodeKey) :
    putKeyField f (putKeyField g k) = putKeyField g (putKeyField f k) := by
  unfold putKeyField
  simp only [NodeKey.mk.injEq]
  exact ⟨ite_type_comm hne _ _ _, ite_put_comm hne (·.copy f.value) (·.copy g.value) k.idempotencyKey⟩

theorem readU64Be_ofU64 (type : UInt16) (id : UInt64) : readU64Be (TlvField.ofU64 type id).value = id := by
  simp [TlvField.ofU64]

theorem fold_key (h : Accepted keyRules .reject s fields) {k : NodeKey}
    (hperm : (keyPayload.fields k).Perm fields) :
    fields.foldlM (fun k f => readKeyField strict k f.view) .zero = .ok k := by
  refine (foldlM_put (readKeyField_eq h) putKeyField_comm (h.nodup (by decide)) hperm.symm
    NodeKey.zero).trans (congrArg Except.ok ?_)
  show (⟨readU64Be (TlvField.ofU64 tlvNodeId k.nodeId).value, (Cells.fill _ 0).copy k.idempotencyKey.val⟩ :
    NodeKey) = k
  rw [readU64Be_ofU64, Cells.copy_full]

theorem holds_key (h : Accepted keyRules .reject s fields) : ∃ k, (keyPayload.fields k).Perm fields := by
  obtain ⟨fields', hperm, htypes⟩ := h.ordered valid_keyRules (by decide) (by decide)
  have hfits := (h.perm hperm).fits
  obtain ⟨f, l, rfl, hf, hl⟩ := map_eq_cons_iff.mp htypes
  obtain ⟨g, l, rfl, hg, hl⟩ := map_eq_cons_iff.mp hl
  cases map_eq_nil_iff.mp hl
  have hid := hfits f (by simp) ⟨0x0401, 8, 8, .u64, true, false⟩ (by simp [keyRules]) hf.symm
  have hkey := hfits g (by simp) ⟨0x0420, 16, 16, .bytes, true, false⟩ (by simp [keyRules]) hg.symm
  have hlen : g.value.length = keySize := Nat.le_antisymm hkey.length.2.1 hkey.length.1
  refine ⟨⟨readU64Be f.value, ⟨g.value, hlen⟩⟩, List.Perm.trans (List.Perm.of_eq ?_) hperm.symm⟩
  exact congrArg₂ (fun f g => [f, g]) (eq_ofU64 hf (hid.length.2.2 8 rfl)).symm (eq_ofBytes hg g.length_le).symm

theorem accepted_key (k : NodeKey) : Accepted keyRules .reject (keyPayload.body k) (keyPayload.fields k) := by
  have hkey : k.idempotencyKey.val.length = 16 := k.idempotencyKey.property
  refine accepted_of_types valid_keyRules rfl ?_
  unfold keyPayload
  simp only [forall_mem_cons]
  exact ⟨⟨_, by decide, rfl, fits_u64 0x0401 true false _⟩,
    ⟨⟨0x0420, 16, 16, .bytes, true, false⟩, by decide, rfl, fits_bytes hkey.ge hkey.le⟩, by simp⟩

theorem keyPayload_held :
    keyPayload.Held (fun _ => True) keyRules (readKeyField strict) .zero keyGood where
  table := valid_keyRules
  size k _ := by
    rw [length_keyPayload]
    decide
  proper _ _ := trivial
  fits k hk := ⟨accepted_key k, hk⟩
  holds s fields h := by
    obtain ⟨k, hperm⟩ := holds_key h
    exact ⟨k, trivial, rfl, hperm, id⟩
  fold s fields k h _ hperm := fold_key h hperm

end Read

/-! ## 3. The codecs -/

/-- `VIREO_COMMAND_NODE_MKDIR`, `VIREO_COMMAND_NODE_REMOVE` and `VIREO_COMMAND_NODE_MOVE`. -/
def commandNodeMkdir : UInt16 := 0x0403
def commandNodeRemove : UInt16 := 0x0404
def commandNodeMove : UInt16 := 0x0405

/-- `status_allowed` of MKDIR, of MOVE and of REMOVE. -/
def mkdirStatuses : List UInt16 :=
  [0, 1001, 1002, 1004, 1005, 1006, 1007, 1008, 1101, 1201, 1202, 1203, 1206, 1901, 1902, 1904, 1906, 1907, 1908]
def moveStatuses : List UInt16 :=
  [0, 1001, 1002, 1004, 1005, 1006, 1007, 1008, 1101, 1201, 1102, 1203, 1206, 1901, 1902, 1904, 1906, 1907, 1908]
def removeStatuses : List UInt16 :=
  [0, 1001, 1002, 1004, 1005, 1006, 1007, 1008, 1101, 1201, 1102, 1203, 1206, 1205, 1901, 1902, 1904, 1906,
    1907, 1908]

/-- `schema` of MKDIR and MOVE tells texts that are none from other faults, that of REMOVE does not. -/
def textIssue (issue : TlvIssue) : NodeIssue :=
  if issue = .invalidUtf8 ∨ issue = .invalidName then .value else .fields

def fieldsIssue (_ : TlvIssue) : NodeIssue := .fields

/-- `vireo_node_remove_request_encode`. -/
def nodeRemoveRequestEncode (v : NodeRequest NodeKey) (capacity : Nat) (frame : Cells UInt8 64) :
    Except Result Bytes :=
  nodeSchemaRequestEncode commandNodeRemove keyGood (fun _ => 32) putKey keyRules 2 v capacity frame.val

/-- `vireo_node_remove_request_decode`. -/
def nodeRemoveRequestDecode : Bytes → NodeRequest NodeKey → NodeDecoded (NodeRequest NodeKey) :=
  nodeRequestDecode (sizeCheck fun size => size ≠ 64) commandNodeRemove (fun _ => False)
    (nodeRead keyRules 2 fieldsIssue (readKeyField true) .zero keyGood)

/-- The encoders of the responses. -/
def nodeKeyResponseEncode (command : UInt16) (allowed : List UInt16) (v : NodeResponse NodeKey) (capacity : Nat)
    (frame : Cells UInt8 64) : Except Result Bytes :=
  nodeResponseEncode command allowed keyGood keyIsZero (fun _ => 32) putKey v capacity frame.val

/-- The decoders of the responses. -/
def nodeKeyResponseDecode (command : UInt16) (allowed : List UInt16) (strict : Bool) (seen : Nat)
    (issueOf : TlvIssue → NodeIssue) : Bytes → NodeResponse NodeKey → NodeDecoded (NodeResponse NodeKey) :=
  nodeResponseDecode (sizeCheck fun size => size ≠ 32 ∧ size ≠ 64) command allowed (fun n => n ≠ 32) .zero
    (nodeRead keyRules seen issueOf (readKeyField strict) .zero keyGood)

/-- `vireo_node_mkdir_response_encode`, `vireo_node_move_response_encode` and
    `vireo_node_remove_response_encode`; the last one clears its frame first. -/
def nodeMkdirResponseEncode := nodeKeyResponseEncode commandNodeMkdir mkdirStatuses
def nodeMoveResponseEncode := nodeKeyResponseEncode commandNodeMove moveStatuses
def nodeRemoveResponseEncode (v : NodeResponse NodeKey) (capacity : Nat) (_ : Cells UInt8 64) :
    Except Result Bytes :=
  nodeKeyResponseEncode commandNodeRemove removeStatuses v capacity (.fill _ 0)

/-- `vireo_node_mkdir_response_decode`, `vireo_node_move_response_decode` and
    `vireo_node_remove_response_decode`. -/
def nodeMkdirResponseDecode := nodeKeyResponseDecode commandNodeMkdir mkdirStatuses false 3 textIssue
def nodeMoveResponseDecode := nodeKeyResponseDecode commandNodeMove moveStatuses false 4 textIssue
def nodeRemoveResponseDecode := nodeKeyResponseDecode commandNodeRemove removeStatuses true 2 fieldsIssue

theorem nodeRemoveRequest_roundTrips :
    (keyPayload.request commandNodeRemove).RoundTrips nodeRemoveRequestEncode nodeRemoveRequestDecode := by
  refine (keyPayload_held.reads (Nat.le_refl 2) fun _ _ => not_false).request_roundTrips rfl rfl (fun k _ => ?_)
    (nodeSchemaRequest_encodes valid_keyRules (Nat.le_refl 2) (fun _ => id)
      (fun k _ => keyPayload_writes (Nat.le_refl 64) k) fun k hk => ⟨fun _ => hk, fun _ => ⟨_, accepted_key k⟩⟩)
  rw [length_keyPayload]
  rfl

section Responses

variable {command : UInt16} {allowed : List UInt16}

theorem keyResponse_encodes :
    (keyPayload.response command allowed .zero).Encodes (nodeKeyResponseEncode command allowed) :=
  nodeResponse_encodes (fun _ => .rfl) keyIsZero_iff (fun _ _ => by decide)
    fun k _ => keyPayload_writes (Nat.le_refl 64) k

theorem keyResponse_roundTrips {strict : Bool} {seen : Nat} {issueOf : TlvIssue → NodeIssue}
    {encode : NodeResponse NodeKey → Nat → Cells UInt8 64 → Except Result Bytes} (hseen : 2 ≤ seen)
    (hknown : commandIsKnown command = true) (hreserved : commandIsReserved command = false)
    (hall : allowed.all statusIsKnown = true)
    (hencode : (keyPayload.response command allowed .zero).Encodes encode) :
    (keyPayload.response command allowed .zero).RoundTrips encode
      (nodeKeyResponseDecode command allowed strict seen issueOf) := by
  refine (keyPayload_held.reads hseen fun k _ => ?_).response_roundTrips hknown hreserved hall (fun k _ => ?_)
    rfl hencode
  · rw [length_keyPayload]
    decide
  · rw [length_keyPayload]
    rfl

theorem nodeMkdirResponse_roundTrips :
    (keyPayload.response commandNodeMkdir mkdirStatuses .zero).RoundTrips nodeMkdirResponseEncode
      nodeMkdirResponseDecode :=
  keyResponse_roundTrips (by decide) rfl rfl rfl keyResponse_encodes

theorem nodeMoveResponse_roundTrips :
    (keyPayload.response commandNodeMove moveStatuses .zero).RoundTrips nodeMoveResponseEncode
      nodeMoveResponseDecode :=
  keyResponse_roundTrips (by decide) rfl rfl rfl keyResponse_encodes

theorem nodeRemoveResponse_roundTrips :
    (keyPayload.response commandNodeRemove removeStatuses .zero).RoundTrips nodeRemoveResponseEncode
      nodeRemoveResponseDecode :=
  keyResponse_roundTrips (by decide) rfl rfl rfl
    ⟨fun v capacity _ => keyResponse_encodes.fits v capacity _, fun v capacity _ =>
      keyResponse_encodes.short v capacity _, fun v capacity _ => keyResponse_encodes.invalid v capacity _⟩

end Responses

end Vireo.Protocol
