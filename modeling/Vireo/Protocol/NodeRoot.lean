/-
  File:      Vireo/Protocol/NodeRoot.lean
  Subject:   MESSAGES OF ONE NODE ID: the command ROOT (`src/protocol/node_root.c`) and the request of STAT
             (`src/protocol/node_stat.c`).
-/
import Vireo.Protocol.NodeMessage

namespace Vireo.Protocol

open Lib
open TlvReader (init init_over rest_over)

/-! ## 1. One field -/

/-- `root_rule`, and the first rule of STAT. -/
def nodeIdRule : TlvRule := ⟨0x0401, 8, 8, .u64, true, false⟩

/-- What the decoders do with a body of one rule: the only field is read, and must not be zero. -/
def readNodeId (rules : List TlvRule) (body : Bytes) : Except NodeIssue UInt64 :=
  let report := schemaValidate (some body) body.length (some rules) 1 .reject (some (List.replicate 1 0)) 1
  if report.result ≠ .ok then .error .fields
  else
    match init (some body) body.length with
    | .error _ => .error .fields
    | .ok reader =>
      let next := reader.next default
      if next.result ≠ .ok then .error .fields
      else
        match next.view.readU64 with
        | .error _ => .error .fields
        | .ok id => if id = 0 then .error .value else .ok id

section ReadNodeId

variable {rules : List TlvRule} {body : Bytes} {id : UInt64}

theorem valid_nodeIdRule : ValidRules [nodeIdRule] := (rulesAreValid_iff (some [nodeIdRule])).mp (by decide)

theorem accepted_nodeId {fields : List TlvField} (h : Accepted [nodeIdRule] .reject body fields) :
    ∃ id, fields = [.ofU64 tlvNodeId id] := by
  have htypes := List.perm_singleton.mp (h.types_perm_all valid_nodeIdRule (by decide) (by decide))
  obtain ⟨f, rfl, htype⟩ := List.map_eq_singleton_iff.mp htypes
  have hfits := h.fits f (by simp) nodeIdRule (by simp) htype.symm
  exact ⟨_, congrArg (fun f => [f]) (eq_ofU64 htype (hfits.length.2.2 8 rfl))⟩

theorem accepted_ofNodeId (id : UInt64) :
    Accepted [nodeIdRule] .reject (tlvCoding.encodeAll [.ofU64 tlvNodeId id]) [.ofU64 tlvNodeId id] := by
  refine accepted_of_types valid_nodeIdRule rfl fun f hf => ?_
  rw [List.mem_singleton.mp hf]
  exact ⟨nodeIdRule, by simp, rfl, fits_u64 0x0401 true false id⟩

theorem readNodeId_iff (hrules : rules.take 1 = [nodeIdRule]) :
    readNodeId rules body = .ok id ↔ id ≠ 0 ∧ body = tlvCoding.encodeAll [.ofU64 tlvNodeId id] := by
  have hlen : (List.replicate 1 (0 : UInt8)).length = 1 := rfl
  have hcount : 1 ≤ rules.length := by
    have htake := congrArg List.length hrules
    rw [List.length_take, List.length_singleton] at htake
    omega
  have hschema := @schema_prefix_iff _ body (List.replicate 1 0) _ (hrules ▸ valid_nodeIdRule) hcount
    (Nat.le_refl 1)
  rw [hlen, hrules] at hschema
  -- the field at the front of the body is the only one
  have hread : ∀ id', body = tlvCoding.encodeAll [.ofU64 tlvNodeId id'] →
      ((TlvReader.over body).next default).result = .ok ∧ ((TlvReader.over body).next default).view.readU64 = .ok id' := by
    intro id' hbody
    have hlook : tlvLook (TlvReader.over body).rest =
        .item (.ofU64 tlvNodeId id') (TlvField.ofU64 tlvNodeId id').encode.length := by
      rw [rest_over, hbody]
      exact tlvCoding.look_encode _ []
    have hnext := next_spec (TlvReader.sound_over body) default
    generalize (TlvReader.over body).next default = next at hnext ⊢
    cases hnext with
    | field f n look sound rest =>
      rw [hlook] at look
      cases look
      exact ⟨rfl, readU64_view _ _⟩
    | ended empty =>
      rw [rest_over, hbody] at empty
      cases empty
    | cutHeader some look short => rw [hlook] at look; cases look
    | cutValue some look long => rw [hlook] at look; cases look
  rw [readNodeId]
  constructor
  · intro h
    split at h
    · cases h
    rename_i hok
    obtain ⟨fields, haccepted⟩ := hschema.mp (not_not.mp hok)
    obtain ⟨id', rfl⟩ := accepted_nodeId haccepted
    obtain ⟨hresult, hview⟩ := hread id' haccepted.all
    rw [init_over] at h
    dsimp only at h
    rw [if_neg (not_not.mpr hresult), hview] at h
    dsimp only at h
    split at h
    · cases h
    rename_i hnonzero
    cases h
    exact ⟨hnonzero, haccepted.all⟩
  · intro ⟨hnonzero, hbody⟩
    obtain ⟨hresult, hview⟩ := hread id hbody
    have hok := hschema.mpr ⟨_, hbody ▸ accepted_ofNodeId id⟩
    rw [if_neg (not_not.mpr hok), init_over]
    dsimp only
    rw [if_neg (not_not.mpr hresult), hview]
    exact if_neg hnonzero

end ReadNodeId

/-! ## 2. ROOT -/

/-- `VIREO_COMMAND_NODE_ROOT`. -/
def commandNodeRoot : UInt16 := 0x0406

/-- `status_allowed` of ROOT. -/
def rootStatuses : List UInt16 :=
  [0, 1001, 1002, 1004, 1005, 1006, 1007, 1008, 1101, 1901, 1902, 1906, 1907, 1908]

/-- `vireo_node_root_request_encode`: the bytes that are copied to the output; `frame` is its local
    buffer. -/
def nodeRootRequestEncode (v : NodeRequest Unit) (capacity : Nat) (frame : Cells UInt8 32) :
    Except Result Bytes :=
  if v.sequence = 0 then .error .invalidArgument
  else if capacity < 32 then .error .range
  else publish (nodeHeader commandNodeRoot 0 0 0 v.sequence v.sessionHandle) frame.val 32

/-- `vireo_node_root_request_decode`. -/
def nodeRootRequestDecode : Bytes → NodeRequest Unit → NodeDecoded (NodeRequest Unit) :=
  nodeRequestDecode (sizeCheck fun size => size > 32) commandNodeRoot (fun n => n ≠ 0) fun _ => .ok ()

/-- `vireo_node_root_response_encode`. -/
def nodeRootResponseEncode (v : NodeResponse UInt64) (capacity : Nat) (frame : Cells UInt8 44) :
    Except Result Bytes :=
  nodeResponseEncode commandNodeRoot rootStatuses (fun id => id ≠ 0) (fun id => id = 0) (fun _ => 12)
    (fun id w => TlvWriter.chain (w.putU64 tlvNodeId id)) v capacity frame.val

/-- `vireo_node_root_response_decode`. -/
def nodeRootResponseDecode : Bytes → NodeResponse UInt64 → NodeDecoded (NodeResponse UInt64) :=
  nodeResponseDecode (sizeCheck fun size => size > 44) commandNodeRoot rootStatuses (fun _ => False) 0
    (readNodeId [nodeIdRule])

/-- A body without anything in it. -/
def emptyPayload : NodePayload Unit := ⟨fun _ => True, fun _ => [], id⟩

/-- A body of one node id. -/
def nodeIdPayload : NodePayload UInt64 := ⟨fun id => id ≠ 0, fun id => [.ofU64 tlvNodeId id], id⟩

theorem length_nodeIdPayload (id : UInt64) : (nodeIdPayload.body id).length = 12 := rfl

theorem nodeIdPayload_writes {n : Nat} (hn : 44 ≤ n) (id : UInt64) :
    nodeIdPayload.Writes (fun _ => 12) (fun id w => TlvWriter.chain (w.putU64 tlvNodeId id)) n id :=
  ⟨(length_nodeIdPayload id).symm, fun _ => (bind_pure _).symm, by rw [length_nodeIdPayload]; omega,
    by rw [length_nodeIdPayload]; decide⟩

theorem nodeIdPayload_reads {refuse : UInt32 → Prop} {rules : List TlvRule} (h : rules.take 1 = [nodeIdRule])
    (hrefuse : ¬ refuse 12) : nodeIdPayload.Reads refuse (readNodeId rules) := by
  refine ⟨fun id _ => ⟨?_, ?_⟩, fun id hid => ?_, fun n body id _ _ hread => ?_⟩
  · rw [length_nodeIdPayload]
    decide
  · rw [length_nodeIdPayload]
    exact hrefuse
  · exact (readNodeId_iff h).mpr ⟨hid, rfl⟩
  · obtain ⟨hid, hbody⟩ := (readNodeId_iff h).mp hread
    exact ⟨hid, rfl, _, .refl _, hbody⟩

theorem nodeRootRequest_roundTrips :
    (emptyPayload.request commandNodeRoot).RoundTrips nodeRootRequestEncode nodeRootRequestDecode := by
  have hreads : emptyPayload.Reads (fun n => n ≠ 0) fun _ => .ok () := by
    refine ⟨fun _ _ => ⟨Nat.zero_le _, fun hne => hne rfl⟩, fun _ _ => rfl, fun n body _ hn hlen _ => ?_⟩
    refine ⟨trivial, rfl, [], .nil, List.length_eq_zero_iff.mp ?_⟩
    rw [← hlen, not_not.mp hn]
    rfl
  refine hreads.request_roundTrips rfl rfl (fun _ _ => rfl)
    (.of (fun v capacity frame hv => ?_) fun v capacity frame hv => ?_)
  · exact if_pos (not_not.mp fun hsequence => hv ⟨hsequence, trivial⟩)
  refine (if_neg hv.1).trans ?_
  rw [publish_empty]
  rfl

theorem nodeRootResponse_roundTrips :
    (nodeIdPayload.response commandNodeRoot rootStatuses 0).RoundTrips nodeRootResponseEncode
      nodeRootResponseDecode :=
  (nodeIdPayload_reads rfl not_false).response_roundTrips rfl rfl rfl
    (fun id _ => by rw [length_nodeIdPayload]; rfl) rfl
    (nodeResponse_encodes (fun _ => decide_eq_true_iff) (fun _ => decide_eq_true_iff) (fun _ _ => by decide)
      fun id _ => nodeIdPayload_writes (Nat.le_refl 44) id)

/-! ## 3. The request of STAT -/

/-- `VIREO_COMMAND_NODE_STAT`. -/
def commandNodeStat : UInt16 := 0x0402

/-- The `rules` of STAT. -/
def statRules : List TlvRule :=
  [⟨0x0401, 8, 8, .u64, true, false⟩, ⟨0x0402, 8, 8, .u64, false, false⟩,
    ⟨0x0403, 0, 255, .bytes, true, false⟩, ⟨0x0404, 2, 2, .u16, true, false⟩,
    ⟨0x0405, 8, 8, .u64, true, false⟩, ⟨0x0406, 8, 8, .u64, true, false⟩,
    ⟨0x0407, 8, 8, .u64, true, false⟩, ⟨0x0408, 32, 32, .bytes, false, false⟩]

/-- `vireo_node_stat_request_encode`. -/
def nodeStatRequestEncode (v : NodeRequest UInt64) (capacity : Nat) (frame : Cells UInt8 44) :
    Except Result Bytes :=
  nodeRequestEncode commandNodeStat (fun id => id ≠ 0) (fun _ => 12)
    (fun id w => TlvWriter.chain (w.putU64 tlvNodeId id)) v capacity frame.val

/-- `vireo_node_stat_request_decode`. -/
def nodeStatRequestDecode : Bytes → NodeRequest UInt64 → NodeDecoded (NodeRequest UInt64) :=
  nodeRequestDecode (fun _ => none) commandNodeStat (fun n => n ≠ 12) (readNodeId statRules)

theorem nodeStatRequest_roundTrips :
    (nodeIdPayload.request commandNodeStat).RoundTrips nodeStatRequestEncode nodeStatRequestDecode :=
  (nodeIdPayload_reads rfl (not_not.mpr rfl)).request_roundTrips rfl rfl (fun _ _ => rfl)
    (nodeRequest_encodes (fun _ => decide_eq_true_iff) fun id _ => nodeIdPayload_writes (Nat.le_refl 44) id)

end Vireo.Protocol
