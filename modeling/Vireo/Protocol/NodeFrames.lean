/-
  File:      Vireo/Protocol/NodeFrames.lean
  Subject:   THE FRAMES OF THE NODE COMMANDS: all ten codecs go there and back.
-/
import Vireo.Protocol.NodeStat

namespace Vireo.Protocol

open Lib

/-- What is decoded has a session and a payload when its status is OK, and neither when it is not. -/
def SessionIffOk {P : Type} (decode : Bytes → NodeResponse P → NodeDecoded (NodeResponse P)) : Prop :=
  ∀ wire out v, decode wire out = ⟨.ok, v, .none⟩ →
    (v.status = 0 ↔ v.sessionHandle ≠ 0) ∧ (v.status = 0 ↔ headerSize < wire.length)

/-- **Every response that goes there and back has a session and a payload iff its status is OK.** -/
theorem response_sessionIffOk {P : Type} {b : NodePayload P} {command : UInt16} {allowed : List UInt16} {zero : P}
    {n : Nat} {encode : NodeResponse P → Nat → Cells UInt8 n → Except Result Bytes}
    {decode : Bytes → NodeResponse P → NodeDecoded (NodeResponse P)}
    (h : (b.response command allowed zero).RoundTrips encode decode) (hsome : ∀ p, b.fields p ≠ []) :
    SessionIffOk decode := by
  intro wire out v hok
  obtain ⟨⟨-, -, hgood⟩, -⟩ := h.valid wire out v hok
  obtain ⟨fields, hperm, hwire⟩ := h.bytes wire out v hok
  have hlen : wire.length = headerSize + (tlvCoding.encodeAll fields).length := by
    rw [hwire, NodeMessage.frameOf, length_sealedFrame]
  by_cases hstatus : v.status = 0
  · rw [if_pos hstatus] at hgood
    have hfields : (b.response command allowed zero).fields v = b.fields v.payload := if_pos hstatus
    have hpos : 0 < (tlvCoding.encodeAll fields).length := by
      rw [← NodeMessage.length_encodeAll_perm hperm, hfields]
      cases hlist : b.fields v.payload with
      | nil => exact absurd hlist (hsome _)
      | cons f l =>
        have hf : (tlvCoding.encode f).length = tlvHeaderSize + f.value.length := TlvField.length_encode f
        rw [Coding.encodeAll_cons, List.length_append, hf, tlvHeaderSize]
        omega
    exact ⟨⟨fun _ => hgood.1, fun _ => hstatus⟩, ⟨fun _ => by omega, fun _ => hstatus⟩⟩
  · rw [if_neg hstatus] at hgood
    have hfields : (b.response command allowed zero).fields v = [] := if_neg hstatus
    rw [hfields] at hperm
    have hnil : fields = [] := List.perm_nil.mp hperm.symm
    rw [hnil, Coding.encodeAll_nil] at hlen
    refine ⟨⟨fun hzero => absurd hzero hstatus, fun hne => absurd hgood.1 hne⟩,
      ⟨fun hzero => absurd hzero hstatus, fun hlong => ?_⟩⟩
    rw [hlen] at hlong
    exact absurd hlong (Nat.lt_irrefl _)

/-- **The frames of the node commands**: all requests and responses of STAT, MKDIR, MOVE, REMOVE and ROOT go
    there and back. -/
theorem node_frames :
    ((nodeIdPayload.request commandNodeStat).RoundTrips nodeStatRequestEncode nodeStatRequestDecode ∧
      (mkdirPayload.request commandNodeMkdir).RoundTrips nodeMkdirRequestEncode nodeMkdirRequestDecode ∧
      (movePayload.request commandNodeMove).RoundTrips nodeMoveRequestEncode nodeMoveRequestDecode ∧
      (keyPayload.request commandNodeRemove).RoundTrips nodeRemoveRequestEncode nodeRemoveRequestDecode ∧
      (emptyPayload.request commandNodeRoot).RoundTrips nodeRootRequestEncode nodeRootRequestDecode) ∧
    ((statPayload.response commandNodeStat statStatuses .zero).RoundTrips nodeStatResponseEncode
        nodeStatResponseDecode ∧
      (keyPayload.response commandNodeMkdir mkdirStatuses .zero).RoundTrips nodeMkdirResponseEncode
        nodeMkdirResponseDecode ∧
      (keyPayload.response commandNodeMove moveStatuses .zero).RoundTrips nodeMoveResponseEncode
        nodeMoveResponseDecode ∧
      (keyPayload.response commandNodeRemove removeStatuses .zero).RoundTrips nodeRemoveResponseEncode
        nodeRemoveResponseDecode ∧
      (nodeIdPayload.response commandNodeRoot rootStatuses 0).RoundTrips nodeRootResponseEncode
        nodeRootResponseDecode) ∧
    SessionIffOk nodeStatResponseDecode ∧ SessionIffOk nodeMkdirResponseDecode ∧
      SessionIffOk nodeMoveResponseDecode ∧ SessionIffOk nodeRemoveResponseDecode ∧
      SessionIffOk nodeRootResponseDecode := by
  refine ⟨⟨nodeStatRequest_roundTrips, nodeMkdirRequest_roundTrips, nodeMoveRequest_roundTrips,
    nodeRemoveRequest_roundTrips, nodeRootRequest_roundTrips⟩, ⟨nodeStatResponse_roundTrips,
    nodeMkdirResponse_roundTrips, nodeMoveResponse_roundTrips, nodeRemoveResponse_roundTrips,
    nodeRootResponse_roundTrips⟩, ?_, ?_, ?_, ?_, ?_⟩
  · exact response_sessionIffOk nodeStatResponse_roundTrips fun m => by simp [statPayload]
  · exact response_sessionIffOk nodeMkdirResponse_roundTrips fun k => by simp [keyPayload]
  · exact response_sessionIffOk nodeMoveResponse_roundTrips fun k => by simp [keyPayload]
  · exact response_sessionIffOk nodeRemoveResponse_roundTrips fun k => by simp [keyPayload]
  · exact response_sessionIffOk nodeRootResponse_roundTrips fun id => by simp [nodeIdPayload]

/-- A request of ROOT is decoded without session and payload, though its status is zero, which is OK in a
    response. -/
theorem request_without_session :
    ¬ ∀ wire out v, nodeRootRequestDecode wire out = ⟨.ok, v, .none⟩ →
      (readU16Be (wire.drop statusOffset) = 0 ↔ v.sessionHandle ≠ 0 ∧ headerSize < wire.length) := by
  intro hall
  have hvalid : (emptyPayload.request commandNodeRoot).Valid ⟨7, 0, ()⟩ := ⟨by decide, trivial⟩
  have hdecode := nodeRootRequest_roundTrips.there _ hvalid ⟨7, 0, ()⟩
  have hstatus := Header.fields_encoded
    (((emptyPayload.request commandNodeRoot).header ⟨7, 0, ()⟩).sealedWith []) []
  exact ((hall _ _ _ hdecode).mp hstatus.2.2.2.2.2.1).1 rfl

end Vireo.Protocol
