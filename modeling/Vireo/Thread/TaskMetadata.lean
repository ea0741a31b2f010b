/-
  File:      Vireo/Thread/TaskMetadata.lean
  Subject:   WHO A TASK IS FOR (`src/thread/task_route.c`, `task_metadata.c`, `completion_metadata.c`).
-/
import Vireo.Protocol.Codec

namespace Vireo.Thread

open Protocol

/-- `vireo_task_route_t`. -/
structure TaskRoute where
  clientOwnerId : UInt64
  clientSlotIndex : UInt64
  clientGeneration : UInt64
  requestSequence : UInt32
deriving DecidableEq

/-- `route_has_valid_shape`. -/
def TaskRoute.hasValidShape (route : TaskRoute) : Bool :=
  let empty := route.clientOwnerId = 0 ∧ route.clientSlotIndex = 0 ∧ route.clientGeneration = 0 ∧
    route.requestSequence = 0
  let nonempty := route.clientOwnerId ≠ 0 ∧ route.clientGeneration ≠ 0 ∧ route.requestSequence ≠ 0
  empty ∨ nonempty

/-- `vireo_task_route_make`. -/
def TaskRoute.make (clientOwnerId clientSlotIndex clientGeneration : UInt64) (requestSequence : UInt32) :
    Except Result TaskRoute :=
  if clientOwnerId = 0 ∨ clientGeneration = 0 ∨ requestSequence = 0 then .error .invalidArgument
  else .ok ⟨clientOwnerId, clientSlotIndex, clientGeneration, requestSequence⟩

/-- `vireo_task_route_is_empty`. -/
def TaskRoute.isEmpty (route : TaskRoute) : Except Result Bool :=
  if route.hasValidShape = false then .error .invalidArgument else .ok (route.clientOwnerId = 0)

/-- `vireo_task_route_equal`. -/
def TaskRoute.equal (left right : TaskRoute) : Except Result Bool :=
  if left.hasValidShape = false ∨ right.hasValidShape = false then .error .invalidArgument
  else .ok (left.clientOwnerId = right.clientOwnerId ∧ left.clientSlotIndex = right.clientSlotIndex ∧
    left.clientGeneration = right.clientGeneration ∧ left.requestSequence = right.requestSequence)

/-- `vireo_task_metadata_t`. -/
structure TaskMetadata where
  route : TaskRoute
  requestInstanceId : UInt64
  operation : UInt32
  deadlineNs : UInt64
deriving DecidableEq

/-- `metadata_has_valid_shape`. -/
def TaskMetadata.hasValidShape (metadata : TaskMetadata) : Bool :=
  metadata.route.isEmpty = .ok false && metadata.requestInstanceId ≠ 0 && metadata.operation ≠ 0

/-- `vireo_task_metadata_make`. -/
def TaskMetadata.make (route : TaskRoute) (requestInstanceId : UInt64) (operation : UInt32)
    (deadlineNs : UInt64) : Except Result TaskMetadata :=
  let value : TaskMetadata := ⟨route, requestInstanceId, operation, deadlineNs⟩
  if value.hasValidShape = false then .error .invalidArgument else .ok value

/-- `vireo_task_metadata_same_request`. -/
def TaskMetadata.sameRequest (left right : TaskMetadata) : Except Result Bool :=
  if left.hasValidShape = false ∨ right.hasValidShape = false then .error .invalidArgument
  else
    match left.route.equal right.route with
    | .error e => .error e
    | .ok sameRoute => .ok (sameRoute && left.requestInstanceId = right.requestInstanceId)

/-- `vireo_completion_metadata_t`. -/
structure CompletionMetadata where
  request : TaskMetadata
  result : Result
  suggestedStatus : UInt16
deriving DecidableEq

/-- `metadata_has_valid_shape` of a completion. Every `Result` is a defined one. -/
def CompletionMetadata.hasValidShape (metadata : CompletionMetadata) : Bool :=
  metadata.request.sameRequest metadata.request = .ok true && statusIsKnown metadata.suggestedStatus

/-- `vireo_completion_metadata_make`. -/
def CompletionMetadata.make (request : TaskMetadata) (result : Result) (suggestedStatus : UInt16) :
    Except Result CompletionMetadata :=
  let value : CompletionMetadata := ⟨request, result, suggestedStatus⟩
  if value.hasValidShape = false then .error .invalidArgument else .ok value

/-! ## What the checks mean -/

/-- A request of a client: what the shape check of metadata accepts. -/
structure TaskMetadata.Valid (m : TaskMetadata) : Prop where
  owner : m.route.clientOwnerId ≠ 0
  generation : m.route.clientGeneration ≠ 0
  sequence : m.route.requestSequence ≠ 0
  instanceId : m.requestInstanceId ≠ 0
  operation : m.operation ≠ 0

/-- Two tasks are for one request: route and instance agree. -/
def TaskMetadata.SameRequest (m n : TaskMetadata) : Prop :=
  m.route = n.route ∧ m.requestInstanceId = n.requestInstanceId

instance (m n : TaskMetadata) : Decidable (m.SameRequest n) := inferInstanceAs (Decidable (_ ∧ _))

section Checks

variable {m n : TaskMetadata}

theorem TaskMetadata.hasValidShape_iff : m.hasValidShape = true ↔ m.Valid := by
  obtain ⟨⟨owner, slot, generation, sequence⟩, instanceId, operation, deadline⟩ := m
  unfold TaskMetadata.hasValidShape TaskRoute.isEmpty TaskRoute.hasValidShape
  constructor
  · intro h
    simp only [Bool.and_eq_true, decide_eq_true_eq, decide_eq_false_iff_not] at h
    obtain ⟨⟨hroute, hinstance⟩, hoperation⟩ := h
    split at hroute
    · cases hroute
    rename_i hshape
    have howner : owner ≠ 0 := by simpa using hroute
    have hnonempty : generation ≠ 0 ∧ sequence ≠ 0 := by
      simp only [howner, false_and, false_or, not_and, ne_eq, not_false_eq_true, true_and] at hshape
      simpa using hshape
    exact ⟨howner, hnonempty.1, hnonempty.2, hinstance, hoperation⟩
  · intro ⟨howner, hgeneration, hsequence, hinstance, hoperation⟩
    simp at howner hgeneration hsequence hinstance hoperation
    simp [howner, hgeneration, hsequence, hinstance, hoperation]

theorem TaskMetadata.make_eq (m : TaskMetadata) :
    TaskMetadata.make m.route m.requestInstanceId m.operation m.deadlineNs =
      if m.hasValidShape = false then .error .invalidArgument else .ok m := rfl

theorem TaskMetadata.sameRequest_eq (hm : m.Valid) (hn : n.Valid) :
    m.sameRequest n = .ok (decide (m.SameRequest n)) := by
  have hshape : ∀ {k : TaskMetadata}, k.Valid → k.route.hasValidShape = true := fun hk => by
    unfold TaskRoute.hasValidShape
    simp [hk.owner, hk.generation, hk.sequence]
  unfold TaskMetadata.sameRequest TaskRoute.equal
  rw [hasValidShape_iff.mpr hm, hasValidShape_iff.mpr hn, hshape hm, hshape hn]
  simp only [Bool.true_eq_false, or_self, if_false, Except.ok.injEq]
  rw [Bool.eq_iff_iff]
  obtain ⟨⟨o, s, g, q⟩, i, op, d⟩ := m
  obtain ⟨⟨o', s', g', q'⟩, i', op', d'⟩ := n
  simp [TaskMetadata.SameRequest, and_assoc]

theorem CompletionMetadata.make_eq (c : CompletionMetadata) :
    CompletionMetadata.make c.request c.result c.suggestedStatus =
      if c.hasValidShape = false then .error .invalidArgument else .ok c := rfl

theorem CompletionMetadata.valid_of_shape {c : CompletionMetadata} (h : c.hasValidShape = true) :
    c.request.Valid := by
  unfold CompletionMetadata.hasValidShape TaskMetadata.sameRequest at h
  rw [Bool.and_eq_true, decide_eq_true_eq] at h
  obtain ⟨hsame, -⟩ := h
  rw [← TaskMetadata.hasValidShape_iff]
  by_contra hbad
  rw [Bool.not_eq_true] at hbad
  simp [hbad] at hsame

end Checks

end Vireo.Thread
