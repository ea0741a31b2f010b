/-
  File:      Vireo/Persistence/Node/Spec.lean
  Subject:   WHAT A WRITE OF THE NODE REPOSITORY IS FOR: the ideal entries.

  The ideal entry looks at the tables once, decides, looks at the clock, and only then speaks or
  writes. It has no statements, cells or faults, and all six entries have the same shape:

  * `admission` -- the actor's user is active and his session is his own and not revoked;
  * `Decision`, `mkdirDecision`, … -- refuse, hand out an old receipt, or apply, as a function of
    the tables;
  * **`idealWrite`** -- the whole entry;
  * `answer`, **`WriteCall.answer`** -- what a call without faults returns and leaves.
-/
import Vireo.Persistence.Ideal
import Vireo.Persistence.Node.Request
import Vireo.Persistence.Node.Rows

namespace Vireo.Persistence.Node

open Lib

/-! ## 1. Decisions -/

/-- The value of the active node `id` of the owner. -/
def nodeAt (t : Tables) (owner id : UInt64) : Option Value := (t.activeNode owner id).map valueOf

/-- Who may write, and in which window. -/
def admission (actor : Actor) (t : Tables) : Except Verdict Window :=
  if (t.user actor.userId).map UserRow.status = some 1 then
    match t.session actor.sessionId with
    | none => .error ⟨.authRejected, .session, .notFound⟩
    | some r =>
      if r.userId = actor.userId ∧ r.status = 1 then .ok ⟨r.issuedAtMs, r.expiresAtMs⟩
      else .error ⟨.authRejected, .session, .notFound⟩
  else .error ⟨.authRejected, .user, .notFound⟩

/-- What an entry decides from the tables. -/
inductive Decision (α δ : Type) where
  | refuse (v : Verdict)
  | recover (a : α)
  | apply (d : δ)

/-- A verdict or something to apply. -/
def Decision.ofExcept {α δ : Type} : Except Verdict δ → Decision α δ
  | .error v => .refuse v
  | .ok d => .apply d

/-- What stands in the way of a new directory. -/
def mkdirVerdict (user parent : UInt64) (name : Bytes) (t : Tables) : Except Verdict Unit :=
  if isDirectory (nodeAt t user parent) = false then .error ⟨.notFound, .node, .notFound⟩
  else if (t.occupant user parent name).isSome then .error ⟨.nameConflict, .nameCheck, .database⟩
  else .ok ()

/-- The walk from `id` to the root, with `n` rounds left. -/
def walk (t : Tables) (owner : UInt64) (forbidden : Option UInt64) :
    Nat → List UInt64 → UInt64 → Option Verdict
  | 0, _, _ => some ancestryLimit
  | n + 1, visited, id =>
    if forbidden = some id then some moveCycle
    else if id ∈ visited then some treeInvalid
    else
      match nodeAt t owner id with
      | none => some treeInvalid
      | some v =>
        if v.kind ≠ .directory then some treeInvalid
        else
          match v.parent with
          | none => none
          | some parent => walk t owner forbidden n (id :: visited) parent

/-- The source of a move and whether it changes, or what stands in its way. -/
def moveVerdictOf (user nodeId newParentId : UInt64) (name : Bytes) (t : Tables) :
    Except Verdict (Value × Bool) :=
  match nodeAt t user nodeId with
  | none => .error ⟨.notFound, .source, .notFound⟩
  | some source =>
    if isDirectory (nodeAt t user newParentId) = false then
      .error ⟨.notFound, .targetParent, .notFound⟩
    else
      match source.parent with
      | none => .error ⟨.rootImmovable, .source, .database⟩
      | some old =>
        match walk t user (some 0) ancestorCapacity [] old with
        | some v => .error v
        | none =>
          match walk t user (some (if source.kind = .directory then source.id else 0))
              ancestorCapacity [] newParentId with
          | some v => .error v
          | none =>
            if (t.occupant user newParentId name).any fun r => decide (r.id ≠ source.id) then
              .error ⟨.nameConflict, .nameCheck, .database⟩
            else .ok (source, decide (old ≠ newParentId ∨ source.name ≠ name))

/-- What the deletion of a file reads of its object, or the verdict that the reference is broken. -/
def objectVerdict (hash : Bytes) (size : UInt64) (t : Tables) : Except Verdict ObjectRead :=
  match t.object hash with
  | none => .error ⟨.objectReferenceInvalid, .object, .database⟩
  | some o =>
    if o.size ≠ size ∨ o.refCount = 0 ∨ o.state = 3 then
      .error ⟨.objectReferenceInvalid, .object, .database⟩
    else .ok ⟨o.size, o.refCount, o.state, o.updatedAtMs⟩

/-- The source of a deletion and its object, or what stands in its way. -/
def deleteVerdictOf (user nodeId : UInt64) (t : Tables) : Except Verdict (Value × ObjectRead) :=
  match nodeAt t user nodeId with
  | none => .error ⟨.notFound, .source, .notFound⟩
  | some source =>
    match source.parent with
    | none => .error ⟨.rootUndeletable, .source, .database⟩
    | some old =>
      match walk t user none ancestorCapacity [] old with
      | some v => .error v
      | none =>
        if source.kind = .directory then
          if (t.liveChild user source.id).isSome then .error ⟨.directoryNotEmpty, .children, .database⟩
          else .ok (source, ⟨0, 0, 0, 0⟩)
        else (objectVerdict (source.objectHash.getD []) source.size t).map fun o => (source, o)

/-- The verdict on a key that was used for something else. -/
def keyConflict : Verdict := ⟨.idempotencyConflict, .receiptRead, .database⟩

def mkdirDecision (actor : Actor) (i : MkdirInput) (t : Tables) : Decision MkdirValue Unit :=
  .ofExcept (mkdirVerdict actor.userId i.parentId i.name t)

def mkdirOnceDecision (actor : Actor) (i : MkdirOnceInput) (t : Tables) : Decision OnceValue Unit :=
  match t.receipt actor.userId 1027 i.idempotencyKey.val with
  | some r =>
    if r.requestParentId ≠ i.parentId ∨ r.requestName ≠ i.name then .refuse keyConflict
    else .recover ⟨.recovered, r.resultNodeId, r.auditId, i.idempotencyKey.val⟩
  | none => .ofExcept (mkdirVerdict actor.userId i.parentId i.name t)

def moveDecision (actor : Actor) (i : MoveInput) (t : Tables) : Decision MoveValue (Value × Bool) :=
  .ofExcept (moveVerdictOf actor.userId i.nodeId i.newParentId i.name t)

def moveOnceDecision (actor : Actor) (i : MoveOnceInput) (t : Tables) :
    Decision OnceValue (Value × Bool) :=
  match t.receipt actor.userId 1029 i.idempotencyKey.val with
  | some r =>
    if r.requestNodeId ≠ some i.nodeId ∨ r.requestParentId ≠ i.newParentId ∨ r.requestName ≠ i.name
    then .refuse keyConflict
    else .recover ⟨.recovered, r.resultNodeId, r.auditId, i.idempotencyKey.val⟩
  | none => .ofExcept (moveVerdictOf actor.userId i.nodeId i.newParentId i.name t)

def softDeleteDecision (actor : Actor) (i : SoftDeleteInput) (t : Tables) :
    Decision SoftDeleteValue (Value × ObjectRead) :=
  .ofExcept (deleteVerdictOf actor.userId i.nodeId t)

def softDeleteOnceDecision (actor : Actor) (i : RemoveOnceInput) (t : Tables) :
    Decision RemoveValue (Value × ObjectRead) :=
  match t.removal actor.userId i.idempotencyKey.val with
  | some r =>
    if r.requestNodeId ≠ i.nodeId then .refuse keyConflict
    else .recover ⟨.recovered, r.resultNodeId, r.auditId, r.createdAtMs⟩
  | none => .ofExcept (deleteVerdictOf actor.userId i.nodeId t)

/-! ## 2. Effects -/

/-- Speak a verdict. -/
def idealReject {α : Type} (v : Verdict) : Ideal Issue α := fun s =>
  (.error v.result, { s with
    issue := v.issue
    err := s.err.note v.stage v.result.val none false })

def idealCheck (win : Window) (now : UInt64) : Ideal Issue Unit :=
  if win.Contains now then pure () else idealReject ⟨.authRejected, .session, .notFound⟩

/-- Insert a row with an AUTO_INCREMENT id. -/
def inserted (sql : Sql) (params : List Param) (stage : Stage) : Ideal Issue UInt64 :=
  Ideal.evaluated sql params stage (Reply.judged true Execution.insertId)

/-- Change exactly one row. -/
def modified (sql : Sql) (params : List Param) (stage : Stage) : Ideal Issue Unit :=
  Ideal.evaluated sql params stage Reply.touchedOne

def idealAudit (action : UInt64) (request : Key) (actor : Actor) (target now : UInt64) :
    Ideal Issue UInt64 :=
  inserted (.insertNodeAudit action)
    [.bytes request.val, .u64 actor.userId, .u64 actor.sessionId, .u64 target, .u64 now] .audit

variable (actor : Actor)

/-- A new directory and its audit row. -/
def idealMkdir (parent : UInt64) (name : Bytes) (request : Key) (now : UInt64) :
    Ideal Issue (UInt64 × UInt64) := do
  let id ← inserted .insertDirectory
    [.u64 actor.userId, .u64 parent, .bytes name, .u64 now, .u64 now] .insert
  let audit ← idealAudit 5 request actor id now
  pure (id, audit)

/-- A moved node and its audit row. -/
def idealMove (nodeId newParentId : UInt64) (name : Bytes) (request : Key) (d : Value × Bool) (now : UInt64) :
    Ideal Issue UInt64 := do
  (if d.2 then modified .moveNode
    [.u64 newParentId, .bytes name, .u64 (clamp now d.1.updatedAtMs), .u64 actor.userId, .u64 nodeId] .update
  else pure ())
  idealAudit 6 request actor d.1.id now

/-- A deleted node, the released object and the audit row. -/
def idealDelete (request : Key) (d : Value × ObjectRead) (now : UInt64) :
    Ideal Issue UInt64 := do
  let deleted := clamp now d.1.updatedAtMs
  modified .deleteNode [.u64 deleted, .u64 deleted, .u64 actor.userId, .u64 d.1.id] .softDelete
  (if d.1.kind = .file then modified .updateObject
    [.u64 (d.2.refCount - 1), .u64 (clamp now d.2.updated), .bytes (d.1.objectHash.getD []),
      .u64 d.2.refCount, .u64 d.2.state] .objectUpdate
  else pure ())
  idealAudit 7 request actor d.1.id now

def mkdirEffect (i : MkdirInput) (_ : Unit) (now : UInt64) :
    Ideal Issue MkdirValue := do
  let (id, audit) ← idealMkdir actor i.parentId i.name i.requestId now
  pure ⟨some (newDirectory actor.userId i.parentId i.name now id), audit⟩

def mkdirOnceEffect (i : MkdirOnceInput) (_ : Unit) (now : UInt64) :
    Ideal Issue OnceValue := do
  let (id, audit) ← idealMkdir actor i.parentId i.name i.requestId now
  modified .insertMkdirReceipt
    [.u64 actor.userId, .bytes i.idempotencyKey.val, .u64 i.parentId, .bytes i.name, .u64 id,
      .u64 audit, .u64 now] .receiptInsert
  pure ⟨.applied, id, audit, i.idempotencyKey.val⟩

/-- The node as `move` reports it. -/
def movedValue (newParentId : UInt64) (name : Bytes) (d : Value × Bool) (now : UInt64) : Value :=
  if d.2 then
    { d.1 with parent := some newParentId, name := name, updatedAtMs := clamp now d.1.updatedAtMs }
  else d.1

def moveEffect (i : MoveInput) (d : Value × Bool) (now : UInt64) :
    Ideal Issue MoveValue := do
  let audit ← idealMove actor i.nodeId i.newParentId i.name i.requestId d now
  pure ⟨some (movedValue i.newParentId i.name d now), audit, d.2⟩

def moveOnceEffect (i : MoveOnceInput) (d : Value × Bool) (now : UInt64) :
    Ideal Issue OnceValue := do
  let audit ← idealMove actor i.nodeId i.newParentId i.name i.requestId d now
  modified .insertMoveReceipt
    [.u64 actor.userId, .bytes i.idempotencyKey.val, .u64 i.newParentId, .u64 i.nodeId,
      .bytes i.name, .u64 d.1.id, .u64 audit, .u64 now] .receiptInsert
  pure ⟨.applied, d.1.id, audit, i.idempotencyKey.val⟩

def softDeleteEffect (i : SoftDeleteInput) (d : Value × ObjectRead) (now : UInt64) :
    Ideal Issue SoftDeleteValue := do
  let audit ← idealDelete actor i.requestId d now
  pure ⟨d.1.id, audit, clamp now d.1.updatedAtMs⟩

def softDeleteOnceEffect (i : RemoveOnceInput) (d : Value × ObjectRead) (now : UInt64) :
    Ideal Issue RemoveValue := do
  let audit ← idealDelete actor i.requestId d now
  modified .insertRemoveReceipt
    [.u64 actor.userId, .bytes i.idempotencyKey.val, .u64 d.1.id, .u64 d.1.id, .u64 audit,
      .u64 (clamp now d.1.updatedAtMs)] .receiptInsert
  pure ⟨.applied, d.1.id, audit, clamp now d.1.updatedAtMs⟩

/-! ## 3. The entries -/

section Entries

variable {α δ : Type}

/-- After the decision: look at the clock, then speak or write. -/
def idealSettle (effect : δ → UInt64 → Ideal Issue α) (win : Window) (d : Decision α δ) :
    Ideal Issue (Settled α) := do
  let now ← Ideal.sample
  idealCheck win now
  match d with
  | .refuse v => idealReject v
  | .recover a => pure (.recovered a)
  | .apply d => do
    let a ← effect d now
    pure (.ready a)

/-- An entry's own work, once the actor is admitted. -/
def idealWork (decision : Tables → Decision α δ) (effect : δ → UInt64 → Ideal Issue α)
    (win : Window) : Ideal Issue (Settled α) := do
  let d ← Ideal.look decision
  idealSettle effect win d

/-- **The ideal write entry.** -/
def idealWrite (actor : Actor) (work : Window → Ideal Issue (Settled α)) :
    Ideal Issue (Settled α) := do
  let admitted ← Ideal.look (admission actor)
  match admitted with
  | .error v => idealReject v
  | .ok win => do
    let settled ← work win
    match settled with
    | .recovered a => pure (.recovered a)
    | .ready a => do
      let now ← Ideal.sample
      idealCheck win now
      pure (.ready a)

/-- What a call without faults returns and leaves. -/
structure Answer (α : Type) where
  result : Result
  commit : Commit
  issue : Issue
  value : α
  tables : Tables
  counters : Counters

/-- The same answer, with another view of what it publishes. -/
def Answer.map {β : Type} (f : α → β) (a : Answer α) : Answer β :=
  ⟨a.result, a.commit, a.issue, f a.value, a.tables, a.counters⟩

/-- `classify` on what the ideal entry leaves. -/
def classified (shapeStages : List Stage) (rc : Result) (v : View Issue) : Issue :=
  if rc = .database ∧ v.issue = .none ∧ v.err.database.code = 0 ∧
      (v.err.stage.any shapeStages.contains) then .unexpectedResult
  else v.issue

/-- The view of a call that begins. -/
def View.start (t : Tables) (c : Counters) (clock : Nat → Sampled) : View Issue :=
  ⟨t, c, clock, 0, .none, {}⟩

/-- The answer of an entry past its input checks. -/
def answer [Inhabited α] (plan : Plan) (entry : Ideal Issue (Settled α)) (t : Tables) (c : Counters)
    (clock : Nat → Sampled) : Answer α :=
  match entry (View.start t c clock) with
  | (.error f, v) =>
    ⟨f.val, .notCommitted, classified plan.shapeStages f.val v, default, t, v.counters⟩
  | (.ok (.recovered a), v) => ⟨.ok, .notCommitted, v.issue, a, t, v.counters⟩
  | (.ok (.ready a), v) => ⟨.ok, .committed, v.issue, a, v.tables, v.counters⟩

end Entries

/-- The input check of a call. -/
def WriteCall.check (c : WriteCall) (actor : Actor) (timeout : UInt32) : Result :=
  match c with
  | .mkdir i => mkdirCheck actor i timeout
  | .mkdirOnce i => mkdirOnceCheck actor i timeout
  | .move i => moveCheck actor i timeout
  | .moveOnce i => moveOnceCheck actor i timeout
  | .softDelete i => softDeleteCheck actor i timeout
  | .softDeleteOnce i => removeOnceCheck actor i timeout

/-- **The answer of a call past its input checks.** -/
def WriteCall.answer (c : WriteCall) (actor : Actor) (t : Tables) (n : Counters)
    (clock : Nat → Sampled) : Answer Published :=
  match c with
  | .mkdir i =>
    (Node.answer mkdirPlan (idealWrite actor (idealWork (mkdirDecision actor i)
      (mkdirEffect actor i))) t n clock).map MkdirValue.published
  | .mkdirOnce i =>
    (Node.answer mkdirOncePlan (idealWrite actor (idealWork (mkdirOnceDecision actor i)
      (mkdirOnceEffect actor i))) t n clock).map OnceValue.published
  | .move i =>
    (Node.answer movePlan (idealWrite actor (idealWork (moveDecision actor i)
      (moveEffect actor i))) t n clock).map MoveValue.published
  | .moveOnce i =>
    (Node.answer moveOncePlan (idealWrite actor (idealWork (moveOnceDecision actor i)
      (moveOnceEffect actor i))) t n clock).map OnceValue.published
  | .softDelete i =>
    (Node.answer softDeletePlan (idealWrite actor (idealWork (softDeleteDecision actor i)
      (softDeleteEffect actor i))) t n clock).map SoftDeleteValue.published
  | .softDeleteOnce i =>
    (Node.answer softDeleteOncePlan (idealWrite actor (idealWork (softDeleteOnceDecision actor i)
      (softDeleteOnceEffect actor i))) t n clock).map RemoveValue.published

end Vireo.Persistence.Node
