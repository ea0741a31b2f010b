/-
  File:      Vireo/Persistence/Node/Entry.lean
  Subject:   THE SIX WRITE ENTRIES of the node repository.

  An entry is `writeEntry` applied to its input check, its plan and its own work. The work of an
  entry with a receipt first looks for the receipt of the key: a receipt ends the call, recovered or
  in conflict, before any node is read.
-/
import Vireo.Persistence.Node.Write

namespace Vireo.Persistence.Node

open Lib

/-! ## 1. Inputs and what is published -/

/-- A request id or an idempotency key: sixteen bytes. -/
abbrev Key := { b : Bytes // b.length = 16 }

/-- All sixteen bytes are zero. -/
def Key.Zero (k : Key) : Prop := ∀ b ∈ k.val, b = 0

instance (k : Key) : Decidable k.Zero := inferInstanceAs (Decidable (∀ b ∈ k.val, b = 0))

/-- `vireo_mysql_node_mkdir_input_t`. -/
structure MkdirInput where
  parentId : UInt64
  name : Bytes
  requestId : Key

/-- `vireo_mysql_node_mkdir_once_input_t`. -/
structure MkdirOnceInput where
  parentId : UInt64
  name : Bytes
  idempotencyKey : Key
  requestId : Key

/-- `vireo_mysql_node_move_input_t`. -/
structure MoveInput where
  nodeId : UInt64
  newParentId : UInt64
  name : Bytes
  requestId : Key

/-- `vireo_mysql_node_move_once_input_t`. -/
structure MoveOnceInput where
  nodeId : UInt64
  newParentId : UInt64
  name : Bytes
  idempotencyKey : Key
  requestId : Key

/-- `vireo_mysql_node_soft_delete_input_t`. -/
structure SoftDeleteInput where
  nodeId : UInt64
  requestId : Key

/-- `vireo_mysql_node_remove_once_input_t`. -/
structure RemoveOnceInput where
  nodeId : UInt64
  idempotencyKey : Key
  requestId : Key

/-- `vireo_mysql_node_mkdir_effect_t` and its siblings; `applied` is also `CREATED`. -/
inductive Effect where
  | none
  | applied
  | recovered
deriving DecidableEq, Inhabited

/-- What `mkdir` publishes; no node is the all-zero one. -/
structure MkdirValue where
  node : Option Value := none
  auditId : UInt64 := 0
deriving Inhabited

/-- What `move` publishes. -/
structure MoveValue where
  node : Option Value := none
  auditId : UInt64 := 0
  changed : Bool := false
deriving Inhabited

/-- What `softDelete` publishes. -/
structure SoftDeleteValue where
  nodeId : UInt64 := 0
  auditId : UInt64 := 0
  deletedAtMs : UInt64 := 0
deriving DecidableEq, Inhabited

/-- What `mkdirOnce` and `moveOnce` publish. -/
structure OnceValue where
  effect : Effect := .none
  nodeId : UInt64 := 0
  auditId : UInt64 := 0
  idempotencyKey : Bytes := List.replicate 16 0

instance : Inhabited OnceValue := ⟨{}⟩

/-- What `softDeleteOnce` publishes. -/
structure RemoveValue where
  effect : Effect := .none
  nodeId : UInt64 := 0
  auditId : UInt64 := 0
  deletedAtMs : UInt64 := 0
deriving DecidableEq, Inhabited

/-! ## 2. Input checks -/

/-- Length and waiting time first, then the bytes of the name. -/
def nameCheck (name : Bytes) (timeout : UInt32) : Result :=
  if name.length = 0 ∨ nameCapacity < name.length ∨ Pool.waitMsMax < timeout.toNat then .range
  else if ValidName name then .ok
  else .protocol

def timeoutCheck (timeout : UInt32) : Result :=
  if Pool.waitMsMax < timeout.toNat then .range else .ok

variable (actor : Actor)

def mkdirCheck (i : MkdirInput) (timeout : UInt32) : Result :=
  if actor.Missing ∨ i.parentId = 0 ∨ i.requestId.Zero then .invalidArgument
  else nameCheck i.name timeout

def mkdirOnceCheck (i : MkdirOnceInput) (timeout : UInt32) : Result :=
  if actor.Missing ∨ i.parentId = 0 ∨ i.requestId.Zero ∨ i.idempotencyKey.Zero then .invalidArgument
  else nameCheck i.name timeout

def moveCheck (i : MoveInput) (timeout : UInt32) : Result :=
  if actor.Missing ∨ i.nodeId = 0 ∨ i.newParentId = 0 ∨ i.requestId.Zero then .invalidArgument
  else nameCheck i.name timeout

def moveOnceCheck (i : MoveOnceInput) (timeout : UInt32) : Result :=
  if actor.Missing ∨ i.nodeId = 0 ∨ i.newParentId = 0 ∨ i.requestId.Zero ∨
      i.idempotencyKey.Zero then .invalidArgument
  else nameCheck i.name timeout

def softDeleteCheck (i : SoftDeleteInput) (timeout : UInt32) : Result :=
  if actor.Missing ∨ i.nodeId = 0 ∨ i.requestId.Zero then .invalidArgument
  else timeoutCheck timeout

def removeOnceCheck (i : RemoveOnceInput) (timeout : UInt32) : Result :=
  if actor.Missing ∨ i.nodeId = 0 ∨ i.requestId.Zero ∨ i.idempotencyKey.Zero then .invalidArgument
  else timeoutCheck timeout

/-! ## 3. Receipt rows -/

/-- `mkdir_receipt_t`. -/
structure MkdirReceipt where
  parentId : UInt64
  name : Bytes
  nodeId : UInt64
  auditId : UInt64
deriving DecidableEq

/-- `move_receipt_t`. -/
structure MoveReceipt where
  parentId : UInt64
  sourceId : UInt64
  name : Bytes
  nodeId : UInt64
  auditId : UInt64
deriving DecidableEq

/-- `node_remove_receipt_t`. -/
structure RemoveReceipt where
  requestNodeId : UInt64
  resultNodeId : UInt64
  auditId : UInt64
  createdAtMs : UInt64

/-- The row check of `lock_mkdir_receipt`. -/
def mkdirReceipt (owner : UInt64) (key : Key) : List Cell → Option MkdirReceipt
  | [c0, c1, c2, c3, c4, c5, c6, c7, c8] =>
    match number c0, number c1, c2, number c3, number c4, c5, number c6, number c7, number c8 with
    | some user, some command, some k, some version, some parent, some name, some node, some audit, some _ =>
      if user ≠ owner ∨ command ≠ 1027 ∨ version ≠ 1 ∨ parent = 0 ∨ node = 0 ∨ audit = 0 ∨
          k ≠ key.val ∨ name.length = 0 ∨ nameCapacity < name.length ∨ ¬ ValidName name then none
      else some ⟨parent, name, node, audit⟩
    | _, _, _, _, _, _, _, _, _ => none
  | _ => none

/-- The row check of `lock_move_receipt`. -/
def moveReceipt (owner : UInt64) (key : Key) : List Cell → Option MoveReceipt
  | [c0, c1, c2, c3, c4, c5, c6, c7, c8, c9] =>
    match number c0, number c1, c2, number c3, number c4, number c5, c6, number c7, number c8, number c9 with
    | some user, some command, some k, some version, some parent, some source, some name,
        some node, some audit, some _ =>
      if user ≠ owner ∨ command ≠ 1029 ∨ version ≠ 1 ∨ parent = 0 ∨ source = 0 ∨ node ≠ source ∨
          audit = 0 ∨ k ≠ key.val ∨ name.length = 0 ∨ nameCapacity < name.length ∨
          ¬ ValidName name then none
      else some ⟨parent, source, name, node, audit⟩
    | _, _, _, _, _, _, _, _, _, _ => none
  | _ => none

/-- The row check of `lock_node_remove_receipt`. -/
def removeReceipt (owner : UInt64) (key : Key) : List Cell → Option RemoveReceipt
  | [c0, c1, c2, c3, c4, c5, c6, c7] =>
    match number c0, number c1, c2, number c3, number c4, number c5, number c6, number c7 with
    | some user, some command, some k, some version, some request, some node, some audit, some created =>
      if k ≠ key.val ∨ user ≠ owner ∨ command ≠ 1028 ∨ version ≠ 1 ∨ request = 0 ∨ node ≠ request ∨
          audit = 0 then none
      else some ⟨request, node, audit, created⟩
    | _, _, _, _, _, _, _, _ => none
  | _ => none

section Work

variable {W : Type} (ops : Ops W)

/-! ## 4. Creating a directory -/

/-- The new node of `mkdir`, once it has an id. -/
def newDirectory (owner parent : UInt64) (name : Bytes) (now id : UInt64) : Value where
  id := id
  ownerId := owner
  parent := some parent
  name := name
  kind := .directory
  objectHash := none
  size := 0
  createdAtMs := now
  updatedAtMs := now

/-- The success audit of a node write. -/
def auditRow (action : UInt64) (request : Key) (actor : Actor) (target now : UInt64) :
    NodeStep W UInt64 :=
  insertRow ops (.insertNodeAudit action)
    [.bytes request.val, .u64 actor.userId, .u64 actor.sessionId, .u64 target, .u64 now] .audit

variable (actor : Actor)

/-- The work of `vireo_mysql_node_repository_mkdir`. -/
def mkdirWork (i : MkdirInput) (win : Window) :
    NodeStep W (Settled MkdirValue) := do
  let parent ← lockMkdirParent ops actor.userId i.parentId
  let occupied ← (if isDirectory parent then lockMkdirName ops actor.userId i.parentId i.name
    else pure false)
  let now ← captureUtc ops
  checkWindow win now
  if isDirectory parent = false then reject ⟨.notFound, .node, .notFound⟩
  else if occupied then reject ⟨.nameConflict, .nameCheck, .database⟩
  else do
    let id ← insertRow ops .insertDirectory
      [.u64 actor.userId, .u64 i.parentId, .bytes i.name, .u64 now, .u64 now] .insert
    let audit ← auditRow ops 5 i.requestId actor id now
    pure (.ready ⟨some (newDirectory actor.userId i.parentId i.name now id), audit⟩)

/-- The work of `vireo_mysql_node_repository_mkdir_once`. -/
def mkdirOnceWork (i : MkdirOnceInput) (win : Window) :
    NodeStep W (Settled OnceValue) := do
  let receipt ← lockReceipt ops receiptLimits .mkdirReceipt
    [.u64 actor.userId, .bytes i.idempotencyKey.val] 9 (mkdirReceipt actor.userId i.idempotencyKey)
  match receipt with
  | some r => do
    let now ← captureUtc ops
    checkWindow win now
    if r.parentId ≠ i.parentId ∨ r.name ≠ i.name then
      reject ⟨.idempotencyConflict, .receiptRead, .database⟩
    else pure (.recovered ⟨.recovered, r.nodeId, r.auditId, i.idempotencyKey.val⟩)
  | none => do
    let parent ← lockMkdirParent ops actor.userId i.parentId
    let occupied ← (if isDirectory parent then lockMkdirName ops actor.userId i.parentId i.name
      else pure false)
    let now ← captureUtc ops
    checkWindow win now
    if isDirectory parent = false then reject ⟨.notFound, .node, .notFound⟩
    else if occupied then reject ⟨.nameConflict, .nameCheck, .database⟩
    else do
      let id ← insertRow ops .insertDirectory
        [.u64 actor.userId, .u64 i.parentId, .bytes i.name, .u64 now, .u64 now] .insert
      let audit ← auditRow ops 5 i.requestId actor id now
      modifyOne ops receiptLimits .insertMkdirReceipt
        [.u64 actor.userId, .bytes i.idempotencyKey.val, .u64 i.parentId, .bytes i.name, .u64 id,
          .u64 audit, .u64 now] .receiptInsert
      pure (.ready ⟨.applied, id, audit, i.idempotencyKey.val⟩)

/-! ## 5. Moving a node -/

/-- The reads of `move` and `move_once` between session and clock: the source and whether it changes,
    or the verdict that it stays. -/
def moveVerdict (user nodeId newParentId : UInt64) (name : Bytes) :
    NodeStep W (Except Verdict (Value × Bool)) := do
  let source ← lockMoveNode ops user nodeId .update .source
  match source with
  | none => pure (.error ⟨.notFound, .source, .notFound⟩)
  | some source => do
    let target ← lockMoveNode ops user newParentId .update .targetParent
    if isDirectory target = false then pure (.error ⟨.notFound, .targetParent, .notFound⟩)
    else
      match source.parent with
      | none => pure (.error ⟨.rootImmovable, .source, .database⟩)
      | some old => do
        let oldChain ← moveChain ops user old 0
        let newChain ← (match oldChain with
          | some v => pure (some v)
          | none =>
            moveChain ops user newParentId (if source.kind = .directory then source.id else 0))
        match newChain with
        | some v => pure (.error v)
        | none => do
          let found ← lockMoveName ops user newParentId name
          let occupied := (found.map Prod.fst).getD 0
          let state := (found.map Prod.snd).getD 0
          let changed := decide (old ≠ newParentId ∨ source.name ≠ name)
          if occupied ≠ 0 ∧ occupied ≠ source.id then
            pure (.error ⟨.nameConflict, .nameCheck, .database⟩)
          else if (changed = false ∧ (occupied ≠ source.id ∨ state ≠ 2)) ∨
              (changed = true ∧ occupied = source.id) then
            diagnosing .nameCheck none (Prog.fail .database)
          else pure (.ok (source, changed))

/-- The later of the clock and an old time. -/
def clamp (now old : UInt64) : UInt64 := if now > old then now else old

/-- `update_move`. -/
def updateMove (user nodeId newParentId : UInt64) (name : Bytes) (updated : UInt64) :
    NodeStep W Unit :=
  modifyOne ops writeLimits .moveNode
    [.u64 newParentId, .bytes name, .u64 updated, .u64 user, .u64 nodeId] .update

/-- The work of `vireo_mysql_node_repository_move`. -/
def moveWork (i : MoveInput) (win : Window) : NodeStep W (Settled MoveValue) := do
  let verdict ← moveVerdict ops actor.userId i.nodeId i.newParentId i.name
  let now ← captureUtc ops
  checkWindow win now
  match verdict with
  | .error v => reject v
  | .ok (source, changed) => do
    let updated := clamp now source.updatedAtMs
    (if changed then updateMove ops actor.userId i.nodeId i.newParentId i.name updated else pure ())
    let audit ← auditRow ops 6 i.requestId actor source.id now
    let node := if changed then
      { source with parent := some i.newParentId, name := i.name, updatedAtMs := updated }
      else source
    pure (.ready ⟨some node, audit, changed⟩)

/-- The work of `vireo_mysql_node_repository_move_once`. -/
def moveOnceWork (i : MoveOnceInput) (win : Window) :
    NodeStep W (Settled OnceValue) := do
  let receipt ← lockReceipt ops moveReceiptLimits .moveReceipt
    [.u64 actor.userId, .bytes i.idempotencyKey.val] 10 (moveReceipt actor.userId i.idempotencyKey)
  match receipt with
  | some r => do
    let now ← captureUtc ops
    checkWindow win now
    if r.sourceId ≠ i.nodeId ∨ r.parentId ≠ i.newParentId ∨ r.name ≠ i.name then
      reject ⟨.idempotencyConflict, .receiptRead, .database⟩
    else pure (.recovered ⟨.recovered, r.nodeId, r.auditId, i.idempotencyKey.val⟩)
  | none => do
    let verdict ← moveVerdict ops actor.userId i.nodeId i.newParentId i.name
    let now ← captureUtc ops
    checkWindow win now
    match verdict with
    | .error v => reject v
    | .ok (source, changed) => do
      (if changed then
        updateMove ops actor.userId i.nodeId i.newParentId i.name (clamp now source.updatedAtMs)
      else pure ())
      let audit ← auditRow ops 6 i.requestId actor source.id now
      modifyOne ops moveReceiptLimits .insertMoveReceipt
        [.u64 actor.userId, .bytes i.idempotencyKey.val, .u64 i.newParentId, .u64 i.nodeId,
          .bytes i.name, .u64 source.id, .u64 audit, .u64 now] .receiptInsert
      pure (.ready ⟨.applied, source.id, audit, i.idempotencyKey.val⟩)

/-! ## 6. Deleting a node -/

/-- The reads of `soft_delete` and `soft_delete_once` between session and clock: the source and, for
    a file, its object. -/
def deleteVerdict (user nodeId : UInt64) :
    NodeStep W (Except Verdict (Value × ObjectRead)) := do
  let source ← lockDeleteNode ops user nodeId true
  match source with
  | none => pure (.error ⟨.notFound, .source, .notFound⟩)
  | some source =>
    match source.parent with
    | none => pure (.error ⟨.rootUndeletable, .source, .database⟩)
    | some old => do
      let chain ← deleteChain ops user old
      match chain with
      | some v => pure (.error v)
      | none =>
        if source.kind = .directory then do
          let occupied ← lockDeleteChildren ops user source.id
          if occupied then pure (.error ⟨.directoryNotEmpty, .children, .database⟩)
          else pure (.ok (source, ⟨0, 0, 0, 0⟩))
        else do
          let object ← lockDeleteObject ops (source.objectHash.getD []) source.size
          pure (object.map fun o => (source, o))

/-- The two updates of a deletion: the node, and for a file its object's references. -/
def deleteRows (user : UInt64) (source : Value) (object : ObjectRead) (now deleted : UInt64) :
    NodeStep W Unit := do
  modifyOne ops writeLimits .deleteNode
    [.u64 deleted, .u64 deleted, .u64 user, .u64 source.id] .softDelete
  if source.kind = .file then
    modifyOne ops writeLimits .updateObject
      [.u64 (object.refCount - 1), .u64 (clamp now object.updated),
        .bytes (source.objectHash.getD []), .u64 object.refCount, .u64 object.state] .objectUpdate
  else pure ()

/-- The work of `vireo_mysql_node_repository_soft_delete`. -/
def softDeleteWork (i : SoftDeleteInput) (win : Window) :
    NodeStep W (Settled SoftDeleteValue) := do
  let verdict ← deleteVerdict ops actor.userId i.nodeId
  let now ← captureUtc ops
  checkWindow win now
  match verdict with
  | .error v => reject v
  | .ok (source, object) => do
    let deleted := clamp now source.updatedAtMs
    deleteRows ops actor.userId source object now deleted
    let audit ← auditRow ops 7 i.requestId actor source.id now
    pure (.ready ⟨source.id, audit, deleted⟩)

/-- The work of `vireo_mysql_node_repository_soft_delete_once`. -/
def softDeleteOnceWork (i : RemoveOnceInput) (win : Window) :
    NodeStep W (Settled RemoveValue) := do
  let receipt ← lockReceipt ops receiptLimits .removeReceipt
    [.u64 actor.userId, .bytes i.idempotencyKey.val] 8 (removeReceipt actor.userId i.idempotencyKey)
  match receipt with
  | some r => do
    let now ← captureUtc ops
    checkWindow win now
    if r.requestNodeId ≠ i.nodeId then reject ⟨.idempotencyConflict, .receiptRead, .database⟩
    else pure (.recovered ⟨.recovered, r.resultNodeId, r.auditId, r.createdAtMs⟩)
  | none => do
    let verdict ← deleteVerdict ops actor.userId i.nodeId
    let now ← captureUtc ops
    checkWindow win now
    match verdict with
    | .error v => reject v
    | .ok (source, object) => do
      let deleted := clamp now source.updatedAtMs
      deleteRows ops actor.userId source object now deleted
      let audit ← auditRow ops 7 i.requestId actor source.id now
      modifyOne ops receiptLimits .insertRemoveReceipt
        [.u64 actor.userId, .bytes i.idempotencyKey.val, .u64 source.id, .u64 source.id,
          .u64 audit, .u64 deleted] .receiptInsert
      pure (.ready ⟨.applied, source.id, audit, deleted⟩)

end Work

/-! ## 7. The entries -/

def mkdirPlan : Plan where
  exclusive := false
  shapeStages := [.user, .session, .node, .nameCheck, .insert, .audit, .commit]
  recyclable := [.nameConflict]

def mkdirOncePlan : Plan where
  exclusive := true
  shapeStages := [.user, .session, .node, .nameCheck, .insert, .audit, .receiptInsert, .commit]
  recyclable := [.nameConflict, .idempotencyConflict]

def movePlan : Plan where
  exclusive := true
  shapeStages := [.user, .session, .source, .targetParent, .ancestor, .nameCheck, .update, .audit, .commit]
  recyclable := [.nameConflict, .rootImmovable, .moveCycle, .treeInvalid, .ancestryLimit]

def moveOncePlan : Plan where
  exclusive := true
  shapeStages := [.user, .session, .source, .targetParent, .ancestor, .nameCheck, .update, .audit,
    .receiptInsert, .commit]
  recyclable := [.nameConflict, .rootImmovable, .moveCycle, .treeInvalid, .ancestryLimit, .idempotencyConflict]

def softDeletePlan : Plan where
  exclusive := true
  shapeStages := [.user, .session, .source, .ancestor, .children, .object, .softDelete,
    .objectUpdate, .audit, .commit]
  recyclable := [.rootUndeletable, .directoryNotEmpty, .treeInvalid, .ancestryLimit, .objectReferenceInvalid]

/-- Unlike its siblings this entry does not list the user and session stages. -/
def softDeleteOncePlan : Plan where
  exclusive := true
  shapeStages := [.receiptRead, .receiptInsert, .commit, .source, .ancestor, .children, .object,
    .softDelete, .objectUpdate, .audit]
  recyclable := [.idempotencyConflict, .rootUndeletable, .directoryNotEmpty, .treeInvalid,
    .ancestryLimit, .objectReferenceInvalid]

section Entries

variable {W : Type} (ops : Ops W)

variable (actor : Actor)

/-- `vireo_mysql_node_repository_mkdir`. -/
def mkdir (i : MkdirInput) (timeout : UInt32) (repo : Repo) (w : W) :
    Outcome W MkdirValue :=
  writeEntry ops mkdirPlan (mkdirCheck actor i timeout) timeout actor (mkdirWork ops actor i) repo w

/-- `vireo_mysql_node_repository_mkdir_once`. -/
def mkdirOnce (i : MkdirOnceInput) (timeout : UInt32) (repo : Repo) (w : W) :
    Outcome W OnceValue :=
  writeEntry ops mkdirOncePlan (mkdirOnceCheck actor i timeout) timeout actor
    (mkdirOnceWork ops actor i) repo w

/-- `vireo_mysql_node_repository_move`. -/
def move (i : MoveInput) (timeout : UInt32) (repo : Repo) (w : W) :
    Outcome W MoveValue :=
  writeEntry ops movePlan (moveCheck actor i timeout) timeout actor (moveWork ops actor i) repo w

/-- `vireo_mysql_node_repository_move_once`. -/
def moveOnce (i : MoveOnceInput) (timeout : UInt32) (repo : Repo) (w : W) :
    Outcome W OnceValue :=
  writeEntry ops moveOncePlan (moveOnceCheck actor i timeout) timeout actor
    (moveOnceWork ops actor i) repo w

/-- `vireo_mysql_node_repository_soft_delete`. -/
def softDelete (i : SoftDeleteInput) (timeout : UInt32) (repo : Repo) (w : W) :
    Outcome W SoftDeleteValue :=
  writeEntry ops softDeletePlan (softDeleteCheck actor i timeout) timeout actor
    (softDeleteWork ops actor i) repo w

/-- `vireo_mysql_node_repository_soft_delete_once`. -/
def softDeleteOnce (i : RemoveOnceInput) (timeout : UInt32) (repo : Repo) (w : W) :
    Outcome W RemoveValue :=
  writeEntry ops softDeleteOncePlan (removeOnceCheck actor i timeout) timeout actor
    (softDeleteOnceWork ops actor i) repo w

end Entries

end Vireo.Persistence.Node
