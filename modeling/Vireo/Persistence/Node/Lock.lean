/-
  File:      Vireo/Persistence/Node/Lock.lean
  Subject:   THE LOCKING READS of the node repository (`mysql_node_repository.c`).

  Every read of the repository locks at most one row, checks its shape against the schema, and wants
  the result to end after it (`lockRow`). Each helper of the source stands below under its own name:

  * `lockUser`, `lockMoveUser`, `lockSession` -- who acts, and until when;
  * `moveChain`, `deleteChain` -- the walk to the root, at most 256 rows.

  A verdict about the tree is not raised where it is found: it is a value that the caller raises
  after the clock was read.
-/
import Vireo.Persistence.Statement

namespace Vireo.Persistence.Node

open Lib

/-! ## 1. Values -/

/-- `vireo_mysql_node_issue_t`. -/
inductive Issue where
  | none
  | authRejected
  | notFound
  | rootInvariant
  | unexpectedResult
  | nameConflict
  | rootImmovable
  | moveCycle
  | treeInvalid
  | ancestryLimit
  | rootUndeletable
  | directoryNotEmpty
  | objectReferenceInvalid
  | idempotencyConflict
  | receiptInvalid
deriving DecidableEq, Inhabited

/-- `vireo_mysql_node_actor_t`. -/
structure Actor where
  userId : UInt64
  sessionId : UInt64
deriving DecidableEq

/-- An actor needs a user and a session. -/
def Actor.Missing (a : Actor) : Prop := a.userId = 0 ∨ a.sessionId = 0

instance (a : Actor) : Decidable a.Missing := inferInstanceAs (Decidable (_ ∨ _))

/-- `vireo_mysql_node_kind_t`. -/
inductive Kind where
  | directory
  | file
deriving DecidableEq

/-- `vireo_mysql_node_value_t`; `has_parent` and `has_object_hash` are the constructors of the two
    options. -/
structure Value where
  id : UInt64
  ownerId : UInt64
  parent : Option UInt64
  name : Bytes
  kind : Kind
  objectHash : Option Bytes
  size : UInt64
  createdAtMs : UInt64
  updatedAtMs : UInt64

/-- A row that was found and is a directory. -/
def isDirectory (v : Option Value) : Bool := v.any fun v => decide (v.kind = .directory)

/-- `VIREO_MYSQL_NODE_NAME_CAPACITY`. -/
def nameCapacity : Nat := 255

/-- `VIREO_MYSQL_NODE_MOVE_ANCESTOR_CAPACITY`. -/
def ancestorCapacity : Nat := 256

/-- The issue and transaction window a locked session row leaves to its caller. -/
structure Window where
  issued : UInt64
  expires : UInt64
deriving DecidableEq

/-- `now < issued || now >= expires` is the rejection; this is its negation. -/
def Window.Contains (win : Window) (now : UInt64) : Prop := win.issued ≤ now ∧ now < win.expires

instance (win : Window) (now : UInt64) : Decidable (win.Contains now) :=
  inferInstanceAs (Decidable (_ ∧ _))

/-- `move_domain_t`: a verdict kept back until the clock was read. -/
structure Verdict where
  issue : Issue
  stage : Stage
  result : Failure
deriving DecidableEq

/-! ## 2. Row checks -/

/-- A nullable parent column: `NULL`, or a number that is not zero. -/
def parentCell : Cell → Option (Option UInt64)
  | none => some none
  | some bytes =>
    match number (some bytes) with
    | some p => if p = 0 then none else some (some p)
    | none => none

/-- `node_value`: the eleven columns of an active node; `id = 0` asks for no particular node. -/
def nodeValue (owner id : UInt64) : List Cell → Option Value
  | [c0, c1, c2, c3, c4, c5, c6, c7, c8, c9, c10] =>
    match number c0, number c1, c3, number c4, number c5, number c7, number c8, number c9 with
    | some vid, some vowner, some name, some kind, some state, some size, some created, some updated =>
      if vid = 0 ∨ (id ≠ 0 ∧ vid ≠ id) ∨ vowner ≠ owner ∨ (kind ≠ 1 ∧ kind ≠ 2) ∨ state ≠ 2 ∨
          updated < created ∨ c10.isSome ∨ nameCapacity < name.length then none
      else
        match parentCell c2 with
        | none => none
        | some parent =>
          if kind = 1 ∧ (c6.isSome ∨ size ≠ 0) then none
          else if kind ≠ 1 ∧ (c6.map List.length) ≠ some 32 then none
          else if parent.isNone ∧ (kind ≠ 1 ∨ name ≠ []) then none
          else if parent.isSome ∧ (name = [] ∨ ¬ ValidName name) then none
          else some {
            id := vid, ownerId := vowner, parent := parent, name := name
            kind := if kind = 1 then .directory else .file
            objectHash := c6, size := size, createdAtMs := created, updatedAtMs := updated }
    | _, _, _, _, _, _, _, _ => none
  | _ => none

/-- The row check of `lock_user` and `lock_move_user`; the value is the status. -/
def userStatus (id : UInt64) : List Cell → Option UInt64
  | [c0, c1] =>
    match number c0, number c1 with
    | some vid, some status =>
      if vid ≠ id ∨ (status ≠ 1 ∧ status ≠ 2) then none else some status
    | _, _ => none
  | _ => none

/-- What `lock_session` keeps of a session row. -/
structure SessionRead where
  userId : UInt64
  status : UInt64
  issued : UInt64
  expires : UInt64
deriving DecidableEq

/-- The revocation column: `NULL`, or a number. -/
def revokedCell : Cell → Option (Option UInt64)
  | none => some none
  | some bytes => (number (some bytes)).map some

/-- The row check of `lock_session`. -/
def sessionRead (id : UInt64) : List Cell → Option SessionRead
  | [c0, c1, c2, c3, c4, c5, c6] =>
    match number c0, number c1, number c2, number c3, number c4, revokedCell c5, number c6 with
    | some vid, some user, some status, some issued, some expires, some revoked, some seen =>
      if vid ≠ id ∨ user = 0 ∨ (status ≠ 1 ∧ status ≠ 2) ∨ expires ≤ issued ∨ seen < issued ∨
          expires < seen ∨ (status = 1 ∧ revoked.isSome) ∨
          (status ≠ 1 ∧ (revoked.isNone ∨ revoked.any (· < issued))) then none
      else some ⟨user, status, issued, expires⟩
    | _, _, _, _, _, _, _ => none
  | _ => none

/-- The row check of `lock_mkdir_name` and `lock_move_name`: the id and the state of the node that
    has the name. -/
def occupant (owner parent : UInt64) (name : Bytes) : List Cell → Option (UInt64 × UInt64)
  | [c0, c1, c2, c3, c4] =>
    match number c0, number c1, number c2, c3, number c4 with
    | some vid, some vowner, some vparent, some vname, some state =>
      if vid = 0 ∨ vowner ≠ owner ∨ vparent ≠ parent ∨ vname ≠ name ∨ (state ≠ 1 ∧ state ≠ 2) then
        none
      else some (vid, state)
    | _, _, _, _, _ => none
  | _ => none

/-- The row check of `lock_delete_children`. -/
def childRow (owner parent : UInt64) : List Cell → Option Unit
  | [c0, c1, c2, c3, c4] =>
    match number c0, number c1, number c2, number c3, number c4 with
    | some vid, some vowner, some vparent, some kind, some state =>
      if vid = 0 ∨ vowner ≠ owner ∨ vparent ≠ parent ∨ (kind ≠ 1 ∧ kind ≠ 2) ∨
          (state ≠ 1 ∧ state ≠ 2) ∨ (kind = 1 ∧ state = 1) then none
      else some ()
    | _, _, _, _, _ => none
  | _ => none

/-- `delete_object_t`, with the size the verdict compares. -/
structure ObjectRead where
  size : UInt64
  refCount : UInt64
  state : UInt64
  updated : UInt64

/-- The row check of `lock_delete_object`. -/
def objectRead (hash : Bytes) : List Cell → Option ObjectRead
  | [c0, c1, c2, c3, c4, c5, c6, c7] =>
    match c0, number c1, number c2, number c3, number c4, number c5, number c6, revokedCell c7 with
    | some vhash, some size, some state, some refs, some storage, some created, some updated, some verified =>
      if vhash ≠ hash ∨ vhash.length ≠ 32 ∨ state < 1 ∨ 4 < state ∨ storage ≠ 1 ∨
          updated < created ∨ (state = 2 ∧ verified.isNone) ∨
          (verified.any fun v => v < created ∨ updated < v) ∨ (state = 3 ∧ refs ≠ 0) then none
      else some ⟨size, refs, state, updated⟩
    | _, _, _, _, _, _, _, _ => none
  | _ => none

/-! ## 3. Locking one row -/

/-- The limits of `execute`. -/
def readLimits : Limits := ⟨4, 11, 0, 255, 32768⟩

/-- The limits of `write_execute`. -/
def writeLimits : Limits := ⟨5, 11, 255, 255, 32768⟩

section Steps

variable {W : Type} (ops : Ops W)

/-- The steps of a node repository call. -/
abbrev NodeStep (W α : Type) := Step W Issue α

/-- Raise a verdict: name the issue, note the stage, fail. -/
def reject {α : Type} (v : Verdict) : NodeStep W α := fun s =>
  (.error v.result, { s with issue := v.issue }.diagnose v.stage v.result.val none false)

/-- Execute a read of at most one row and check the row. `read` is the fetch of the helper. -/
def lockRow {β : Type} (limits : Limits) (sql : Sql) (params : List Param) (stage : Stage)
    (read : NodeStep W (Option (List Cell))) (check : List Cell → Option β) :
    NodeStep W (Option β) := do
  let ex ← executing ops Result.noRange limits sql params stage
  if ex.hasResult = false then Prog.fail .database
  else do
    let row ← read
    match row with
    | none => pure none
    | some cells =>
      match check cells with
      | none => Prog.fail .database
      | some v => do
        uniqueEnd ops sql stage
        pure (some v)

/-- `lock_user` and `lock_move_user`: the actor's row, which must be active. -/
def lockUserRow (limits : Limits) (lock : Lock) (id : UInt64) : NodeStep W Unit :=
  closing ops .user do
    let status ← lockRow ops limits (.userStatus lock) [.u64 id] .user
      (readRow ops (.userStatus lock) .user 2) (userStatus id)
    if status = some 1 then pure () else reject ⟨.authRejected, .user, .notFound⟩

/-- `lock_user`. -/
def lockUser (id : UInt64) : NodeStep W Unit := lockUserRow ops readLimits .share id

/-- `lock_move_user`. -/
def lockMoveUser (id : UInt64) : NodeStep W Unit := lockUserRow ops writeLimits .update id

/-- `lock_session`: the actor's session, which must be his and not revoked. -/
def lockSession (actor : Actor) : NodeStep W Window :=
  closing ops .session do
    let row ← lockRow ops readLimits .sessionState [.u64 actor.sessionId] .session
      (readRow ops .sessionState .session 7) (sessionRead actor.sessionId)
    match row with
    | none => reject ⟨.authRejected, .session, .notFound⟩
    | some r =>
      if r.userId = actor.userId ∧ r.status = 1 then pure ⟨r.issued, r.expires⟩
      else reject ⟨.authRejected, .session, .notFound⟩

/-- The rejection of a call whose session is not in its window at a clock sample. -/
def checkWindow (win : Window) (now : UInt64) : NodeStep W Unit :=
  if win.Contains now then pure () else reject ⟨.authRejected, .session, .notFound⟩

/-- `lock_node`: with `id = 0` the active root of the owner, else the active node `id`. -/
def lockNode (owner id : UInt64) : NodeStep W (Option Value) :=
  let sql : Sql := if id = 0 then .rootNode else .activeNode .share
  closing ops .node <|
    lockRow ops readLimits sql (if id = 0 then [.u64 owner] else [.u64 owner, .u64 id]) .node
      (readRow ops sql .node 11) fun cells =>
        (nodeValue owner id cells).bind fun v =>
          if id = 0 ∧ v.parent.isSome then none else some v

/-- `lock_mkdir_parent`. -/
def lockMkdirParent (owner id : UInt64) : NodeStep W (Option Value) :=
  closing ops .node <|
    lockRow ops writeLimits (.activeNode .update) [.u64 owner, .u64 id] .node
      (readRow ops (.activeNode .update) .node 11) (nodeValue owner id)

/-- `lock_mkdir_name`. -/
def lockMkdirName (owner parent : UInt64) (name : Bytes) : NodeStep W Bool :=
  closing ops .nameCheck do
    let row ← lockRow ops writeLimits .liveName [.u64 owner, .u64 parent, .bytes name] .nameCheck
      (readRow ops .liveName .nameCheck 5) (occupant owner parent name)
    pure row.isSome

/-- A first cause noted at the node stage is moved to the stage of the helper. -/
def retag (stage : Stage) (s : Call W Issue) : Call W Issue :=
  if s.err.stage = some .node then { s with err := { s.err with stage := some stage } } else s

/-- `lock_move_node`: source and target exclusively, an ancestor shared; the node stage of the common row
    reader becomes that of the read. -/
def lockMoveNode (owner id : UInt64) (lock : Lock) (stage : Stage) : NodeStep W (Option Value) :=
  closing ops stage <|
    lockRow ops writeLimits (.activeNode lock) [.u64 owner, .u64 id] stage
      (Prog.always (readRow ops (.activeNode lock) .node 11) (Prog.modify (retag stage)))
      (nodeValue owner id)

/-- `lock_move_name`: id and state of the node that has the name. -/
def lockMoveName (owner parent : UInt64) (name : Bytes) : NodeStep W (Option (UInt64 × UInt64)) :=
  closing ops .nameCheck <|
    lockRow ops writeLimits .liveName [.u64 owner, .u64 parent, .bytes name] .nameCheck
      (readRow ops .liveName .nameCheck 5) (occupant owner parent name)

/-- `lock_delete_node`: the source exclusively, an ancestor shared. -/
def lockDeleteNode (owner id : UInt64) (source : Bool) : NodeStep W (Option Value) :=
  let stage : Stage := if source then .source else .ancestor
  let sql : Sql := .activeNode (if source then .update else .share)
  closing ops stage <|
    lockRow ops writeLimits sql [.u64 owner, .u64 id] stage (readRow ops sql stage 11)
      (nodeValue owner id)

/-- `lock_delete_children`: whether the directory has an active or uploading child. -/
def lockDeleteChildren (owner id : UInt64) : NodeStep W Bool :=
  closing ops .children do
    let row ← lockRow ops writeLimits .liveChild [.u64 owner, .u64 id] .children
      (readRow ops .liveChild .children 5) (childRow owner id)
    pure row.isSome

/-- `lock_delete_object`: the object of a file, or the verdict that the reference to it is broken. -/
def lockDeleteObject (hash : Bytes) (size : UInt64) : NodeStep W (Except Verdict ObjectRead) :=
  closing ops .object do
    let row ← lockRow ops writeLimits .objectRow [.bytes hash] .object
      (readRow ops .objectRow .object 8) (objectRead hash)
    match row with
    | none => pure (.error ⟨.objectReferenceInvalid, .object, .database⟩)
    | some o =>
      if o.size ≠ size ∨ o.refCount = 0 ∨ o.state = 3 then
        pure (.error ⟨.objectReferenceInvalid, .object, .database⟩)
      else pure (.ok o)

/-! ## 4. The walks to the root -/

def treeInvalid : Verdict := ⟨.treeInvalid, .ancestor, .database⟩
def moveCycle : Verdict := ⟨.moveCycle, .ancestor, .database⟩
def ancestryLimit : Verdict := ⟨.ancestryLimit, .ancestor, .range⟩

/-- The loop of `move_chain` with `n` rounds left, from `id` towards the root. -/
def moveChainLoop (owner forbidden : UInt64) : Nat → List UInt64 → UInt64 →
    NodeStep W (Option Verdict)
  | 0, _, _ => pure (some ancestryLimit)
  | n + 1, visited, id =>
    if id = forbidden then pure (some moveCycle)
    else if id ∈ visited then pure (some treeInvalid)
    else do
      let row ← lockMoveNode ops owner id .share .ancestor
      match row with
      | none => pure (some treeInvalid)
      | some v =>
        if v.kind ≠ .directory then pure (some treeInvalid)
        else
          match v.parent with
          | none => pure none
          | some parent => moveChainLoop owner forbidden n (id :: visited) parent

/-- `move_chain`. -/
def moveChain (owner id forbidden : UInt64) : NodeStep W (Option Verdict) :=
  moveChainLoop ops owner forbidden ancestorCapacity [] id

/-- The loop of `delete_chain`, which has no forbidden node. -/
def deleteChainLoop (owner : UInt64) : Nat → List UInt64 → UInt64 → NodeStep W (Option Verdict)
  | 0, _, _ => pure (some ancestryLimit)
  | n + 1, visited, id =>
    if id ∈ visited then pure (some treeInvalid)
    else do
      let row ← lockDeleteNode ops owner id false
      match row with
      | none => pure (some treeInvalid)
      | some v =>
        if v.kind ≠ .directory then pure (some treeInvalid)
        else
          match v.parent with
          | none => pure none
          | some parent => deleteChainLoop owner n (id :: visited) parent

/-- `delete_chain`. -/
def deleteChain (owner id : UInt64) : NodeStep W (Option Verdict) :=
  deleteChainLoop ops owner ancestorCapacity [] id

end Steps

end Vireo.Persistence.Node
