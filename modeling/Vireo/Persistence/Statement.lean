/-
  File:      Vireo/Persistence/Statement.lean
  Subject:   THE DEPENDENCY BOUNDARY of the repositories: leases, statements and the clock.

  A repository reaches the database through ten function pointers. `Ops W` is that table over an
  arbitrary world `W`, so a repository run against an arbitrary `Ops` is a run against every
  sequence of outcomes; `Mysql.lean` instantiates it with a database.

  A pool connection and a prepared statement are known to a repository by address only: a held
  statement is the text it was prepared from. A non-null cell always has an address.
-/
import Vireo.Lib.Prog
import Vireo.Persistence.Cell
import Vireo.Persistence.Pool

namespace Vireo.Persistence

open Lib

/-! ## 1. Statement texts, parameters and outcomes -/

/-- The row lock a read takes. -/
inductive Lock where
  | share
  | update
deriving DecidableEq

/-- The fixed statement texts. -/
inductive Sql where
  /-- `SET autocommit=0` -/
  | begin
  /-- `COMMIT` -/
  | commit
  /-- `ROLLBACK` -/
  | rollback
  /-- `SELECT id,status FROM users WHERE id=?` with the lock -/
  | userStatus (lock : Lock)
  /-- `SELECT id,user_id,status,issued_at_ms,expires_at_ms,revoked_at_ms,last_seen_at_ms FROM
      sessions WHERE id=? FOR SHARE` -/
  | sessionState
  /-- The eleven node columns `WHERE owner_id=? AND parent_id IS NULL AND state=2 FOR SHARE` -/
  | rootNode
  /-- The eleven node columns `WHERE owner_id=? AND id=? AND state=2` with the lock -/
  | activeNode (lock : Lock)
  /-- The eleven node columns `WHERE owner_id=? AND parent_id=? AND state=2 AND id>? ORDER BY id ASC
      LIMIT ? FOR SHARE` -/
  | activeChildren
  /-- `SELECT id,owner_id,parent_id,name,state FROM file_nodes WHERE owner_id=? AND parent_id=? AND
      live_name=? FOR UPDATE` -/
  | liveName
  /-- `SELECT id,owner_id,parent_id,node_type,state FROM file_nodes WHERE owner_id=? AND parent_id=?
      AND state IN (1,2) ORDER BY id LIMIT 1 FOR UPDATE` -/
  | liveChild
  /-- `SELECT object_hash,size,state,ref_count,storage_class,created_at_ms,updated_at_ms,
      verified_at_ms FROM objects WHERE object_hash=? FOR UPDATE` -/
  | objectRow
  /-- `INSERT INTO file_nodes(…) VALUES(?,?,?,1,2,NULL,0,?,?,NULL)` -/
  | insertDirectory
  /-- `INSERT INTO operation_audits(…) VALUES(?,?,?,action,3,?,NULL,0,0,'',?)` -/
  | insertNodeAudit (action : UInt64)
  /-- `UPDATE file_nodes SET parent_id=?,name=?,updated_at_ms=? WHERE owner_id=? AND id=? AND
      state=2` -/
  | moveNode
  /-- `UPDATE file_nodes SET state=3,updated_at_ms=?,deleted_at_ms=? WHERE owner_id=? AND id=? AND
      state=2` -/
  | deleteNode
  /-- `UPDATE objects SET ref_count=?,updated_at_ms=? WHERE object_hash=? AND ref_count=? AND
      state=?` -/
  | updateObject
  /-- `SELECT user_id,command,idempotency_key,format_version,request_parent_id,request_name,
      result_node_id,audit_id,created_at_ms FROM directory_write_receipts WHERE user_id=? AND
      command=1027 AND idempotency_key=? FOR UPDATE` -/
  | mkdirReceipt
  /-- `SELECT user_id,command,idempotency_key,format_version,request_parent_id,request_node_id,
      request_name,result_node_id,audit_id,created_at_ms FROM directory_write_receipts WHERE
      user_id=? AND command=1029 AND idempotency_key=? FOR UPDATE` -/
  | moveReceipt
  /-- `SELECT user_id,command,idempotency_key,format_version,request_node_id,result_node_id,audit_id,
      created_at_ms FROM node_remove_receipts WHERE user_id=? AND command=1028 AND
      idempotency_key=? FOR UPDATE` -/
  | removeReceipt
  /-- `INSERT INTO directory_write_receipts(…) VALUES(?,1027,?,1,?,?,?,?,?)` -/
  | insertMkdirReceipt
  /-- `INSERT INTO directory_write_receipts(…) VALUES(?,1029,?,1,?,?,?,?,?,?)` -/
  | insertMoveReceipt
  /-- `INSERT INTO node_remove_receipts(…) VALUES(?,1028,?,1,?,?,?,?)` -/
  | insertRemoveReceipt
  /-- `INSERT INTO users(…) VALUES(?,?,?,1,?,?)` -/
  | insertUser
  /-- `INSERT INTO file_nodes(…) VALUES(?,NULL,'',1,2,NULL,0,?,?,NULL)` -/
  | insertRoot
  /-- `INSERT INTO operation_audits(…) VALUES(?,?,NULL,1,1,?,NULL,0,?,'',?)` -/
  | insertRegisterAudit
  /-- `SELECT password_hash,status,created_at_ms FROM users WHERE id=? FOR UPDATE` -/
  | accountRow
  /-- `INSERT INTO sessions(…) VALUES(?,?,1,?,?,NULL,?)` -/
  | insertSession
  /-- `UPDATE users SET last_login_at_ms=GREATEST(COALESCE(last_login_at_ms,0),?),
      updated_at_ms=GREATEST(updated_at_ms,?) WHERE id=?` -/
  | touchLogin
  /-- `INSERT INTO operation_audits(…) VALUES(?,?,?,action,2,?,NULL,0,?,'',?)` -/
  | insertSessionAudit (action : UInt64)
  /-- `SELECT s.id,s.user_id,s.status,s.issued_at_ms,s.expires_at_ms,s.revoked_at_ms,
      s.last_seen_at_ms,u.status FROM sessions s JOIN users u ON u.id=s.user_id WHERE
      s.token_digest=?` -/
  | sessionByDigest
  /-- `SELECT id FROM users WHERE id=? FOR UPDATE` -/
  | logoutUser
  /-- `SELECT user_id,status,issued_at_ms,expires_at_ms,revoked_at_ms,last_seen_at_ms FROM sessions
      WHERE id=? FOR UPDATE` -/
  | logoutSession
  /-- `UPDATE sessions SET status=2,revoked_at_ms=? WHERE id=? AND user_id=? AND status=1` -/
  | revokeSession
  /-- `SELECT id,status,password_hash FROM users WHERE username_key=?` -/
  | credentialsByKey
  /-- `INSERT INTO operation_audits(…) VALUES(?,NULL,NULL,?,0,NULL,NULL,?,?,?,?)` -/
  | insertFailureAudit
deriving DecidableEq

/-- BEGIN, COMMIT and ROLLBACK. -/
def Sql.Bracket (q : Sql) : Prop := q = .begin ∨ q = .commit ∨ q = .rollback

instance (q : Sql) : Decidable q.Bracket := inferInstanceAs (Decidable (_ ∨ _ ∨ _))

/-- `vireo_mysql_parameter_t`: the two kinds the repositories bind. -/
inductive Param where
  | u64 (value : UInt64)
  | bytes (value : Bytes)
deriving DecidableEq

/-- `vireo_mysql_statement_limits_t`. -/
structure Limits where
  parameters : Nat
  columns : Nat
  parameterBytes : Nat
  cellBytes : Nat
  memoryBytes : Nat

/-- The stages of `vireo_mysql_error_t` a repository tells apart. -/
inductive DbStage where
  | none
  | execute
  | other
deriving DecidableEq

/-- `vireo_mysql_error_t`, as far as a repository reads it. -/
structure DbError where
  stage : DbStage := .none
  code : Nat := 0

/-- `vireo_mysql_execution_t`. -/
structure Execution where
  started : Bool := false
  hasResult : Bool := false
  affectedRows : UInt64 := 0
  insertId : UInt64 := 0
deriving DecidableEq

/-- `vireo_mysql_fetch_outcome_t`, with a place for a value outside the enumeration. -/
inductive Fetched where
  | row
  | done
  | other
deriving DecidableEq

/-- What `acquire` leaves: its result and, when it failed, whether a lease is held all the same. -/
structure Acquired where
  result : Result
  left : Bool := false
deriving DecidableEq

/-- What `prepare` leaves: on success a statement, else possibly one (`left`). -/
structure Prepared where
  result : Result
  left : Bool := false
  error : DbError := {}

/-- What `execute` leaves. -/
structure Executed where
  result : Result
  execution : Execution
  error : DbError := {}

/-- What `fetch` leaves. -/
structure FetchReply where
  result : Result
  outcome : Fetched
  error : DbError := {}

/-- What `close` leaves: `left` when the statement was not consumed. -/
structure Closed where
  result : Result
  left : Bool := false
  error : DbError := {}

/-- What the clock leaves: the return value and the sample. -/
structure Sampled where
  returned : Int
  time : Timespec
deriving DecidableEq

/-- What `release` leaves: `released` as reported, `left` when the lease is still held. -/
structure ReleaseReply where
  result : Result
  released : Bool
  left : Bool := false
deriving DecidableEq

/-- `vireo_mysql_node_ops_t` (`vireo_mysql_user_repository_ops_t` lacks the clock), over a world
    that decides the outcomes. -/
structure Ops (W : Type) where
  allocate : W → Bool × W
  acquire : UInt32 → W → Acquired × W
  borrow : W → Result × W
  prepare : Sql → Limits → W → Prepared × W
  execute : Sql → List Param → W → Executed × W
  fetch : Sql → W → FetchReply × W
  column : Sql → Nat → W → Except Failure Cell × W
  close : Sql → W → Closed × W
  utc : W → Sampled × W
  release : Disposition → W → ReleaseReply × W

/-! ## 2. One call -/

/-- `vireo_mysql_node_stage_t` and `vireo_mysql_user_repository_stage_t`, without `STAGE_NONE`. -/
inductive Stage where
  | validate | allocate | acquire | borrow | begin | user | session | node | utc | rollback
  | statementClose | release | nameCheck | insert | audit | commit | source | targetParent | ancestor
  | update | children | softDelete | object | objectUpdate | receiptRead | receiptInsert
  | root | account | loginUpdate | sessionLookup | logoutUser | logoutSession | sessionRevoke
  | credentials
deriving DecidableEq

/-- `vireo_mysql_node_error_t` and `vireo_mysql_user_repository_error_t`: the first cause and the first failed
    cleanup step. -/
structure Diagnosis where
  stage : Option Stage := none
  database : DbError := {}
  cleanupResult : Result := .ok
  cleanupStage : Option Stage := none

/-- `diagnose`: the first cause and the first cleanup failure are kept. -/
def Diagnosis.note (e : Diagnosis) (stage : Stage) (rc : Result) (db : Option DbError)
    (cleanup : Bool) : Diagnosis :=
  if rc = .ok then e
  else
    let e := if cleanup ∧ e.cleanupResult = .ok then
      { e with cleanupResult := rc, cleanupStage := some stage } else e
    if e.stage = none then { e with stage := some stage, database := db.getD e.database } else e

/-- What one call of a repository reads and writes. -/
structure Call (W I : Type) where
  world : W
  lease : Bool
  connection : Bool
  statement : Option Sql
  err : Diagnosis
  issue : I
  transaction : Bool

/-- `struct vireo_mysql_node_repository` (and its user counterpart): what a repository holds between
    calls. -/
structure Repo where
  lease : Bool := false
  connection : Bool := false
  statement : Option Sql := none
deriving DecidableEq

/-- `pending`. -/
def Repo.pending (r : Repo) : Bool := r.statement.isSome || r.lease

namespace Call

variable {W I : Type}

def repo (s : Call W I) : Repo := ⟨s.lease, s.connection, s.statement⟩

/-- A call that begins on repository `r`. -/
def enter [Inhabited I] (r : Repo) (w : W) : Call W I :=
  ⟨w, r.lease, r.connection, r.statement, {}, default, false⟩

def diagnose (s : Call W I) (stage : Stage) (rc : Result) (db : Option DbError) (cleanup : Bool) :
    Call W I := { s with err := s.err.note stage rc db cleanup }

end Call

/-- The steps of a call. -/
abbrev Step (W I α : Type) := Prog Failure (Call W I) α

section Steps

variable {W I α : Type} (ops : Ops W)

/-- Go on after a result that is OK, fail with any other. -/
def succeed (rc : Result) : Step W I Unit :=
  if h : rc = .ok then pure () else Prog.fail ⟨rc, h⟩

/-- The first cause is noted when a step fails. -/
def diagnosing (stage : Stage) (db : Option DbError) (p : Step W I α) : Step W I α :=
  Prog.onError p fun f s => s.diagnose stage f.val db false

/-- `close_statement`: consume the statement, if there is one. -/
def closeStatement : Step W I Unit := fun s =>
  match s.statement with
  | none => (.ok (), s)
  | some sql =>
    let (o, w) := ops.close sql s.world
    succeed o.result ({ s with
      world := w
      statement := if o.left then some sql else none }.diagnose .statementClose o.result o.error true)

/-- The end of every helper: note the cause, then close; the first failure counts. -/
def closing (stage : Stage) (p : Step W I α) : Step W I α :=
  Prog.always (diagnosing stage none p) (closeStatement ops)

variable (remap : Result → Result)

/-- `prepare`, with its diagnosis. -/
def prepareSql (limits : Limits) (sql : Sql) (stage : Stage) (cleanup : Bool) (s : Call W I) :
    Result × Call W I :=
  let o := ops.prepare sql limits s.world
  (remap o.1.result, { s with
    world := o.2
    statement := if o.1.result = .ok ∨ o.1.left then some sql else s.statement
    err := s.err.note stage (remap o.1.result) (some o.1.error) cleanup })

/-- `execute`, with its diagnosis. -/
def executeSql (sql : Sql) (params : List Param) (stage : Stage) (cleanup : Bool) (s : Call W I) :
    (Result × Execution) × Call W I :=
  let o := ops.execute sql params s.world
  ((remap o.1.result, o.1.execution), { s with
    world := o.2
    err := s.err.note stage (remap o.1.result) (some o.1.error) cleanup })

/-- The body of the `execute` helpers and of `command` up to its reply: prepare, then execute, which is
    returned on failure too. -/
def prepareExecute (limits : Limits) (sql : Sql) (params : List Param) (stage : Stage) (cleanup : Bool)
    (s : Call W I) : (Result × Execution) × Call W I :=
  let p := prepareSql ops remap limits sql stage cleanup s
  if p.1 = .ok then executeSql ops remap sql params stage cleanup p.2 else ((p.1, {}), p.2)

/-- The outputs of a command. -/
structure CommandReply where
  result : Result
  execution : Execution
  replied : Bool

/-- A reply of the wrong shape: a result set, or an insert that does not report one row with an
    id. -/
def Execution.misshapen (ex : Execution) (insert : Bool) : Bool :=
  ex.hasResult || (insert && (ex.affectedRows != 1 || ex.insertId == 0))

/-- `write_command`, `command` of the user repository, and BEGIN and ROLLBACK of a read: the reply is complete
    when the execution succeeded in the right shape. -/
def command (limits : Limits) (sql : Sql) (params : List Param) (stage : Stage) (insert cleanup : Bool)
    (s : Call W I) : CommandReply × Call W I :=
  let run := prepareExecute ops remap limits sql params stage cleanup s
  let bad := decide (run.1.1 = .ok) && run.1.2.misshapen insert
  let rc := if bad then .database else run.1.1
  let closed := closeStatement ops
    (if bad then run.2.diagnose stage .database none cleanup else run.2)
  (⟨rc.first (.ofExcept closed.1), run.1.2, decide (rc = .ok)⟩, closed.2)

/-- `prepareExecute` as a step. -/
def executing (limits : Limits) (sql : Sql) (params : List Param) (stage : Stage) :
    Step W I Execution := fun s =>
  let ((rc, ex), s) := prepareExecute ops remap limits sql params stage false s
  (do succeed rc; pure ex : Step W I Execution) s

/-- One `fetch` of the held statement. -/
def fetching (sql : Sql) : Step W I FetchReply := fun s =>
  let (o, w) := ops.fetch sql s.world
  (.ok o, { s with world := w })

/-- One `column` of the held statement. -/
def column (sql : Sql) (i : Nat) : Step W I Cell := fun s =>
  let (o, w) := ops.column sql i s.world
  (o, { s with world := w })

/-- The columns `i, i + 1, …`, `n` of them; the first failure ends the loop. -/
def columnsFrom (sql : Sql) (i : Nat) : Nat → Step W I (List Cell)
  | 0 => pure []
  | n + 1 => do
    let c ← column ops sql i
    let cs ← columnsFrom sql (i + 1) n
    pure (c :: cs)

/-- `read_row` and `delete_row`: one fetch and its columns, or the end of the result. -/
def readRow (sql : Sql) (stage : Stage) (count : Nat) : Step W I (Option (List Cell)) := do
  let o ← fetching ops sql
  diagnosing stage (some o.error) <| Prog.mapError (do
    succeed o.result
    match o.outcome with
    | .row => do
      let cells ← columnsFrom ops sql 0 count
      pure (some cells)
    | .done => pure none
    | .other => Prog.fail .database) Failure.noRange

/-- `unique_end`: the next fetch must end the result. -/
def uniqueEnd (sql : Sql) (stage : Stage) : Step W I Unit := do
  let o ← fetching ops sql
  diagnosing stage (some o.error) <| Prog.mapError (do
    succeed o.result
    if o.outcome = .done then pure () else Prog.fail .database) Failure.noRange

/-! ## 3. The clock -/

/-- The conversion of `capture_utc`: milliseconds since the epoch, refused when the sample is not a
    proper time or does not fit. -/
def Sampled.millis (u : Sampled) : Except Failure UInt64 :=
  if u.returned = -1 then .error ⟨.io, by decide⟩
  else if u.returned = 0 ∧ 0 ≤ u.time.sec ∧ 0 ≤ u.time.nsec ∧ u.time.nsec < 1000000000 then
    if u.time.sec.toNat > u64Max.toNat then .error ⟨.overflow, by decide⟩
    else
      match checkedU64Mul (UInt64.ofNat u.time.sec.toNat) 1000 with
      | .error _ => .error ⟨.overflow, by decide⟩
      | .ok seconds =>
        match checkedU64Add seconds (UInt64.ofNat (u.time.nsec.toNat / 1000000)) with
        | .error _ => .error ⟨.overflow, by decide⟩
        | .ok now => .ok now
  else .error ⟨.internal, by decide⟩

/-- `capture_utc`. -/
def captureUtc : Step W I UInt64 :=
  diagnosing .utc none fun s =>
    let (u, w) := ops.utc s.world
    (u.millis, { s with world := w })

/-! ## 4. The lease -/

/-- `acquire`, with its diagnosis. -/
def acquireLease (timeout : UInt32) : Step W I Unit := fun s =>
  let (o, w) := ops.acquire timeout s.world
  succeed o.result ({ s with
    world := w
    lease := decide (o.result = Result.ok) || o.left }.diagnose .acquire o.result none false)

/-- `borrow`, with its diagnosis. -/
def borrowConnection : Step W I Unit := fun s =>
  let (rc, w) := ops.borrow s.world
  succeed rc ({ s with
    world := w
    connection := decide (rc = Result.ok) || s.connection }.diagnose .borrow rc none false)

/-- Give the lease back, when no statement is open. -/
def releaseLease (healthy : Bool) (rc : Result) (s : Call W I) : Result × Call W I :=
  if s.statement = none ∧ s.lease then
    let (o, w) := ops.release (if healthy then .recycle else .discard) s.world
    (rc.first o.result, { s with
      world := w
      lease := o.left
      connection := s.connection && !o.released }.diagnose .release o.result none true)
  else (rc, s)

/-! ## 5. What the helpers leave alone -/

theorem succeed_state (rc : Result) (s : Call W I) : (succeed rc s).2 = s := by
  unfold succeed
  split <;> rfl

/-- Lease, connection, transaction and issue of two states agree. -/
structure SameHeld (s s' : Call W I) : Prop where
  lease : s'.lease = s.lease
  connection : s'.connection = s.connection
  transaction : s'.transaction = s.transaction
  issue : s'.issue = s.issue

theorem SameHeld.trans {a b c : Call W I} (h : SameHeld a b) (k : SameHeld b c) : SameHeld a c :=
  ⟨k.lease.trans h.lease, k.connection.trans h.connection, k.transaction.trans h.transaction,
    k.issue.trans h.issue⟩

theorem sameHeld_closeStatement (s : Call W I) : SameHeld s (closeStatement ops s).2 := by
  unfold closeStatement
  cases s.statement with
  | none => exact ⟨rfl, rfl, rfl, rfl⟩
  | some sql =>
    dsimp only
    rw [succeed_state]
    exact ⟨rfl, rfl, rfl, rfl⟩

theorem sameHeld_prepareExecute (remap : Result → Result) (limits : Limits) (sql : Sql)
    (params : List Param) (stage : Stage) (cleanup : Bool) (s : Call W I) :
    SameHeld s (prepareExecute ops remap limits sql params stage cleanup s).2 := by
  rw [prepareExecute]
  split <;> exact ⟨rfl, rfl, rfl, rfl⟩

theorem sameHeld_command (remap : Result → Result) (limits : Limits) (sql : Sql)
    (params : List Param) (stage : Stage) (insert cleanup : Bool) (s : Call W I) :
    SameHeld s (command ops remap limits sql params stage insert cleanup s).2 := by
  refine (sameHeld_prepareExecute ops remap limits sql params stage cleanup s).trans ?_
  refine .trans ?_ (sameHeld_closeStatement ops _)
  split <;> exact ⟨rfl, rfl, rfl, rfl⟩

end Steps

end Vireo.Persistence
