/-
  File:      Vireo/Persistence/Migrator.lean
  Subject:   THE MIGRATOR: one run over a catalogue, as the code makes it.

  A run keeps its first failure in its context and goes on to its cleanup, so every function returns
  and callers look at `result`. The dependencies are a table `MigratorOps W` over an arbitrary world;
  `MigrationServer.lean` instantiates it with a database.

  * `tableExists`, `emptySchema`, `metadata`, `history` -- the checks;
  * `writeSql`, `runLocked`, `applyWithOps` -- the run.
-/
import Vireo.Lib.Action
import Vireo.Persistence.Migration

namespace Vireo.Persistence.Migrator

open Lib Action

/-! ## 1. Dependencies and reports -/

/-- `vireo_mysql_migration_stage_t`; `STAGE_NONE` is `none` of `Option Stage`. -/
inductive Stage where
  | validate | hash | open | lock | bootstrap | history | dirty | step | applied | unlock | close
deriving DecidableEq

/-- `vireo_mysql_migration_issue_t`. -/
inductive Issue where
  | none | dirty | checksum | versionAhead | historyShape | metadataShape | untrackedSchema
  | unexpectedResult
deriving DecidableEq

/-- `vireo_mysql_migration_report_t`. -/
structure Report where
  historyValidated : Bool := false
  appliedBefore : Nat := 0
  appliedAfter : Nat := 0
  migrationsApplied : Nat := 0
  stepsCompleted : Nat := 0
  failedVersion : Nat := 0
  failedStep : Nat := 0
  writeAttempted : Bool := false
  ready : Bool := false
  connectionClosed : Bool := false

/-- `vireo_mysql_migration_error_t`. -/
structure Error where
  stage : Option Stage := none
  issue : Issue := .none
  database : DbError := {}
  cleanupResult : Result := .ok
  cleanupStage : Option Stage := none
  cleanupDatabase : DbError := {}

/-- `vireo_mysql_statement_info_t`, as far as the migrator reads it. -/
structure Info where
  parameterCount : Nat
  columnCount : Nat

/-- `vireo_mysql_migration_ops_t`, over a world that decides the outcomes. The two digests stand for
    the calls of the hash library. -/
structure MigratorOps (W : Type) where
  openConnection : W → Prepared × W
  close : W → Closed × W
  prepare : MigrationSql → Limits → W → Prepared × W
  inspect : MigrationSql → W → Except Failure Info × W
  execute : MigrationSql → List MigrationParam → W → Executed × W
  fetch : MigrationSql → W → FetchReply × W
  column : MigrationSql → Nat → W → Except Failure Cell × W
  destroy : MigrationSql → W → Closed × W
  hash : Migration → W → Except Failure Digest × W
  lockDigest : Bytes → W → Except Failure Digest × W

/-- `migration_context_t`: the connection and the statement are known by what they are. -/
structure Context (W : Type) where
  world : W
  connection : Bool := false
  statement : Option MigrationSql := none
  report : Report := {}
  error : Error := {}
  phase : Stage := .validate
  result : Result := .ok
  executeSucceeded : Bool := false

/-- The steps of a run. -/
abbrev Step (W α : Type) := Action (Context W) α

namespace Context

variable {W : Type}

/-- `fail`: the first cause is kept. -/
def fail (r : Result) (issue : Issue) (database : Option DbError) (c : Context W) : Context W :=
  if r = .ok ∨ c.result ≠ .ok then c
  else
    { c with
      result := r
      error := { c.error with
        stage := some c.phase
        issue := issue
        database := database.getD c.error.database }
      report := if c.phase ≠ .step then { c.report with failedStep := 0 } else c.report }

/-- `cleanup_failure`: the first failed cleanup step is kept apart, and is the cause when there is no
    other. -/
def cleanupFailure (r : Result) (stage : Stage) (e : Option DbError) (c : Context W) : Context W :=
  if r = .ok then c
  else
    let c := if c.error.cleanupResult = .ok then
      { c with error := { c.error with
          cleanupResult := r
          cleanupStage := some stage
          cleanupDatabase := e.getD c.error.cleanupDatabase } } else c
    { fail r .none e { c with phase := stage } with phase := c.phase }

/-- `shape`. -/
def shape (issue : Issue) (c : Context W) : Context W := c.fail .database issue none

/-- Change the report. -/
def reporting (f : Report → Report) (c : Context W) : Context W := { c with report := f c.report }

end Context

open Context (shape reporting)

section Steps

variable {W : Type} (ops : MigratorOps W)

/-- `c->result == VIREO_OK`. -/
def good : Step W Bool := read fun c => decide (c.result = .ok)

def phase (stage : Stage) : Step W Unit := modify fun c => { c with phase := stage }

/-! ## 2. Statements -/

/-- `stop`: consume the statement, if there is one. -/
def stop : Step W Unit := fun c =>
  match c.statement with
  | none => ((), c)
  | some sql =>
    let o := ops.destroy sql c.world
    ((), Context.cleanupFailure o.1.result .close (some o.1.error)
      { c with world := o.2, statement := if o.1.left then some sql else none })

variable (sql : MigrationSql)

/-- The call of `prepare`. -/
def prepare (limits : Limits) : Step W Prepared := fun c =>
  let o := ops.prepare sql limits c.world
  (o.1, { c with
    world := o.2
    statement := if o.1.result = .ok ∨ o.1.left then some sql else c.statement })

/-- The call of `execute`; an execution that was begun counts as an attempt to write. -/
def execute (p : List MigrationParam) (write : Bool) : Step W Executed := fun c =>
  let o := ops.execute sql p c.world
  (o.1, { c with
    world := o.2
    report := if write ∧ o.1.execution.started then { c.report with writeAttempted := true } else c.report })

/-- The call of `inspect`. -/
def inspect : Step W (Except Failure Info) := fun c =>
  let o := ops.inspect sql c.world
  (o.1, { c with world := o.2 })

/-- The end of `start`: the shape of the result. -/
def startShape (count columns : Nat) (execution : Execution) : Step W Bool := do
  match ← inspect ops sql with
  | .error f => do
    modify (Context.fail f.val .none none)
    pure false
  | .ok info =>
    if info.parameterCount ≠ count ∨ info.columnCount ≠ columns ∨
        execution.hasResult ≠ decide (columns ≠ 0) then do
      modify (shape .unexpectedResult)
      pure false
    else pure true

/-- `start`: prepare, execute and look at the shape. The execution is returned on failure too. -/
def start (p : List MigrationParam) (columns : Nat) (write : Bool) :
    Step W (Bool × Execution) := do
  modify fun c => { c with executeSucceeded := false }
  let prepared ← prepare ops sql ⟨p.length, columns, 1024, 4096, 262144⟩
  if prepared.result ≠ .ok then do
    modify (Context.fail prepared.result .none (some prepared.error))
    pure (false, {})
  else do
    let executed ← execute ops sql p write
    if executed.result ≠ .ok then do
      modify (Context.fail executed.result .none (some executed.error))
      pure (false, executed.execution)
    else do
      modify fun c => { c with executeSucceeded := true }
      let valid ← startShape ops sql p.length columns executed.execution
      pure (valid, executed.execution)

/-- The call of `fetch`. -/
def fetch : Step W FetchReply := fun c =>
  let o := ops.fetch sql c.world
  (o.1, { c with world := o.2 })

/-- `next`: whether there is a row. -/
def next : Step W Bool := do
  let o ← fetch ops sql
  if o.result ≠ .ok then do
    modify (Context.fail o.result .none (some o.error))
    pure false
  else pure (decide (o.outcome = .row))

/-- The call of `column`. -/
def column (i : Nat) : Step W (Except Failure Cell) := fun c =>
  let o := ops.column sql i c.world
  (o.1, { c with world := o.2 })

/-- `cell`: the view of a column; a zero view, which is not NULL, when it cannot be read. -/
def cell (i : Nat) : Step W Cell := do
  match ← column ops sql i with
  | .error f => do
    modify (Context.fail f.val .none none)
    pure (some [])
  | .ok v => pure v

/-- `equals`. -/
def equals (i : Nat) (s : Bytes) : Step W Bool := do
  let v ← cell ops sql i
  let ok ← good
  pure (ok && decide (v = some s))

/-- `cell(c,i).is_null`. -/
def isNull (i : Nat) : Step W Bool := do
  let v ← cell ops sql i
  pure v.isNone

/-- `number`. -/
def number (i : Nat) : Step W (Option Nat) := do
  let v ← cell ops sql i
  let ok ← good
  pure (if ok then number32 v else none)

/-- The end of a result of one row: nothing may follow. -/
def lastRow (issue : Issue) : Step W Unit := do
  let ok ← good
  when ok do
    let row ← next ops sql
    when row (modify (shape issue))

/-- `scalar`: the one number that a query answers with. -/
def scalar (p : List MigrationParam) : Step W (Option Nat) := do
  let started ← start ops sql p 1 false
  if started.1 then do
    let row ← next ops sql
    let value ← (if row then number ops sql 0 else pure none)
    when value.isNone (modify (shape .unexpectedResult))
    lastRow ops sql .unexpectedResult
    stop ops
    let ok ← good
    pure (if ok then value else none)
  else pure none

/-! ## 3. The checks of a run -/

/-- `table`: whether the history table exists, by its exact name, as an InnoDB base table. -/
def tableExists (database : MigrationParam) : Step W (Option Bool) := do
  let started ← start ops .table [database] 3 false
  if started.1 then do
    let found ← next ops .table
    when found do
      let same ← both (equals ops .table 0 (ascii "BASE TABLE"))
        (both (equals ops .table 1 (ascii "InnoDB")) (equals ops .table 2 (ascii "vireo_schema_migrations")))
      when (!same) (modify (shape .metadataShape))
      lastRow ops .table .metadataShape
    stop ops
    let ok ← good
    pure (if ok then some found else none)
  else pure none

/-- `empty_schema`: no other table or view. -/
def emptySchema (database : MigrationParam) : Step W Bool := do
  match ← scalar ops .otherTables [database] with
  | none => pure false
  | some n => do
    when (n ≠ 0) (modify (shape .untrackedSchema))
    good

/-- The three columns of the history table, each with its two spellings of the type. -/
def historyColumns : List (Bytes × Bytes × Bytes) :=
  [(ascii "version", ascii "int unsigned", ascii "int(10) unsigned"),
    (ascii "checksum", ascii "binary(32)", ascii "binary(32)"),
    (ascii "state", ascii "tinyint unsigned", ascii "tinyint(3) unsigned")]

/-- One row of `columns`, against what is expected there. -/
def columnMatches (expected : Bytes × Bytes × Bytes) : Step W Bool :=
  both (equals ops .columns 0 expected.1) <|
  both (either (equals ops .columns 1 expected.2.1) (equals ops .columns 1 expected.2.2)) <|
  both (equals ops .columns 2 (ascii "NO")) <|
  both (isNull ops .columns 3) <|
  both (equals ops .columns 4 []) (equals ops .columns 5 [])

/-- The column loop of `metadata`: whether all three columns, and no other, were there. A row after
    the third is one too many. -/
def columnLoop : List (Bytes × Bytes × Bytes) → Step W Bool
  | [] => do
    let row ← both good (next ops .columns)
    when row (modify (shape .metadataShape))
    pure true
  | expected :: rest => do
    if ← both good (next ops .columns) then
      if ← columnMatches ops expected then columnLoop rest
      else do
        modify (shape .metadataShape)
        pure false
    else pure false

/-- The one row of `statistics`: the primary key on `version`. -/
def primaryKey : Step W Bool :=
  both (next ops .statistics) <|
  both (equals ops .statistics 0 (ascii "PRIMARY")) <|
  both (equals ops .statistics 1 (ascii "0")) <|
  both (equals ops .statistics 2 (ascii "1")) <|
  both (equals ops .statistics 3 (ascii "version")) <|
  both (isNull ops .statistics 4) (equals ops .statistics 5 (ascii "BTREE"))

/-- The three counts of `metadata`, which must be zero. -/
def countLoop (database : MigrationParam) : List MigrationSql → Step W Bool
  | [] => pure true
  | sql :: rest => do
    match ← scalar ops sql [database] with
    | none => pure false
    | some n =>
      if n ≠ 0 then do
        modify (shape .metadataShape)
        pure false
      else countLoop database rest

/-- `metadata`: the whole visible structure of the history table. -/
def metadata (database : MigrationParam) : Step W Bool := do
  let started ← start ops .columns [database] 6 false
  if started.1 then do
    let complete ← columnLoop ops historyColumns
    when (!complete) (modify (shape .metadataShape))
    stop ops
    if ← good then do
      let started ← start ops .statistics [database] 6 false
      if started.1 then do
        let key ← primaryKey ops
        when (!key) (modify (shape .metadataShape))
        lastRow ops .statistics .metadataShape
        stop ops
        if ← good then countLoop ops database [.constraints, .triggers, .partitions]
        else pure false
      else pure false
    else pure false
  else pure false

/-- The checks of one history row, which must be version `n + 1`, applied: the cell of its
    checksum. -/
def historyRow (count n : Nat) : Step W (Option Cell) := do
  match ← number ops .selectHistory 0 with
  | none => do
    modify (shape .historyShape)
    pure none
  | some version => do
    modify (reporting fun r => { r with failedVersion := version })
    if version ≠ n + 1 then do
      modify (shape .historyShape)
      pure none
    else if version > count then do
      modify (shape .versionAhead)
      pure none
    else do
      match ← number ops .selectHistory 2 with
      | none => do
        modify (shape .historyShape)
        pure none
      | some state =>
        if state > 1 then do
          modify (shape .historyShape)
          pure none
        else if state = 0 then do
          modify (shape .dirty)
          pure none
        else do
          let checksum ← cell ops .selectHistory 1
          pure (some checksum)

/-- The row loop of `history`, with the hashes from version `n + 1` on: the number of valid rows. -/
def historyLoop (count : Nat) (n : Nat) (hashes : List Digest) : Step W Nat := do
  if ← both good (next ops .selectHistory) then
    match ← historyRow ops count n with
    | none => pure n
    | some checksum =>
      match hashes with
      | [] => pure n -- behind the array: no row passes with a version above `count`
      | hash :: hashes =>
        match checksum with
        | none => do
          modify (shape .historyShape)
          pure n
        | some bytes =>
          if bytes.length ≠ 32 then do
            modify (shape .historyShape)
            pure n
          else if bytes ≠ hash.val then do
            modify (shape .checksum)
            pure n
          else historyLoop count (n + 1) hashes
  else pure n

/-- `history`: the whole history, against the whole catalogue. -/
def history (hashes : List Digest) (database : MigrationParam) : Step W Bool := do
  let started ← start ops .selectHistory [] 3 false
  if started.1 then do
    let n ← historyLoop ops hashes.length 0 hashes
    stop ops
    if ← good then do
      modify (reporting fun r => { r with failedVersion := 0 })
      let known ← (if n = 0 then emptySchema ops database else pure true)
      if known then do
        modify (reporting fun r =>
          { r with historyValidated := true, appliedBefore := n, appliedAfter := n })
        pure true
      else pure false
    else pure false
  else pure false

/-! ## 4. The writes of a run -/

/-- What `write_sql` counts: a completed step, a completed version. -/
def Context.count (execution : Execution) (one ddl : Bool) (c : Context W) : Context W :=
  let c := if c.executeSucceeded ∧ ¬ execution.hasResult ∧ ddl then
    c.reporting fun r => { r with stepsCompleted := r.stepsCompleted + 1 } else c
  if c.executeSucceeded ∧ ¬ execution.hasResult ∧ one ∧ execution.affectedRows = 1 ∧ c.phase = .applied then
    c.reporting fun r =>
      { r with migrationsApplied := r.migrationsApplied + 1, appliedAfter := r.failedVersion }
  else c

/-- `write_sql`: one write without a result; `one` when it must affect one row. -/
def writeSql (sql : MigrationSql) (p : List MigrationParam) (one ddl : Bool) : Step W Bool := do
  let started ← start ops sql p 0 true
  when (started.1 ∧ one ∧ started.2.affectedRows ≠ 1) (modify (shape .unexpectedResult))
  modify (Context.count started.2 one ddl)
  stop ops
  good

/-- The steps of a version, from step `j + 1` on. -/
def stepLoop (j : Nat) : List MigrationStep → Step W Bool
  | [] => pure true
  | s :: rest => do
    modify (reporting fun r => { r with failedStep := j + 1 })
    if ← writeSql ops (.ddl s) [] false true then stepLoop (j + 1) rest
    else pure false

/-- The parameters of the dirty row and of its completion. -/
def versionParams (m : Migration) (hash : Digest) : List MigrationParam :=
  [.u64 m.version.toUInt64, .bytes hash.val]

/-- One version: the dirty row, the steps, the completion. -/
def applyVersion (m : Migration) (hash : Digest) : Step W Bool := do
  modify (reporting fun r => { r with failedVersion := m.version.toNat })
  phase .dirty
  if ← writeSql ops .insertDirty (versionParams m hash) true false then do
    phase .step
    if ← stepLoop ops 0 m.steps then do
      modify (reporting fun r => { r with failedStep := 0 })
      phase .applied
      writeSql ops .markApplied (versionParams m hash) true false
    else pure false
  else pure false

/-- The versions that are left, each with its hash. -/
def versionLoop : List (Migration × Digest) → Step W Unit
  | [] => modify (reporting fun r => { r with failedVersion := 0 })
  | (m, hash) :: rest => do
    if ← applyVersion ops m hash then versionLoop rest

/-- The history table, created when there is none; whether the run goes on. -/
def bootstrap (database : MigrationParam) : Step W Bool := do
  match ← tableExists ops database with
  | none => pure false
  | some true => pure true
  | some false => do
    if ← emptySchema ops database then do
      if ← writeSql ops .createHistory [] false false then do
        match ← tableExists ops database with
        | none => pure false
        | some true => pure true
        | some false => do
          modify (shape .metadataShape)
          pure false
      else pure false
    else pure false

/-- `run_locked` once there is a history table: its shape, its rows, and the versions that are left. -/
def runHistory (m : List Migration) (hashes : List Digest) (database : MigrationParam) : Step W Unit := do
  if ← metadata ops database then do
    phase .history
    if ← history ops hashes database then do
      let before ← read fun c => c.report.appliedBefore
      versionLoop ops ((m.zip hashes).drop before)

/-- `run_locked`. -/
def runLocked (m : List Migration) (hashes : List Digest) (database : MigrationParam) : Step W Unit := do
  phase .bootstrap
  if ← bootstrap ops database then runHistory ops m hashes database

/-! ## 5. A run -/

/-- The arguments of a run: whether thread and report are there, the database name and the catalogue. -/
structure Arguments where
  thread : Bool
  report : Bool
  database : Option Bytes
  migrations : Option (List Migration)

/-- The call of `hash`. -/
def hashOne (m : Migration) : Step W (Except Failure Digest) := fun c =>
  let o := ops.hash m c.world
  (o.1, { c with world := o.2 })

/-- The hashes of the catalogue; the first failure ends the loop. -/
def hashAll : List Migration → Step W (List Digest)
  | [] => pure []
  | m :: rest => do
    match ← hashOne ops m with
    | .error f => do
      modify (Context.fail f.val .none none)
      pure []
    | .ok hash => do
      let hashes ← hashAll rest
      pure (hash :: hashes)

def hashCatalogue (m : List Migration) : Step W (List Digest) := do
  phase .hash
  hashAll ops m

/-- The name of the lock. -/
def lockNameOf (database : Bytes) : Step W Bytes := fun c =>
  let o := ops.lockDigest database c.world
  match o.1 with
  | .error _ => ([], Context.fail .internal .none none { c with world := o.2 })
  | .ok digest => (lockName digest, { c with world := o.2 })

/-- The call of `open`. -/
def openConnection : Step W Unit := fun c =>
  let o := ops.openConnection c.world
  ((), Context.fail o.1.result .none (some o.1.error)
    { c with phase := .open, world := o.2, connection := decide (o.1.result = .ok) || o.1.left })

/-- The current database of the connection must be the one of the options. -/
def checkDatabase (database : Bytes) : Step W Unit := do
  let started ← start ops .currentDatabase [] 1 false
  when started.1 do
    let same ← both (next ops .currentDatabase) (equals ops .currentDatabase 0 database)
    when (!same) (modify (shape .unexpectedResult))
    lastRow ops .currentDatabase .unexpectedResult
  stop ops

/-- The named lock, without waiting for it: whether it was granted. -/
def takeLock (lock : Bytes) : Step W Bool := do
  match ← scalar ops .getLock [.text lock] with
  | none => pure false
  | some granted =>
    if granted = 1 then pure true
    else if granted = 0 then do
      modify (Context.fail .busy .none none)
      pure false
    else do
      modify (shape .unexpectedResult)
      pure false

/-- The named lock is given back; the cause of a failed run is put aside while this is done. -/
def unlock (lock : Bytes) : Step W Unit := fun c =>
  let release : Step W Unit := do
    let released ← scalar ops .releaseLock [.text lock]
    when (released.isSome ∧ released ≠ some 1) (modify (shape .unexpectedResult))
    stop ops
  let cleanup := (release { c with result := .ok, error := {}, phase := .unlock }).2
  ((), Context.cleanupFailure cleanup.result (cleanup.error.stage.getD .unlock) (some cleanup.error.database)
    { c with world := cleanup.world, statement := cleanup.statement })

/-- The call of `close`, when there is a connection. -/
def closeConnection : Step W Unit := fun c =>
  if c.connection then
    let o := ops.close c.world
    let c := Context.cleanupFailure o.1.result .close none { c with world := o.2, connection := o.1.left }
    ((), c.reporting fun r => { r with connectionClosed := !c.connection })
  else ((), c)

/-- Everything between the lock and the cleanup: whether the lock was granted. -/
def lockedPart (database : Bytes) (m : List Migration) (hashes : List Digest) (lock : Bytes) : Step W Bool := do
  phase .lock
  checkDatabase ops database
  let ok ← good
  let locked ← (if ok then takeLock ops lock else pure false)
  let ok ← good
  when ok (runLocked ops m hashes (.text database))
  pure locked

/-- The cleanup of a run. -/
def cleanUp (locked : Bool) (lock : Bytes) : Step W Unit := do
  stop ops
  let consumed ← read fun c => c.statement.isNone
  when (locked ∧ consumed) (unlock ops lock)
  closeConnection ops
  modify fun c => c.reporting fun r => { r with ready := decide (c.result = .ok) }

/-- The body of `vireo_mysql_migration_apply_with_ops`, once the arguments are known to be there. -/
def applyBody (database : Bytes) (m : List Migration) : Step W Unit := do
  let ok ← good
  let hashes ← (if ok then hashCatalogue ops m else pure [])
  let ok ← good
  let lock ← (if ok then lockNameOf ops database else pure [])
  let ok ← good
  when ok (openConnection ops)
  let ok ← good
  let locked ← (if ok then lockedPart ops database m hashes lock else pure false)
  cleanUp ops locked lock

/-- `vireo_mysql_migration_apply_with_ops`: the context at its end, with the result, the report and the
    error. -/
def applyWithOps (a : Arguments) (w : W) : Context W :=
  let r := if ¬ a.thread ∨ ¬ a.report then .invalidArgument else validate a.database a.migrations
  (applyBody ops (a.database.getD []) (a.migrations.getD []) (Context.fail r .none none { world := w })).2

end Steps

end Vireo.Persistence.Migrator
