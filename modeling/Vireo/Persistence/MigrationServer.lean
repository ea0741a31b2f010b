/-
  File:      Vireo/Persistence/MigrationServer.lean
  Subject:   THE DEPENDENCIES OF THE MIGRATOR AS A DATABASE THAT MAY FAIL AT ANY CALL.

  The database is the history table and the log of the writes that were carried out; the table is what
  the log made of it. A plan of faults decides at every call whether it fails, what it leaves behind and
  whether a failed execution took effect all the same. The history and the existence of its table are
  reported as they are; every other read is answered by the environment, in any way.
-/
import Vireo.Persistence.Migrator
import Vireo.Persistence.Mysql

namespace Vireo.Persistence.Migrator

open Lib Action

/-! ## 1. The history table -/

/-- A row of `vireo_schema_migrations`. -/
structure HistoryRow where
  version : UInt32
  checksum : Bytes
  state : UInt8
deriving DecidableEq

/-- The history; `none` when there is no table. -/
abbrev History := Option (List HistoryRow)

/-- A write that the server carried out, with the run that sent it. -/
structure Write where
  run : Nat
  sql : MigrationSql
  params : List MigrationParam

/-- The rows that `markApplied` changes. -/
def HistoryRow.pending (version : UInt64) (checksum : Bytes) (r : HistoryRow) : Bool :=
  r.version.toUInt64 == version && r.checksum == checksum && r.state == 0

/-- The history after a write. The statements of a catalogue do not touch it. -/
def Write.effect (history : History) (x : Write) : History :=
  match x.sql, x.params with
  | .createHistory, _ => some (history.getD [])
  | .insertDirty, [.u64 version, .bytes checksum] => history.map (· ++ [⟨version.toUInt32, checksum, 0⟩])
  | .markApplied, [.u64 version, .bytes checksum] =>
    history.map (·.map fun r => if r.pending version checksum then { r with state := 1 } else r)
  | _, _ => history

/-- The history after the writes of a log. -/
def tableAfter (history : History) (log : List Write) : History := log.foldl Write.effect history

/-- A row as the query returns it. -/
def HistoryRow.cells (r : HistoryRow) : List Cell :=
  [u32Cell r.version.toNat, some r.checksum, u32Cell r.state.toNat]

/-- The rows in the order of their versions. -/
def sortRows (rows : List HistoryRow) : List HistoryRow :=
  rows.mergeSort fun a b => decide (a.version ≤ b.version)

/-! ## 2. The server -/

/-- What the server does with a statement. -/
inductive Verdict where
  | refused (code : Nat)
  | rows (rows : List (List Cell))
  | written (execution : Execution)
deriving DecidableEq

/-- What decides the outcomes of one run: faults and answers, by the number of the call. -/
structure Environment where
  faults : Nat → Option Fault
  info : MigrationSql → Nat → Info
  answers : MigrationSql → Nat → List (List Cell)
  identity : Nat → List Cell
  ddl : Nat → Execution

/-- The database as one run meets it. -/
structure Server where
  sha256 : Bytes → Digest
  environment : Environment
  run : Nat
  initial : History
  log : List Write
  rows : List (List Cell) := []
  row : List Cell := []
  calls : Nat := 0

namespace Server

variable (w : Server)

/-- The history now. -/
def history : History := tableAfter w.initial w.log

def write (sql : MigrationSql) (params : List MigrationParam) : Write := ⟨w.run, sql, params⟩

/-- The fault of the next call. -/
def fault : Option Fault := w.environment.faults w.calls

/-- After a call. -/
def tick : Server := { w with calls := w.calls + 1 }

/-- The answer to `table`: there is a row exactly when there is a table. -/
def tableRows : List (List Cell) :=
  if w.history.isSome then w.environment.identity w.calls :: w.environment.answers .table w.calls else []

/-- The decision over a statement: 1146 is a missing table, 1062 a duplicate key, 1264 and 1406 values
    that do not fit their columns. -/
def verdict (sql : MigrationSql) (params : List MigrationParam) : Verdict :=
  match sql, params with
  | .createHistory, _ => .written { started := true }
  | .ddl _, _ => .written { w.environment.ddl w.calls with started := true }
  | .insertDirty, [.u64 version, .bytes checksum] =>
    match w.history with
    | none => .refused 1146
    | some rows =>
      if version.toNat ≥ 2 ^ 32 then .refused 1264
      else if checksum.length ≠ 32 then .refused 1406
      else if rows.any (·.version == version.toUInt32) then .refused 1062
      else .written { started := true, affectedRows := 1 }
  | .markApplied, [.u64 version, .bytes checksum] =>
    match w.history with
    | none => .refused 1146
    | some rows =>
      .written { started := true, affectedRows := UInt64.ofNat (rows.countP (·.pending version checksum)) }
  | .insertDirty, _ | .markApplied, _ => .refused 1210
  | .selectHistory, _ =>
    match w.history with
    | none => .refused 1146
    | some rows => .rows ((sortRows rows).map HistoryRow.cells)
  | .table, _ => .rows w.tableRows
  | sql, _ => .rows (w.environment.answers sql w.calls)

/-- The evaluation of a statement. -/
def evaluate (sql : MigrationSql) (params : List MigrationParam) : Executed × Server :=
  match w.verdict sql params with
  | .refused code => (⟨.database, { started := true }, ⟨.execute, code⟩⟩, w)
  | .rows rows => (⟨.ok, { started := true, hasResult := true }, {}⟩, { w with rows := rows })
  | .written execution => (⟨.ok, execution, {}⟩, { w with log := w.log ++ [w.write sql params] })

end Server

/-- The dependencies over a `Server`. -/
def serverOps : MigratorOps Server where
  openConnection w :=
    match w.fault with
    | some f => (⟨f.failure.val, f.left, f.error⟩, w.tick)
    | none => (⟨.ok, false, {}⟩, w.tick)
  close w :=
    match w.fault with
    | some f => (⟨f.failure.val, f.left, f.error⟩, w.tick)
    | none => (⟨.ok, false, {}⟩, w.tick)
  prepare _ _ w :=
    match w.fault with
    | some f => (⟨f.failure.val, f.left, f.error⟩, w.tick)
    | none => (⟨.ok, false, {}⟩, w.tick)
  inspect sql w :=
    match w.fault with
    | some f => (.error f.failure, w.tick)
    | none => (.ok (w.environment.info sql w.calls), w.tick)
  execute sql params w :=
    match w.fault with
    | some f => (⟨f.failure.val, { started := f.started }, f.error⟩,
        (if f.started ∧ f.applied then (w.evaluate sql params).2 else w).tick)
    | none => ((w.evaluate sql params).1, (w.evaluate sql params).2.tick)
  fetch _ w :=
    match w.fault with
    | some f => (⟨f.failure.val, .other, f.error⟩, w.tick)
    | none =>
      match w.rows with
      | [] => (⟨.ok, .done, {}⟩, w.tick)
      | r :: rest => (⟨.ok, .row, {}⟩, { w with row := r, rows := rest }.tick)
  column _ i w :=
    match w.fault with
    | some f => (.error f.failure, w.tick)
    | none =>
      match w.row[i]? with
      | some c => (.ok c, w.tick)
      | none => (.error .range, w.tick)
  destroy _ w :=
    match w.fault with
    | some f => (⟨f.failure.val, f.left, f.error⟩, w.tick)
    | none => (⟨.ok, false, {}⟩, w.tick)
  hash m w :=
    match w.fault with
    | some f => (.error f.failure, w.tick)
    | none => (.ok (migrationHash w.sha256 m), w.tick)
  lockDigest database w :=
    match w.fault with
    | some f => (.error f.failure, w.tick)
    | none => (.ok (w.sha256 database), w.tick)

/-! ## 3. What reading leaves alone -/

/-- Two states of the server with the same database. -/
structure Server.Same (w w' : Server) : Prop where
  sha256 : w'.sha256 = w.sha256
  run : w'.run = w.run
  initial : w'.initial = w.initial
  log : w'.log = w.log

theorem Server.Same.refl (w : Server) : w.Same w := ⟨rfl, rfl, rfl, rfl⟩

theorem Server.Same.trans {a b c : Server} (h : a.Same b) (k : b.Same c) : a.Same c :=
  ⟨k.sha256.trans h.sha256, k.run.trans h.run, k.initial.trans h.initial, k.log.trans h.log⟩

theorem Server.Same.history {w w' : Server} (h : w.Same w') : w'.history = w.history := by
  unfold Server.history
  rw [h.initial, h.log]

/-- Nothing was written between two contexts, and a failure is not forgotten. -/
structure Reads (c c' : Context Server) : Prop where
  world : c.world.Same c'.world
  attempted : c'.report.writeAttempted = c.report.writeAttempted
  failed : c.result ≠ .ok → c'.result ≠ .ok

theorem Reads.refl (c : Context Server) : Reads c c := ⟨.refl _, rfl, id⟩

theorem Reads.trans (a b c : Context Server) (h : Reads a b) (k : Reads b c) : Reads a c :=
  ⟨h.world.trans k.world, k.attempted.trans h.attempted, fun hf => k.failed (h.failed hf)⟩

theorem Reads.good {c c' : Context Server} (h : Reads c c') (hok : c'.result = .ok) : c.result = .ok :=
  Classical.byContradiction fun hbad => h.failed hbad hok

section Reading

variable {α β : Type} {c : Context Server} {m n : Step Server Bool} {sql : MigrationSql}

theorem reads_fail (r : Result) (issue : Issue) (database : Option DbError) (c : Context Server) :
    Reads c (c.fail r issue database) := by
  unfold Context.fail
  split
  · exact .refl c
  rename_i h
  refine ⟨.refl _, ?_, fun _ he => h (.inl he)⟩
  dsimp only
  split <;> rfl

theorem fail_result {r : Result} (hr : r ≠ .ok) (issue : Issue) (database : Option DbError)
    (c : Context Server) : (c.fail r issue database).result ≠ .ok := by
  unfold Context.fail
  split
  · rename_i h
    exact h.resolve_left hr
  · exact hr

theorem shape_result (issue : Issue) (c : Context Server) : (c.shape issue).result ≠ .ok :=
  fail_result (by decide) issue none c

theorem reads_shape (issue : Issue) (c : Context Server) : Reads c (c.shape issue) := reads_fail _ _ _ c

theorem reads_cleanupFailure (r : Result) (stage : Stage) (e : Option DbError) (c : Context Server) :
    Reads c (c.cleanupFailure r stage e) := by
  unfold Context.cleanupFailure
  split
  · exact .refl c
  dsimp only
  split
  · have h := reads_fail r .none e { c with
      error := { c.error with
        cleanupResult := r
        cleanupStage := some stage
        cleanupDatabase := e.getD c.error.cleanupDatabase }
      phase := stage }
    exact { h with }
  · have h := reads_fail r .none e { c with phase := stage }
    exact { h with }

theorem reads_bind {m : Step Server α} {f : α → Step Server β} (hm : Keeps Reads m)
    (hf : ∀ a, Keeps Reads (f a)) : Keeps Reads (m >>= f) := Keeps.bind Reads.trans hm hf

theorem reads_pure (a : α) : Keeps Reads (pure a : Step Server α) := Keeps.pure Reads.refl a

theorem reads_modify_fail (r : Result) (issue : Issue) (database : Option DbError) :
    Keeps Reads (Action.modify (Context.fail r issue database) : Step Server Unit) :=
  reads_fail r issue database

theorem reads_modify_shape (issue : Issue) :
    Keeps Reads (Action.modify (Context.shape issue) : Step Server Unit) := reads_shape issue

theorem reads_good : Keeps Reads (good : Step Server Bool) := Reads.refl

theorem reads_phase (stage : Stage) : Keeps Reads (phase stage : Step Server Unit) :=
  fun _ => ⟨.refl _, rfl, id⟩

theorem reads_reporting {f : Report → Report} (h : ∀ r, (f r).writeAttempted = r.writeAttempted) :
    Keeps Reads (Action.modify (Context.reporting f) : Step Server Unit) :=
  fun c => ⟨.refl _, h c.report, id⟩

theorem reads_both (hm : Keeps Reads m) (hn : Keeps Reads n) : Keeps Reads (both m n) :=
  reads_bind hm fun _ => .ite hn (reads_pure false)

theorem reads_either (hm : Keeps Reads m) (hn : Keeps Reads n) : Keeps Reads (either m n) :=
  reads_bind hm fun _ => .ite (reads_pure true) hn

theorem reads_when {p : Prop} [Decidable p] {m : Step Server Unit} (hm : Keeps Reads m) :
    Keeps Reads (when p m) := Keeps.when Reads.refl hm

section

variable (sql : MigrationSql)

theorem same_destroy (w : Server) : w.Same (serverOps.destroy sql w).2 := by
  dsimp only [serverOps]
  split <;> exact ⟨rfl, rfl, rfl, rfl⟩

theorem same_prepare (limits : Limits) (w : Server) : w.Same (serverOps.prepare sql limits w).2 := by
  dsimp only [serverOps]
  split <;> exact ⟨rfl, rfl, rfl, rfl⟩

theorem same_inspect (w : Server) : w.Same (serverOps.inspect sql w).2 := by
  dsimp only [serverOps]
  split <;> exact ⟨rfl, rfl, rfl, rfl⟩

theorem same_fetch (w : Server) : w.Same (serverOps.fetch sql w).2 := by
  dsimp only [serverOps]
  split
  · exact ⟨rfl, rfl, rfl, rfl⟩
  · split <;> exact ⟨rfl, rfl, rfl, rfl⟩

theorem same_column (i : Nat) (w : Server) : w.Same (serverOps.column sql i w).2 := by
  dsimp only [serverOps]
  split
  · exact ⟨rfl, rfl, rfl, rfl⟩
  · split <;> exact ⟨rfl, rfl, rfl, rfl⟩

end

theorem same_open (w : Server) : w.Same (serverOps.openConnection w).2 := by
  dsimp only [serverOps]
  split <;> exact ⟨rfl, rfl, rfl, rfl⟩

theorem same_close (w : Server) : w.Same (serverOps.close w).2 := by
  dsimp only [serverOps]
  split <;> exact ⟨rfl, rfl, rfl, rfl⟩

theorem same_hash (m : Migration) (w : Server) : w.Same (serverOps.hash m w).2 := by
  dsimp only [serverOps]
  split <;> exact ⟨rfl, rfl, rfl, rfl⟩

theorem same_lockDigest (database : Bytes) (w : Server) : w.Same (serverOps.lockDigest database w).2 := by
  dsimp only [serverOps]
  split <;> exact ⟨rfl, rfl, rfl, rfl⟩

theorem reads_stop : Keeps Reads (stop serverOps) := by
  intro c
  unfold stop
  split
  · exact .refl c
  · refine .trans _ _ _ ?_ (reads_cleanupFailure _ _ _ _)
    exact ⟨same_destroy _ _, rfl, id⟩

section

variable (sql : MigrationSql)

theorem reads_prepare (limits : Limits) : Keeps Reads (prepare serverOps sql limits) :=
  fun c => ⟨same_prepare sql limits c.world, rfl, id⟩

theorem reads_inspect : Keeps Reads (inspect serverOps sql) :=
  fun c => ⟨same_inspect sql c.world, rfl, id⟩

theorem reads_fetch : Keeps Reads (fetch serverOps sql) :=
  fun c => ⟨same_fetch sql c.world, rfl, id⟩

theorem reads_column (i : Nat) : Keeps Reads (column serverOps sql i) :=
  fun c => ⟨same_column sql i c.world, rfl, id⟩

end

theorem Server.verdict_read (w : Server) (h : sql.writes = false) (params : List MigrationParam)
    (execution : Execution) : w.verdict sql params ≠ .written execution := by
  unfold Server.verdict
  split <;> first | cases h | skip
  · split <;> exact Verdict.noConfusion
  · exact Verdict.noConfusion
  · exact Verdict.noConfusion

theorem same_evaluate (w : Server) (h : sql.writes = false) (params : List MigrationParam) :
    w.Same (w.evaluate sql params).2 := by
  unfold Server.evaluate
  split
  · exact .refl w
  · exact ⟨rfl, rfl, rfl, rfl⟩
  · rename_i hv
    exact absurd hv (w.verdict_read h params _)

theorem Server.same_tick (w : Server) : w.Same w.tick := ⟨rfl, rfl, rfl, rfl⟩

theorem execute_cases (sql : MigrationSql) (params : List MigrationParam) (w : Server) :
    let o := serverOps.execute sql params w
    (o.1.result ≠ .ok ∧ (w.Same o.2 ∨ (w.evaluate sql params).2.Same o.2)) ∨
      o = ((w.evaluate sql params).1, (w.evaluate sql params).2.tick) := by
  intro o
  cases hf : w.fault with
  | none =>
    refine .inr ?_
    show serverOps.execute sql params w = _
    dsimp only [serverOps]
    rw [hf]
  | some f =>
    have ho : o = (⟨f.failure.val, { started := f.started }, f.error⟩,
        (if f.started ∧ f.applied then (w.evaluate sql params).2 else w).tick) := by
      show serverOps.execute sql params w = _
      dsimp only [serverOps]
      rw [hf]
    rw [ho]
    refine .inl ⟨f.failure.property, ?_⟩
    dsimp only
    split
    · exact .inr (Server.same_tick _)
    · exact .inl (Server.same_tick _)

theorem reads_execute (h : sql.writes = false) (params : List MigrationParam) :
    Keeps Reads (execute serverOps sql params false) := by
  intro c
  refine ⟨?_, rfl, id⟩
  have heval := same_evaluate c.world h params
  show c.world.Same (serverOps.execute sql params c.world).2
  rcases execute_cases sql params c.world with ⟨-, hs | hs⟩ | he
  · exact hs
  · exact heval.trans hs
  · rw [he]
    exact heval.trans (Server.same_tick _)

theorem reads_startShape (sql : MigrationSql) (count columns : Nat) (execution : Execution) :
    Keeps Reads (startShape serverOps sql count columns execution) := by
  refine reads_bind (reads_inspect sql) fun o => ?_
  cases o with
  | error f => exact reads_bind (reads_modify_fail _ _ _) fun _ => reads_pure _
  | ok info => exact .ite (reads_bind (reads_modify_shape _) fun _ => reads_pure _) (reads_pure _)

theorem reads_start (h : sql.writes = false) (params : List MigrationParam) (columns : Nat) :
    Keeps Reads (start serverOps sql params columns false) := by
  refine reads_bind (.modify fun _ => ⟨.refl _, rfl, id⟩) fun _ => ?_
  refine reads_bind (reads_prepare sql _) fun _ => .ite ?_ ?_
  · exact reads_bind (reads_modify_fail _ _ _) fun _ => reads_pure _
  refine reads_bind (reads_execute h params) fun _ => .ite ?_ ?_
  · exact reads_bind (reads_modify_fail _ _ _) fun _ => reads_pure _
  · refine reads_bind (.modify fun _ => ⟨.refl _, rfl, id⟩) fun _ => ?_
    exact reads_bind (reads_startShape _ _ _ _) fun _ => reads_pure _

section

variable (sql : MigrationSql)

theorem reads_next : Keeps Reads (next serverOps sql) := by
  refine reads_bind (reads_fetch sql) fun _ => .ite ?_ (reads_pure _)
  exact reads_bind (reads_modify_fail _ _ _) fun _ => reads_pure _

theorem reads_cell (i : Nat) : Keeps Reads (cell serverOps sql i) := by
  refine reads_bind (reads_column sql i) fun o => ?_
  cases o with
  | error f => exact reads_bind (reads_modify_fail _ _ _) fun _ => reads_pure _
  | ok v => exact reads_pure v

theorem reads_equals (i : Nat) (s : Bytes) : Keeps Reads (equals serverOps sql i s) :=
  reads_bind (reads_cell sql i) fun _ => reads_bind reads_good fun _ => reads_pure _

theorem reads_isNull (i : Nat) : Keeps Reads (isNull serverOps sql i) :=
  reads_bind (reads_cell sql i) fun _ => reads_pure _

theorem reads_number (i : Nat) : Keeps Reads (number serverOps sql i) :=
  reads_bind (reads_cell sql i) fun _ => reads_bind reads_good fun _ => reads_pure _

theorem reads_lastRow (issue : Issue) : Keeps Reads (lastRow serverOps sql issue) := by
  refine reads_bind reads_good fun _ => reads_when ?_
  exact reads_bind (reads_next sql) fun _ => reads_when (reads_modify_shape _)

end

theorem reads_scalar (h : sql.writes = false) (params : List MigrationParam) :
    Keeps Reads (scalar serverOps sql params) := by
  refine reads_bind (reads_start h params 1) fun _ => .ite ?_ (reads_pure _)
  refine reads_bind (reads_next sql) fun _ => ?_
  refine reads_bind (.ite (reads_number sql 0) (reads_pure _)) fun _ => ?_
  refine reads_bind (reads_when (reads_modify_shape _)) fun _ => ?_
  exact reads_bind (reads_lastRow sql _) fun _ => reads_bind reads_stop fun _ =>
    reads_bind reads_good fun _ => reads_pure _

end Reading

end Vireo.Persistence.Migrator
