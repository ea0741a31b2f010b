/-
  File:      Vireo/Persistence/User/Write.lean
  Subject:   WHAT THE ENTRIES OF THE USER REPOSITORY SHARE (`src/persistence/mysql_user_repository.c`).

  `register`, `login` and `logout` are three copies of one shape: take a lease, switch autocommit off, do
  the statements of the entry, commit, and clean up. The lookups take a lease and read one row.

  Pointer and thread checks are not modelled: inputs are values, the caller is the thread that created the
  repository.
-/
import Vireo.Persistence.Statement

namespace Vireo.Persistence.User

open Lib

section Steps

variable {W I α β : Type} (ops : Ops W)

/-! ## 1. Commands -/

/-- `limits`. -/
def writeLimits : Limits := ⟨6, 0, 655, 1, 32768⟩

/-- `command`. -/
def userCommand (sql : Sql) (params : List Param) (stage : Stage) (insert cleanup : Bool) (s : Call W I) :
    CommandReply × Call W I :=
  command ops id writeLimits sql params stage insert cleanup s

/-- `command` inside of a transaction: what it executed. -/
def commanding (sql : Sql) (params : List Param) (stage : Stage) (insert : Bool) : Step W I Execution := fun s =>
  let reply := userCommand ops sql params stage insert false s
  (do succeed reply.1.result; pure reply.1.execution : Step W I Execution) reply.2

/-- An insert: the id of the new row. -/
def insertRow (sql : Sql) (params : List Param) (stage : Stage) : Step W I UInt64 := do
  let ex ← commanding ops sql params stage true
  pure ex.insertId

/-- `ER_DUP_ENTRY`. -/
def duplicateKey : Nat := 1062

/-- The first cause was the execution of the statement of this stage, and a key was taken. -/
def duplicateAt (e : Diagnosis) (stage : Stage) : Bool :=
  e.stage = some stage && e.database.stage = .execute && e.database.code = duplicateKey

/-- An insert under a unique key: when the key is taken, that is the issue. -/
def insertUnique (sql : Sql) (params : List Param) (stage : Stage) (conflict : I) : Step W I UInt64 :=
  Prog.onError (insertRow ops sql params stage) fun _ s =>
    if duplicateAt s.err stage then { s with issue := conflict } else s

/-- A failure of the entry itself. -/
def refuseWith (stage : Stage) (issue : Option I) (f : Failure) : Step W I α := fun s =>
  (.error f, { s with issue := issue.getD s.issue }.diagnose stage f.val none false)

/-! ## 2. Reads -/

/-- A read under way: a failure goes with the driver error it is noted with. -/
abbrev Reading (W I α : Type) := Prog (Failure × DbError) (Call W I) α

/-- Go on after a result that is OK. -/
def passed (rc : Result) (db : DbError) : Reading W I Unit :=
  if h : rc = .ok then pure () else Prog.fail (⟨rc, h⟩, db)

/-- One `prepare`. -/
def readPrepare (limits : Limits) (sql : Sql) : Reading W I Unit := fun s =>
  let o := ops.prepare sql limits s.world
  passed o.1.result o.1.error { s with
    world := o.2
    statement := if o.1.result = .ok ∨ o.1.left then some sql else s.statement }

/-- One `execute`. -/
def readExecute (sql : Sql) (params : List Param) : Reading W I Executed := fun s =>
  let o := ops.execute sql params s.world
  (do passed o.1.result o.1.error; pure o.1 : Reading W I Executed) { s with world := o.2 }

/-- One `fetch`. -/
def readFetch (sql : Sql) : Reading W I FetchReply := fun s =>
  let o := ops.fetch sql s.world
  (do passed o.1.result o.1.error; pure o.1 : Reading W I FetchReply) { s with world := o.2 }

/-- One `column`; it writes no driver error. -/
def readColumn (sql : Sql) (db : DbError) (i : Nat) : Reading W I Cell := fun s =>
  let o := ops.column sql i s.world
  match o.1 with
  | .ok c => (.ok c, { s with world := o.2 })
  | .error f => (.error (f, db), { s with world := o.2 })

/-- The columns `i, i + 1, …`, `n` of them. -/
def readCells (sql : Sql) (db : DbError) (i : Nat) : Nat → Reading W I (List Cell)
  | 0 => pure []
  | n + 1 => do
    let c ← readColumn ops sql db i
    let cs ← readCells sql db (i + 1) n
    pure (c :: cs)

/-- The columns `i, i + 1, …`, `n` of them, each a number but one that may be `NULL`; nothing at the first
    that is neither. -/
def readNumbers (sql : Sql) (nullable : Option Nat) (db : DbError) (i : Nat) :
    Nat → Reading W I (Option (List (Option UInt64)))
  | 0 => pure (some [])
  | n + 1 => do
    let c ← readColumn ops sql db i
    match (if nullable = some i ∧ c = none then some none else (number c).map some) with
    | none => pure none
    | some v => do
      let vs ← readNumbers sql nullable db (i + 1) n
      pure (vs.map (v :: ·))

/-- A row that is not what the schema promises. -/
def malformed (issue : Option I) (db : DbError) : Reading W I α := fun s =>
  (.error (.database, db), { s with issue := issue.getD s.issue })

/-- The row looked for is not there, or is not what it should be. -/
def rejected (issue : Option I) (f : Failure) (db : DbError) : Reading W I α := fun s =>
  (.error (f, db), { s with issue := issue.getD s.issue })

/-- The one row of a result, read by `row`, and the driver error behind it. -/
def readUnique (limits : Limits) (sql : Sql) (params : List Param) (absent bad : Option I)
    (row : DbError → Reading W I (Option β)) : Reading W I (β × DbError) := do
  readPrepare ops limits sql
  let x ← readExecute ops sql params
  if x.execution.hasResult = false then malformed bad x.error
  else do
    let o ← readFetch ops sql
    match o.outcome with
    | .done => rejected absent .notFound o.error
    | .other => malformed bad o.error
    | .row => do
      let r ← row o.error
      match r with
      | none => malformed bad o.error
      | some v => do
        let o ← readFetch ops sql
        if o.outcome = .done then pure (v, o.error) else malformed bad o.error

/-- The first cause of a read is noted when it fails. -/
def noting (stage : Stage) (p : Reading W I α) : Step W I α := fun s =>
  match p s with
  | (.ok a, s) => (.ok a, s)
  | (.error e, s) => (.error e.1, s.diagnose stage e.1.val (some e.2) false)

/-- The end of a read: the cause is noted, the statement is closed. -/
def endRead (stage : Stage) (p : Reading W I α) : Step W I α :=
  Prog.always (noting stage p) (closeStatement ops)

/-! ## 3. The end of a call -/

/-- `vireo_mysql_registration_commit_t` and its siblings. -/
inductive Commit where
  | notCommitted
  | committed
  | unknown
deriving DecidableEq

/-- The report of a transaction: `value` holds what is published, and is empty when nothing is. -/
structure WriteReport (I α : Type) where
  commit : Commit
  issue : I
  value : Option α
  rollbackConfirmed : Bool
  cleanupPending : Bool
deriving DecidableEq

/-- The fields of a report that are only published: zero when nothing is. -/
def WriteReport.fields {I α : Type} [Inhabited α] (r : WriteReport I α) : α := r.value.getD default

/-- Everything a transaction leaves. -/
structure WriteOutcome (W I α : Type) where
  result : Result
  report : WriteReport I α
  err : Diagnosis
  repo : Repo
  world : W

/-- The stages at which DATABASE without a driver error is unexpected, and the issue of that. -/
structure Plan (I : Type) where
  shapeStages : List Stage
  unexpected : I

/-- ROLLBACK, where one is due. The second component is `rollback_confirmed`. -/
def rollbackWork (commit : Commit) (rc : Result) (s : Call W I) : (Result × Bool) × Call W I :=
  if s.transaction ∧ commit = .notCommitted ∧ s.statement = none then
    let reply := userCommand ops .rollback [] .rollback false true s
    ((rc.first reply.1.result, reply.1.replied), reply.2)
  else ((rc, false), s)

section Transaction

variable [Inhabited I] [DecidableEq I]

variable (plan : Plan I)

/-- DATABASE without a driver error at one of the stages of the entry is an unexpected result. -/
def classify (rc : Result) (s : Call W I) : Call W I :=
  if rc = .database ∧ s.issue = default ∧ s.err.database.stage = .none ∧
      (s.err.stage.any plan.shapeStages.contains) = true then { s with issue := plan.unexpected }
  else s

/-- The code after the label `done`. -/
def finish (rc : Result) (commit : Commit) (value : Option α) (s : Call W I) :
    WriteOutcome W I α :=
  let rolled := rollbackWork ops commit rc (classify plan rc s)
  let released := releaseLease ops (decide (commit = .committed) || rolled.1.2) rolled.1.1 rolled.2
  { result := released.1
    report := ⟨commit, released.2.issue, value, rolled.1.2, released.2.repo.pending⟩
    err := released.2.err
    repo := released.2.repo
    world := released.2.world }

/-! ## 4. The transaction -/

/-- `SET autocommit=0`; the transaction may have started as soon as the execution has. -/
def beginTransaction : Step W I Unit := fun s =>
  let reply := userCommand ops .begin [] .begin false false s
  succeed reply.1.result { reply.2 with transaction := reply.1.execution.started }

/-- Everything before COMMIT. -/
def prepareCommit (wait : UInt32) (work : Step W I α) : Step W I α := do
  acquireLease ops wait
  borrowConnection ops
  beginTransaction ops
  work

/-- COMMIT and what its reply says: a complete one commits, a started execution without one leaves the outcome
    unknown. -/
def commitWork (value : α) (s : Call W I) : WriteOutcome W I α :=
  let reply := userCommand ops .commit [] .commit false false s
  if reply.1.replied then finish ops plan reply.1.result .committed (some value) reply.2
  else if reply.1.execution.started then finish ops plan reply.1.result .unknown none reply.2
  else finish ops plan reply.1.result .notCommitted none reply.2

/-- A call past its input checks. -/
def transact (wait : UInt32) (work : Step W I α) (s : Call W I) : WriteOutcome W I α :=
  match prepareCommit ops wait work s with
  | (.error f, s) => finish ops plan f.val .notCommitted none s
  | (.ok a, s) => commitWork ops plan a s

/-- A call refused before it touches the database. -/
def refuse (rc : Result) (repo : Repo) (w : W) : WriteOutcome W I α where
  result := rc
  report := ⟨.notCommitted, default, none, false, repo.pending⟩
  err := { stage := some .validate }
  repo := repo
  world := w

/-- **A transaction**: BUSY while something of an earlier call is still held, then the input checks of the
    entry, then its statements. -/
def writeEntry (check : Result) (wait : UInt32) (work : Step W I α) (repo : Repo) (w : W) :
    WriteOutcome W I α :=
  if repo.pending then refuse .busy repo w
  else if check = .ok then transact ops plan wait work (.enter repo w)
  else refuse check repo w

/-! ## 5. The lookups -/

/-- Everything a lookup leaves; `value` is there when it was found. -/
structure ReadOutcome (W I α : Type) where
  result : Result
  value : Option α
  issue : I
  cleanupPending : Bool
  err : Diagnosis
  repo : Repo
  world : W

/-- The code of a lookup after the label `done`. -/
def finishRead (got : Except Failure α) (s : Call W I) : ReadOutcome W I α :=
  let rc := Result.ofExcept got
  let healthy := (decide (rc = .ok) || decide (rc = .notFound)) && decide (s.err.cleanupResult = .ok)
  let released := releaseLease ops healthy rc s
  { result := released.1
    value := if released.1 = .ok then got.toOption else none
    issue := released.2.issue
    cleanupPending := released.2.repo.pending
    err := released.2.err
    repo := released.2.repo
    world := released.2.world }

/-- A lookup refused before it touches the database. -/
def refuseRead (rc : Result) (repo : Repo) (w : W) : ReadOutcome W I α where
  result := rc
  value := none
  issue := default
  cleanupPending := repo.pending
  err := { stage := some .validate }
  repo := repo
  world := w

/-- **A lookup**: BUSY while something is still held, then the input checks, then the one row. -/
def readEntry (check : Result) (wait : UInt32) (read : Step W I α) (repo : Repo) (w : W) : ReadOutcome W I α :=
  if repo.pending then refuseRead .busy repo w
  else if check = .ok then
    let run := (do acquireLease ops wait; borrowConnection ops; read : Step W I α) (.enter repo w)
    finishRead ops run.1 run.2
  else refuseRead check repo w

end Transaction

end Steps

end Vireo.Persistence.User
