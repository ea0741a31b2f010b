/-
  File:      Vireo/Persistence/Node/Write.lean
  Subject:   WHAT THE SIX WRITE ENTRIES SHARE: commands, receipts, the transaction and its end.

  The write entries of `mysql_node_repository.c` are long copies of one shape: take a lease, switch
  autocommit off, lock user and session, do the entry's own reads and writes, look at the clock once
  more, commit, and clean up. `writeEntry` is that shape, and a `Plan` what an entry fixes.

  Pointer and thread checks of the entries are not modelled: inputs are values, the caller is the
  thread that created the repository.
-/
import Vireo.Persistence.Node.Lock

namespace Vireo.Persistence.Node

open Lib

/-! ## 1. Commands -/

section Steps

variable {W : Type} (ops : Ops W)

/-- `write_command`. -/
def writeCommand (sql : Sql) (params : List Param) (stage : Stage) (insert cleanup : Bool)
    (s : Call W Issue) : CommandReply × Call W Issue :=
  command ops Result.noRange writeLimits sql params stage insert cleanup s

/-- `write_command` for an insert, as a step: the id of the new row. -/
def insertRow (sql : Sql) (params : List Param) (stage : Stage) : NodeStep W UInt64 := fun s =>
  let reply := writeCommand ops sql params stage true false s
  (do succeed reply.1.result; pure reply.1.execution.insertId : NodeStep W UInt64) reply.2

/-- `update_move`, `delete_update` and the receipt inserts: exactly one row is touched. -/
def modifyOne (limits : Limits) (sql : Sql) (params : List Param) (stage : Stage) :
    NodeStep W Unit :=
  closing ops stage do
    let ex ← executing ops Result.noRange limits sql params stage
    if ex.hasResult ∨ ex.affectedRows ≠ 1 then Prog.fail .database else pure ()

/-! ## 2. Receipts -/

/-- The limits of `receipt_execute`. -/
def receiptLimits : Limits := ⟨7, 11, 271, 255, 32768⟩

/-- The limits of `move_receipt_execute`. -/
def moveReceiptLimits : Limits := ⟨8, 10, 271, 255, 32768⟩

/-- A receipt that is not what the schema promises. -/
def refuseReceipt {α : Type} (db : DbError) : NodeStep W α := fun s =>
  (.error .database, { s with issue := Issue.receiptInvalid }.diagnose .receiptRead .database (some db) false)

/-- A dependency call while a receipt is read; a `RANGE` failure means a malformed receipt. -/
def receiptStep {α : Type} (db : DbError) (p : NodeStep W α) : NodeStep W α := fun s =>
  match p s with
  | (.ok a, s) => (.ok a, s)
  | (.error f, s) =>
    if f.val = .range then refuseReceipt db s
    else (.error f, s.diagnose .receiptRead f.val (some db) false)

/-- `lock_mkdir_receipt`, `lock_move_receipt` and `lock_node_remove_receipt`: the receipt of a key,
    if there is one. -/
def lockReceipt {β : Type} (limits : Limits) (sql : Sql) (params : List Param) (count : Nat)
    (check : List Cell → Option β) : NodeStep W (Option β) :=
  Prog.always (do
    let ex ← executing ops Result.noRange limits sql params .receiptRead
    if ex.hasResult = false then refuseReceipt {}
    else do
      let o ← fetching ops sql
      receiptStep o.error (succeed o.result)
      match o.outcome with
      | .other => refuseReceipt o.error
      | .done => pure none
      | .row => do
        let cells ← receiptStep o.error (columnsFrom ops sql 0 count)
        match check cells with
        | none => refuseReceipt o.error
        | some v => do
          let o ← fetching ops sql
          receiptStep o.error (succeed o.result)
          if o.outcome = .done then pure (some v) else refuseReceipt o.error)
    (closeStatement ops)

/-! ## 3. Beginning -/

/-- `SET autocommit=0`; the transaction may have started as soon as the execution has. -/
def beginTransaction : NodeStep W Unit := fun s =>
  let reply := writeCommand ops .begin [] .begin false false s
  succeed reply.1.result { reply.2 with transaction := reply.1.execution.started }

/-! ## 4. The end of a call -/

/-- `vireo_mysql_node_mkdir_commit_t` and its siblings. -/
inductive Commit where
  | notCommitted
  | committed
  | unknown
deriving DecidableEq, Inhabited

/-- ROLLBACK, where one is due. The second component is `rollback_confirmed`. -/
def rollbackWork (commit : Commit) (rc : Result) (s : Call W Issue) :
    (Result × Bool) × Call W Issue :=
  if s.transaction ∧ commit = .notCommitted ∧ s.statement = none ∧ s.connection then
    let reply := writeCommand ops .rollback [] .rollback false true s
    ((rc.first reply.1.result, reply.1.replied), reply.2)
  else ((rc, false), s)

/-- `cleanup_mkdir` and its five siblings, which differ in the issues after which the connection is
    healthy. The second component is `rollback_confirmed`. -/
def cleanupWrite (recyclable : List Issue) (commit : Commit) (rc : Result) (s : Call W Issue) :
    (Result × Bool) × Call W Issue :=
  let closed := closeStatement ops s
  let rolled := rollbackWork ops commit (rc.first (.ofExcept closed.1)) closed.2
  let rc := rolled.1.1
  let ended := decide (commit = .committed) || rolled.1.2
  let healthy := ended && decide (rolled.2.err.cleanupResult = .ok) &&
    (decide (rc = .ok) || decide (rc = .notFound) || recyclable.contains rolled.2.issue)
  let released := releaseLease ops healthy rc rolled.2
  ((released.1, rolled.1.2), released.2)

/-! ## 5. The transaction -/

/-- What an entry's own work comes to: a change that is ready to be committed, or the receipt of one
    that was. -/
inductive Settled (α : Type) where
  | ready (a : α)
  | recovered (a : α)

/-- What distinguishes one write entry from another outside its own work. -/
structure Plan where
  /-- `lock_move_user` instead of `lock_user` -/
  exclusive : Bool
  /-- the stages at which DATABASE without a driver code is an unexpected result -/
  shapeStages : List Stage
  /-- the issues after which a cleanly ended connection is healthy -/
  recyclable : List Issue

/-- The report of a write entry: `value` holds the entry's own fields, `default` when nothing is
    published. -/
structure WriteReport (α : Type) where
  commit : Commit
  issue : Issue
  value : α
  rollbackConfirmed : Bool
  cleanupPending : Bool

/-- Everything a call leaves: its result, report and diagnosis, the repository and the world. -/
structure Outcome (W α : Type) where
  result : Result
  report : WriteReport α
  err : Diagnosis
  repo : Repo
  world : W

variable {α : Type}

variable (plan : Plan)

/-- Lease, connection, transaction, user, session. -/
def openSession (timeout : UInt32) (actor : Actor) : NodeStep W Window := do
  acquireLease ops timeout
  borrowConnection ops
  beginTransaction ops
  (if plan.exclusive then lockMoveUser ops actor.userId else lockUser ops actor.userId)
  lockSession ops actor

/-- Everything before COMMIT: the entry's work, and the clock after it. -/
def prepareCommit (timeout : UInt32) (actor : Actor) (work : Window → NodeStep W (Settled α)) :
    NodeStep W (Settled α) := do
  let win ← openSession ops plan timeout actor
  let settled ← work win
  match settled with
  | .recovered a => pure (.recovered a)
  | .ready a => do
    let now ← captureUtc ops
    checkWindow win now
    pure (.ready a)

/-- DATABASE without a driver code at one of the entry's stages is an unexpected result. -/
def classify (shapeStages : List Stage) (rc : Result) (s : Call W Issue) : Call W Issue :=
  if rc = .database ∧ s.issue = .none ∧ s.err.database.code = 0 ∧
      (s.err.stage.any shapeStages.contains) then { s with issue := .unexpectedResult }
  else s

/-- The code after the label `done`. -/
def finish (rc : Result) (commit : Commit) (value : α) (s : Call W Issue) :
    Outcome W α :=
  let s := classify plan.shapeStages rc s
  let cleaned := cleanupWrite ops plan.recyclable commit rc s
  { result := cleaned.1.1
    report := ⟨commit, cleaned.2.issue, value, cleaned.1.2, cleaned.2.repo.pending⟩
    err := cleaned.2.err
    repo := cleaned.2.repo
    world := cleaned.2.world }

variable [Inhabited α]

/-- COMMIT and what its reply says: a complete one commits, a started execution without one leaves the outcome
    unknown. -/
def commitWork (value : α) (s : Call W Issue) : Outcome W α :=
  let reply := writeCommand ops .commit [] .commit false false s
  if reply.1.replied then finish ops plan reply.1.result .committed value reply.2
  else if reply.1.execution.started then finish ops plan reply.1.result .unknown default reply.2
  else finish ops plan reply.1.result .notCommitted default reply.2

/-- A call past its input checks. -/
def transact (timeout : UInt32) (actor : Actor) (work : Window → NodeStep W (Settled α)) (s : Call W Issue) :
    Outcome W α :=
  match prepareCommit ops plan timeout actor work s with
  | (.error f, s) => finish ops plan f.val .notCommitted default s
  | (.ok (.recovered a), s) => finish ops plan .ok .notCommitted a s
  | (.ok (.ready a), s) => commitWork ops plan a s

/-- A call refused before it touches the database. -/
def refuse (rc : Result) (repo : Repo) (w : W) : Outcome W α where
  result := rc
  report := ⟨.notCommitted, .none, default, false, repo.pending⟩
  err := { stage := some .validate }
  repo := repo
  world := w

/-- **A write entry**: BUSY while something of an earlier call is still held, then the entry's input
    checks, then the transaction. -/
def writeEntry (check : Result) (timeout : UInt32) (actor : Actor) (work : Window → NodeStep W (Settled α))
    (repo : Repo) (w : W) : Outcome W α :=
  if repo.pending then refuse .busy repo w
  else if check = .ok then transact ops plan timeout actor work (.enter repo w)
  else refuse check repo w

end Steps

end Vireo.Persistence.Node
