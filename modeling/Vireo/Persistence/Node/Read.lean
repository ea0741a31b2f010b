/-
  File:      Vireo/Persistence/Node/Read.lean
  Subject:   THE READ ENTRIES of the node repository: `get_root`, `stat` and `list_children`.

  A read runs in a transaction of its own, under the shared locks of user, session and node, and ends
  it with ROLLBACK; what it read is published only when all of that went well.
-/
import Vireo.Persistence.Node.Write

namespace Vireo.Persistence.Node

open Lib

/-! ## 1. The shape of a read -/

/-- `vireo_mysql_node_report_t`. -/
structure ReadReport where
  found : Bool
  issue : Issue
  rollbackConfirmed : Bool
  cleanupPending : Bool

/-- Everything a read leaves; `value` is published only when the result is OK. -/
structure ReadOutcome (W α : Type) where
  result : Result
  report : ReadReport
  value : Option α
  err : Diagnosis
  repo : Repo
  world : W

section Steps

variable {W α : Type} (ops : Ops W)

/-- `SET autocommit=0` of a read. -/
def beginRead : NodeStep W Unit := fun s =>
  let reply := command ops Result.noRange readLimits .begin [] .begin false false s
  succeed reply.1.result { reply.2 with transaction := reply.1.execution.started }

/-- `cleanup`: ROLLBACK, then give the lease back. The second component is `rollback_confirmed`. -/
def cleanupRead (rc : Result) (s : Call W Issue) : (Result × Bool) × Call W Issue :=
  let closed := closeStatement ops s
  let rc := rc.first (.ofExcept closed.1)
  let s := closed.2
  let rolled : (Result × Bool) × Call W Issue :=
    if s.transaction ∧ s.statement = none ∧ s.connection then
      let reply := command ops Result.noRange readLimits .rollback [] .rollback false true s
      ((rc.first reply.1.result, reply.1.replied), reply.2)
    else ((rc, false), s)
  let rc := rolled.1.1
  let healthy := rolled.1.2 && decide (rolled.2.err.cleanupResult = .ok) &&
    (decide (rc = .ok) || decide (rc = .notFound))
  let released := releaseLease ops healthy rc rolled.2
  ((released.1, rolled.1.2), released.2)

/-- Everything of a read before its cleanup. -/
def readWork (timeout : UInt32) (actor : Actor) (work : Window → NodeStep W α) : NodeStep W α := do
  acquireLease ops timeout
  borrowConnection ops
  beginRead ops
  lockUser ops actor.userId
  let win ← lockSession ops actor
  work win

/-- A read refused before it touches the database. -/
def refuseRead (rc : Result) (stage : Stage) (repo : Repo) (w : W) : ReadOutcome W α where
  result := rc
  report := ⟨false, .none, false, repo.pending⟩
  value := none
  err := { stage := some stage }
  repo := repo
  world := w

/-- A read past its input checks. -/
def readThrough (timeout : UInt32) (actor : Actor) (work : Window → NodeStep W α) (repo : Repo)
    (w : W) : ReadOutcome W α :=
  let run := readWork ops timeout actor work (.enter repo w)
  let rc := Result.ofExcept run.1
  let s := classify [.user, .session, .node] rc run.2
  let cleaned := cleanupRead ops rc s
  { result := cleaned.1.1
    report := ⟨decide (cleaned.1.1 = .ok), cleaned.2.issue, cleaned.1.2, cleaned.2.repo.pending⟩
    value := if cleaned.1.1 = .ok then run.1.toOption else none
    err := cleaned.2.err
    repo := cleaned.2.repo
    world := cleaned.2.world }

/-! ## 2. `get_root` and `stat` -/

/-- The reads of `read_node`; `id = 0` is the root. -/
def nodeWork (actor : Actor) (id : UInt64) (win : Window) : NodeStep W Value := do
  let found ← lockNode ops actor.userId id
  let now ← captureUtc ops
  checkWindow win now
  match found with
  | some v => pure v
  | none =>
    if id = 0 then reject ⟨.rootInvariant, .node, .database⟩
    else reject ⟨.notFound, .node, .notFound⟩

/-- `read_node`. -/
def readNode (actor : Actor) (id : UInt64) (root : Bool) (timeout : UInt32) (repo : Repo) (w : W) :
    ReadOutcome W Value :=
  if repo.pending then refuseRead .busy .validate repo w
  else if actor.Missing ∨ (root = false ∧ id = 0) then
    refuseRead .invalidArgument .validate repo w
  else if Pool.waitMsMax < timeout.toNat then refuseRead .range .validate repo w
  else readThrough ops timeout actor (nodeWork ops actor id) repo w

/-- `vireo_mysql_node_repository_get_root`. -/
def getRoot (actor : Actor) (timeout : UInt32) (repo : Repo) (w : W) : ReadOutcome W Value :=
  readNode ops actor 0 true timeout repo w

/-- `vireo_mysql_node_repository_stat`. -/
def stat (actor : Actor) (id : UInt64) (timeout : UInt32) (repo : Repo) (w : W) :
    ReadOutcome W Value :=
  readNode ops actor id false timeout repo w

/-! ## 3. `list_children` -/

/-- `VIREO_MYSQL_NODE_PAGE_CAPACITY`. -/
def pageCapacity : Nat := 64

/-- `vireo_mysql_node_list_query_t`. -/
structure ListQuery where
  directoryId : UInt64
  afterId : UInt64
  pageSize : Nat

/-- `vireo_mysql_node_page_t`; `count` is the length of `nodes`. -/
structure Page where
  nodes : List Value := []
  hasMore : Bool := false
  nextAfterId : UInt64 := 0
deriving Inhabited

/-- The row loop of `lock_children`: `room` rows may still come, the last of them only to show that
    there is more. -/
def childrenLoop (owner directory : UInt64) : Nat → UInt64 → Page → NodeStep W Page
  | 0, _, page => do
    let row ← readRow ops .activeChildren .node 11
    match row with
    | none => pure page
    | some _ => Prog.fail .database
  | room + 1, previous, page => do
    let row ← readRow ops .activeChildren .node 11
    match row with
    | none => pure page
    | some cells =>
      match nodeValue owner 0 cells with
      | none => Prog.fail .database
      | some v =>
        if v.parent ≠ some directory ∨ v.id ≤ previous then Prog.fail .database
        else if room = 0 then childrenLoop owner directory room v.id { page with hasMore := true }
        else childrenLoop owner directory room v.id { page with nodes := page.nodes ++ [v] }

/-- The id of the last delivered node. -/
def Page.lastId (page : Page) : UInt64 := (page.nodes.getLast?.map (·.id)).getD 0

/-- `lock_children`. -/
def lockChildren (owner : UInt64) (q : ListQuery) : NodeStep W Page :=
  closing ops .node do
    let ex ← executing ops Result.noRange readLimits .activeChildren
      [.u64 owner, .u64 q.directoryId, .u64 q.afterId, .u64 (UInt64.ofNat (q.pageSize + 1))] .node
    if ex.hasResult = false then Prog.fail .database
    else do
      let page ← childrenLoop ops owner q.directoryId (q.pageSize + 1) q.afterId {}
      if page.hasMore then pure { page with nextAfterId := page.lastId } else pure page

/-- The reads of `list_children`. -/
def listWork (actor : Actor) (q : ListQuery) (win : Window) : NodeStep W Page := do
  let parent ← lockNode ops actor.userId q.directoryId
  let page ← (if isDirectory parent then lockChildren ops actor.userId q else pure {})
  let now ← captureUtc ops
  checkWindow win now
  if isDirectory parent then pure page else reject ⟨.notFound, .node, .notFound⟩

/-- `vireo_mysql_node_repository_list_children`. -/
def listChildren (actor : Actor) (q : ListQuery) (timeout : UInt32) (repo : Repo) (w : W) :
    ReadOutcome W Page :=
  if repo.pending then refuseRead .busy .validate repo w
  else if actor.Missing ∨ q.directoryId = 0 then refuseRead .invalidArgument .validate repo w
  else if q.pageSize = 0 ∨ pageCapacity < q.pageSize ∨ Pool.waitMsMax < timeout.toNat then
    refuseRead .range .validate repo w
  else if (ops.allocate w).1 = false then refuseRead .noMemory .allocate repo (ops.allocate w).2
  else readThrough ops timeout actor (listWork ops actor q) repo (ops.allocate w).2

end Steps

end Vireo.Persistence.Node
