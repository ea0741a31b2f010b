/-
  File:      Vireo/Persistence/Node/Request.lean
  Subject:   THE ENTRIES OF THE NODE REPOSITORY AS ONE TYPE OF REQUESTS.
-/
import Vireo.Persistence.Node.Entry
import Vireo.Persistence.Node.Read

namespace Vireo.Persistence.Node

variable {W α β : Type}

/-- What the reports of the write entries have in common. -/
structure Published where
  effect : Effect := .none
  nodeId : UInt64 := 0
  auditId : UInt64 := 0
  deletedAtMs : UInt64 := 0
deriving DecidableEq, Inhabited

def MkdirValue.published (v : MkdirValue) : Published where
  nodeId := (v.node.map Value.id).getD 0
  auditId := v.auditId

def MoveValue.published (v : MoveValue) : Published where
  nodeId := (v.node.map Value.id).getD 0
  auditId := v.auditId

def SoftDeleteValue.published (v : SoftDeleteValue) : Published where
  nodeId := v.nodeId
  auditId := v.auditId
  deletedAtMs := v.deletedAtMs

def OnceValue.published (v : OnceValue) : Published where
  effect := v.effect
  nodeId := v.nodeId
  auditId := v.auditId

def RemoveValue.published (v : RemoveValue) : Published where
  effect := v.effect
  nodeId := v.nodeId
  auditId := v.auditId
  deletedAtMs := v.deletedAtMs

/-- The same outcome, with another view of what it publishes. -/
def Outcome.map (f : α → β) (o : Outcome W α) : Outcome W β where
  result := o.result
  report := ⟨o.report.commit, o.report.issue, f o.report.value, o.report.rollbackConfirmed,
    o.report.cleanupPending⟩
  err := o.err
  repo := o.repo
  world := o.world

/-- A write entry and its input. -/
inductive WriteCall where
  | mkdir (i : MkdirInput)
  | mkdirOnce (i : MkdirOnceInput)
  | move (i : MoveInput)
  | moveOnce (i : MoveOnceInput)
  | softDelete (i : SoftDeleteInput)
  | softDeleteOnce (i : RemoveOnceInput)

def WriteCall.run (ops : Ops W) (c : WriteCall) (actor : Actor) (timeout : UInt32) (repo : Repo)
    (w : W) : Outcome W Published :=
  match c with
  | .mkdir i => (Node.mkdir ops actor i timeout repo w).map MkdirValue.published
  | .mkdirOnce i => (Node.mkdirOnce ops actor i timeout repo w).map OnceValue.published
  | .move i => (Node.move ops actor i timeout repo w).map MoveValue.published
  | .moveOnce i => (Node.moveOnce ops actor i timeout repo w).map OnceValue.published
  | .softDelete i => (Node.softDelete ops actor i timeout repo w).map SoftDeleteValue.published
  | .softDeleteOnce i => (Node.softDeleteOnce ops actor i timeout repo w).map RemoveValue.published

/-- Every entry that reads or writes. -/
inductive BusinessCall where
  | write (c : WriteCall)
  | getRoot
  | stat (id : UInt64)
  | listChildren (q : ListQuery)

/-- The result of a call, and what it leaves of the repository and the world. -/
def BusinessCall.run (ops : Ops W) (c : BusinessCall) (actor : Actor) (timeout : UInt32)
    (repo : Repo) (w : W) : Result × Repo × W :=
  match c with
  | .write c => let o := c.run ops actor timeout repo w; (o.result, o.repo, o.world)
  | .getRoot => let o := Node.getRoot ops actor timeout repo w; (o.result, o.repo, o.world)
  | .stat id => let o := Node.stat ops actor id timeout repo w; (o.result, o.repo, o.world)
  | .listChildren q =>
    let o := Node.listChildren ops actor q timeout repo w
    (o.result, o.repo, o.world)

theorem writeEntry_busy [Inhabited α] (ops : Ops W) (plan : Plan) (check : Result) (timeout : UInt32)
    (actor : Actor) (work : Window → NodeStep W (Settled α)) {repo : Repo}
    (hp : repo.pending = true) (w : W) :
    writeEntry ops plan check timeout actor work repo w = refuse .busy repo w := if_pos hp

/-- **While something is pending, every business call is refused and touches nothing.** -/
theorem BusinessCall.run_busy (ops : Ops W) (c : BusinessCall) (actor : Actor) (timeout : UInt32)
    {repo : Repo} (hp : repo.pending = true) (w : W) :
    c.run ops actor timeout repo w = (.busy, repo, w) := by
  have hread : ∀ (id : UInt64) (root : Bool),
      readNode ops actor id root timeout repo w = refuseRead .busy .validate repo w :=
    fun _ _ => if_pos hp
  have hlist : ∀ q, Node.listChildren ops actor q timeout repo w =
      refuseRead .busy .validate repo w := fun _ => if_pos hp
  cases c with
  | write c =>
    cases c <;> simp only [BusinessCall.run, WriteCall.run, Node.mkdir, Node.mkdirOnce, Node.move,
        Node.moveOnce, Node.softDelete, Node.softDeleteOnce, writeEntry_busy ops _ _ _ _ _ hp] <;> rfl
  | getRoot =>
    simp only [BusinessCall.run, Node.getRoot, hread]
    rfl
  | stat id =>
    simp only [BusinessCall.run, Node.stat, hread]
    rfl
  | listChildren q =>
    simp only [BusinessCall.run, hlist]
    rfl

end Vireo.Persistence.Node
