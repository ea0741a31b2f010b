/-
  File:      Vireo/Persistence/Node/Helpers.lean
  Subject:   WHAT THE STATEMENTS OF A NODE ENTRY KEEP, ITS HELPERS KEEP.
-/
import Vireo.Persistence.Steps
import Vireo.Persistence.Node.Entry

namespace Vireo.Persistence.Node

open Lib Prog

variable {W α β : Type} {ops : Ops W} {R : Call W Issue → Call W Issue → Prop}

/-- A preorder that the statements of an entry keep, and what is said of a bad receipt. -/
structure KeptByHelpers (ops : Ops W) (R : Call W Issue → Call W Issue → Prop) : Prop
    extends KeptByRuns ops R where
  retag : ∀ stage s, R s (retag stage s)
  receiptInvalid : ∀ s db, R s ({ s with issue := Issue.receiptInvalid }.diagnose .receiptRead .database (some db) false)

namespace KeptByHelpers

variable (h : KeptByHelpers ops R) {sql : Sql}
include h

/-! ## 1. Locking reads and writes -/

theorem lockRow (limits : Limits) (hq : ¬ sql.Bracket) (params : List Param) (stage : Stage)
    {read : NodeStep W (Option (List Cell))} (hr : Keeps R read) (check : List Cell → Option β) :
    Keeps R (Node.lockRow ops limits sql params stage read check) := by
  refine h.bind (h.executing _ limits hq params stage) fun ex => ?_
  refine .ite (h.fail _) (h.bind hr fun row => ?_)
  cases row with
  | none => exact h.pure _
  | some cells =>
    dsimp only
    cases check cells with
    | none => exact h.fail _
    | some v => exact h.bind (h.uniqueEnd sql stage) fun _ => h.pure _

theorem lockMkdirParent (owner id : UInt64) : Keeps R (Node.lockMkdirParent ops owner id) :=
  h.closing (h.lockRow _ (by decide) _ _ (h.readRow _ _ _) _) _

theorem lockMkdirName (owner parent : UInt64) (name : Bytes) :
    Keeps R (Node.lockMkdirName ops owner parent name) :=
  h.closing (h.bind (h.lockRow _ (by decide) _ _ (h.readRow _ _ _) _) fun _ => h.pure _) _

theorem lockMoveNode (owner id : UInt64) (lock : Lock) (stage : Stage) :
    Keeps R (Node.lockMoveNode ops owner id lock stage) :=
  h.closing (h.lockRow _ (by cases lock <;> decide) _ _
    (.always h.trans (h.readRow _ _ _) fun s => h.retag stage s) _) _

theorem lockMoveName (owner parent : UInt64) (name : Bytes) :
    Keeps R (Node.lockMoveName ops owner parent name) :=
  h.closing (h.lockRow _ (by decide) _ _ (h.readRow _ _ _) _) _

theorem lockDeleteNode (owner id : UInt64) (source : Bool) :
    Keeps R (Node.lockDeleteNode ops owner id source) :=
  h.closing (h.lockRow _ (by cases source <;> decide) _ _ (h.readRow _ _ _) _) _

theorem lockDeleteChildren (owner id : UInt64) : Keeps R (Node.lockDeleteChildren ops owner id) :=
  h.closing (h.bind (h.lockRow _ (by decide) _ _ (h.readRow _ _ _) _) fun _ => h.pure _) _

theorem lockDeleteObject (hash : Bytes) (size : UInt64) :
    Keeps R (Node.lockDeleteObject ops hash size) := by
  refine h.closing (h.bind (h.lockRow _ (by decide) _ _ (h.readRow _ _ _) _) fun row => ?_) _
  cases row with
  | none => exact h.pure _
  | some o => exact .ite (h.pure _) (h.pure _)

theorem moveChain (owner id forbidden : UInt64) : Keeps R (Node.moveChain ops owner id forbidden) := by
  unfold Node.moveChain
  generalize ([] : List UInt64) = visited
  induction ancestorCapacity generalizing visited id with
  | zero => exact h.pure _
  | succ n ih =>
    refine .ite (h.pure _) (.ite (h.pure _) ?_)
    refine h.bind (h.lockMoveNode owner id .share .ancestor) fun row => ?_
    cases row with
    | none => exact h.pure _
    | some v =>
      refine .ite (h.pure _) ?_
      cases v.parent with
      | none => exact h.pure _
      | some parent => exact ih parent (id :: visited)

theorem deleteChain (owner id : UInt64) : Keeps R (Node.deleteChain ops owner id) := by
  unfold Node.deleteChain
  generalize ([] : List UInt64) = visited
  induction ancestorCapacity generalizing visited id with
  | zero => exact h.pure _
  | succ n ih =>
    refine .ite (h.pure _) (h.bind (h.lockDeleteNode owner id false) fun row => ?_)
    cases row with
    | none => exact h.pure _
    | some v =>
      refine .ite (h.pure _) ?_
      cases v.parent with
      | none => exact h.pure _
      | some parent => exact ih parent (id :: visited)

theorem modifyOne (limits : Limits) (hq : ¬ sql.Bracket) (params : List Param) (stage : Stage) :
    Keeps R (Node.modifyOne ops limits sql params stage) :=
  h.closing (h.bind (h.executing _ limits hq params stage) fun _ => .ite (h.fail _) (h.pure _)) _

theorem insertRow (hq : ¬ sql.Bracket) (params : List Param) (stage : Stage) :
    Keeps R (Node.insertRow ops sql params stage) := by
  intro s
  have hrun := h.prepareExecute Result.noRange writeLimits sql params stage s hq
  refine h.trans _ _ _ ?_ ((h.bind (h.succeed _) fun _ => h.pure _) _)
  refine h.trans _ _ _ hrun (h.trans _ _ _ ?_ (h.closeStatement _))
  split
  · exact h.diagnose _ stage _ none
  · exact h.refl _

theorem refuseReceipt (db : DbError) : Keeps R (Node.refuseReceipt db : NodeStep W α) :=
  fun s => h.receiptInvalid s db

theorem receiptStep {p : NodeStep W α} (db : DbError) (hp : Keeps R p) : Keeps R (Node.receiptStep db p) := by
  intro s
  have hs := hp s
  unfold Node.receiptStep
  rcases hr : p s with ⟨r, s'⟩
  rw [hr] at hs
  cases r with
  | ok a => exact hs
  | error f =>
    dsimp only
    split
    · exact h.trans _ _ _ hs (h.receiptInvalid s' db)
    · exact h.trans _ _ _ hs (h.diagnose s' .receiptRead f.val (some db))

theorem lockReceipt (limits : Limits) (hq : ¬ sql.Bracket) (params : List Param) (count : Nat)
    (check : List Cell → Option β) : Keeps R (Node.lockReceipt ops limits sql params count check) := by
  refine .always h.trans ?_ h.closeStatement
  refine h.bind (h.executing _ limits hq params _) fun ex => ?_
  refine .ite (h.refuseReceipt _) (h.bind (h.fetching sql) fun o => ?_)
  refine h.bind (h.receiptStep _ (h.succeed _)) fun _ => ?_
  cases o.outcome with
  | other => exact h.refuseReceipt _
  | done => exact h.pure _
  | row =>
    refine h.bind (h.receiptStep _ (h.columnsFrom sql count 0)) fun cells => ?_
    cases check cells with
    | none => exact h.refuseReceipt _
    | some v =>
      refine h.bind (h.fetching sql) fun o => ?_
      refine h.bind (h.receiptStep _ (h.succeed _)) fun _ => ?_
      exact .ite (h.pure _) (h.refuseReceipt _)

/-! ## 2. The reads and writes of the entries -/

theorem auditRow (action : UInt64) (request : Key) (actor : Actor) (target now : UInt64) :
    Keeps R (Node.auditRow ops action request actor target now) :=
  h.insertRow (by unfold Sql.Bracket; simp) _ _

theorem moveVerdict (user nodeId newParentId : UInt64) (name : Bytes) :
    Keeps R (Node.moveVerdict ops user nodeId newParentId name) := by
  refine h.bind (h.lockMoveNode _ _ _ _) fun source => ?_
  cases source with
  | none => exact h.pure _
  | some source =>
    refine h.bind (h.lockMoveNode _ _ _ _) fun target => .ite (h.pure _) ?_
    cases source.parent with
    | none => exact h.pure _
    | some old =>
      refine h.bind (h.moveChain _ _ _) fun oldChain => h.bind ?_ fun newChain => ?_
      · cases oldChain with
        | none => exact h.moveChain _ _ _
        | some v => exact h.pure _
      cases newChain with
      | some v => exact h.pure _
      | none =>
        refine h.bind (h.lockMoveName _ _ _) fun found => ?_
        exact .ite (h.pure _) (.ite (h.diagnosing (h.fail _) _ _) (h.pure _))

theorem deleteVerdict (user nodeId : UInt64) : Keeps R (Node.deleteVerdict ops user nodeId) := by
  refine h.bind (h.lockDeleteNode _ _ _) fun source => ?_
  cases source with
  | none => exact h.pure _
  | some source =>
    dsimp only
    cases source.parent with
    | none => exact h.pure _
    | some old =>
      refine h.bind (h.deleteChain _ _) fun chain => ?_
      cases chain with
      | some v => exact h.pure _
      | none =>
        refine .ite ?_ ?_
        · exact h.bind (h.lockDeleteChildren _ _) fun _ => .ite (h.pure _) (h.pure _)
        · exact h.bind (h.lockDeleteObject _ _) fun _ => h.pure _

theorem deleteRows (user : UInt64) (source : Value) (object : ObjectRead) (now deleted : UInt64) :
    Keeps R (Node.deleteRows ops user source object now deleted) :=
  h.bind (h.modifyOne _ (by decide) _ _) fun _ =>
    Keeps.ite (h.modifyOne _ (by decide) _ _) (h.pure _)

end KeptByHelpers

/-! ## 3. The work of the entries -/

/-- The two phases of a work: what holds of one that has not looked at the clock yet, and what of one that
    has. -/
structure WorkRules (ops : Ops W) (R : Call W Issue → Call W Issue → Prop) (win : Window)
    (early late : NodeStep W (Settled α) → Prop) (recovered : α → Prop) : Prop extends KeptByHelpers ops R where
  read : ∀ {β : Type} {p : NodeStep W β} {f}, Keeps R p → (∀ b, early (f b)) → early (p >>= f)
  clock : ∀ {k : UInt64 → NodeStep W (Settled α)}, (∀ now, late (k now)) →
    early (captureUtc ops >>= fun now => checkWindow win now >>= fun _ => k now)
  step : ∀ {β : Type} {p : NodeStep W β} {f}, Keeps R p → (∀ b, late (f b)) → late (p >>= f)
  reject : ∀ v, late (reject v)
  ready : ∀ a, late (pure (.ready a))
  again : ∀ a, recovered a → late (pure (.recovered a))

namespace WorkRules

variable {win : Window} {actor : Actor}

section Plain

variable {early late : NodeStep W (Settled α) → Prop} {recovered : α → Prop}
  (h : WorkRules ops R win early late recovered) {v : Verdict}
include h

theorem refuse {c : Prop} [Decidable c] {p : NodeStep W (Settled α)} (hp : late p) :
    late (if c then Node.reject v else p) := by
  split
  · exact h.reject v
  · exact hp

theorem receipt {c : Prop} [Decidable c] {a : α} (ha : recovered a) : early (do
      let now ← captureUtc ops
      checkWindow win now
      if c then Node.reject v else pure (.recovered a)) := h.clock fun _ => h.refuse (h.again a ha)

end Plain

theorem mkdirWork {early late : NodeStep W (Settled MkdirValue) → Prop} {recovered : MkdirValue → Prop}
    (h : WorkRules ops R win early late recovered) (i : MkdirInput) : early (Node.mkdirWork ops actor i win) := by
  refine h.read (h.lockMkdirParent _ _) fun parent => ?_
  refine h.read (.ite (h.lockMkdirName _ _ _) (h.pure _)) fun occupied => ?_
  refine h.clock fun now => h.refuse (h.refuse ?_)
  refine h.step (h.insertRow (by decide) _ _) fun id => ?_
  exact h.step (h.auditRow _ _ _ _ _) fun audit => h.ready _

theorem moveWork {early late : NodeStep W (Settled MoveValue) → Prop} {recovered : MoveValue → Prop}
    (h : WorkRules ops R win early late recovered) (i : MoveInput) : early (Node.moveWork ops actor i win) := by
  refine h.read (h.moveVerdict _ _ _ _) fun verdict => h.clock fun now => ?_
  cases verdict with
  | error v => exact h.reject v
  | ok d =>
    refine h.step (.ite (h.modifyOne _ (by decide) _ _) (h.pure _)) fun _ => ?_
    exact h.step (h.auditRow _ _ _ _ _) fun audit => h.ready _

theorem softDeleteWork {early late : NodeStep W (Settled SoftDeleteValue) → Prop}
    {recovered : SoftDeleteValue → Prop} (h : WorkRules ops R win early late recovered) (i : SoftDeleteInput) :
    early (Node.softDeleteWork ops actor i win) := by
  refine h.read (h.deleteVerdict _ _) fun verdict => h.clock fun now => ?_
  cases verdict with
  | error v => exact h.reject v
  | ok d =>
    refine h.step (h.deleteRows _ _ _ _ _) fun _ => ?_
    exact h.step (h.auditRow _ _ _ _ _) fun audit => h.ready _

section Once

variable {early late : NodeStep W (Settled OnceValue) → Prop}
  (h : WorkRules ops R win early late fun a => a.effect = .recovered)
include h

theorem mkdirOnceWork (i : MkdirOnceInput) : early (Node.mkdirOnceWork ops actor i win) := by
  refine h.read (h.lockReceipt _ (by decide) _ _ _) fun receipt => ?_
  cases receipt with
  | some r => exact h.receipt rfl
  | none =>
    refine h.read (h.lockMkdirParent _ _) fun parent => ?_
    refine h.read (.ite (h.lockMkdirName _ _ _) (h.pure _)) fun occupied => ?_
    refine h.clock fun now => h.refuse (h.refuse ?_)
    refine h.step (h.insertRow (by decide) _ _) fun id => ?_
    refine h.step (h.auditRow _ _ _ _ _) fun audit => ?_
    exact h.step (h.modifyOne _ (by decide) _ _) fun _ => h.ready _

theorem moveOnceWork (i : MoveOnceInput) : early (Node.moveOnceWork ops actor i win) := by
  refine h.read (h.lockReceipt _ (by decide) _ _ _) fun receipt => ?_
  cases receipt with
  | some r => exact h.receipt rfl
  | none =>
    refine h.read (h.moveVerdict _ _ _ _) fun verdict => h.clock fun now => ?_
    cases verdict with
    | error v => exact h.reject v
    | ok d =>
      refine h.step (.ite (h.modifyOne _ (by decide) _ _) (h.pure _)) fun _ => ?_
      refine h.step (h.auditRow _ _ _ _ _) fun audit => ?_
      exact h.step (h.modifyOne _ (by decide) _ _) fun _ => h.ready _

end Once

theorem softDeleteOnceWork {early late : NodeStep W (Settled RemoveValue) → Prop}
    (h : WorkRules ops R win early late fun a => a.effect = .recovered) (i : RemoveOnceInput) :
    early (Node.softDeleteOnceWork ops actor i win) := by
  refine h.read (h.lockReceipt _ (by decide) _ _ _) fun receipt => ?_
  cases receipt with
  | some r => exact h.receipt rfl
  | none =>
    refine h.read (h.deleteVerdict _ _) fun verdict => h.clock fun now => ?_
    cases verdict with
    | error v => exact h.reject v
    | ok d =>
      refine h.step (h.deleteRows _ _ _ _ _) fun _ => ?_
      refine h.step (h.auditRow _ _ _ _ _) fun audit => ?_
      exact h.step (h.modifyOne _ (by decide) _ _) fun _ => h.ready _

end WorkRules

end Vireo.Persistence.Node
