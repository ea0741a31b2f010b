/-
  File:      Vireo/Persistence/Node/Respect.lean
  Subject:   WHAT EVERY DEPENDENCY CALL KEEPS, A WRITE CALL KEEPS.
-/
import Vireo.Persistence.Node.Helpers
import Vireo.Persistence.Respect
import Vireo.Persistence.Node.Request

namespace Vireo.Persistence.Node

open Lib Prog

section Helpers

variable {W α β : Type} {ops : Ops W} {R : W → W → Prop} {p : NodeStep W α} (h : ops.Respects R)
  {work : Window → NodeStep W (Settled α)}
include h

/-! ## 1. Locking reads and writes -/

theorem respecting_reject (v : Verdict) : Respecting R (reject v : NodeStep W α) := fun _ => h.refl _

theorem respecting_checkWindow (win : Window) (now : UInt64) :
    Respecting R (checkWindow win now : NodeStep W Unit) :=
  Keeps.ite (h.runs.pure _) (respecting_reject h _)

theorem helpers : KeptByHelpers ops (Later R) where
  toKeptByRuns := h.runs
  retag stage s := by
    unfold retag
    split
    · exact h.refl _
    · exact h.refl _
  receiptInvalid s _ := h.refl s.world

theorem respecting_lockUserRow (limits : Limits) (lock : Lock) (id : UInt64) :
    Respecting R (lockUserRow ops limits lock id) := by
  refine h.runs.closing (h.runs.bind ((helpers h).lockRow _ (by cases lock <;> decide) _ _
    (h.runs.readRow _ _ _) _) fun _ => ?_) _
  exact .ite (h.runs.pure _) (respecting_reject h _)

theorem respecting_lockSession (actor : Actor) : Respecting R (lockSession ops actor) := by
  refine h.runs.closing (h.runs.bind ((helpers h).lockRow _ (by decide) _ _ (h.runs.readRow _ _ _) _)
    fun row => ?_) _
  cases row with
  | none => exact respecting_reject h _
  | some r => exact .ite (h.runs.pure _) (respecting_reject h _)

/-! ## 2. The work of the entries -/

theorem respecting_clock (win : Window) {k : UInt64 → NodeStep W α} (hk : ∀ now, Respecting R (k now)) :
    Respecting R (do let now ← captureUtc ops; checkWindow win now; k now) :=
  h.runs.bind h.captureUtc fun now => h.runs.bind (respecting_checkWindow h win now) fun _ => hk now

theorem respecting (win : Window) (recovered : α → Prop) :
    WorkRules ops (Later R) win (Respecting R) (Respecting R) recovered where
  toKeptByHelpers := helpers h
  read := h.runs.bind
  clock := respecting_clock h win
  step := h.runs.bind
  reject := respecting_reject h
  ready _ := h.runs.pure _
  again _ _ := h.runs.pure _

/-! ## 3. A call from end to end -/

variable (plan : Plan)

theorem respecting_openSession (timeout : UInt32) (actor : Actor) :
    Respecting R (openSession ops plan timeout actor) := by
  refine h.runs.bind (h.acquireLease timeout) fun _ => h.runs.bind h.borrowConnection fun _ => ?_
  refine h.runs.bind ?_ fun _ => h.runs.bind ?_ fun _ => respecting_lockSession h actor
  · intro s
    rw [beginTransaction]
    rw [Later, succeed_state]
    exact h.command _ _ .begin [] .begin false false s
  · exact .ite (respecting_lockUserRow h _ _ _) (respecting_lockUserRow h _ _ _)

theorem respecting_prepareCommit (timeout : UInt32) (actor : Actor) (hw : ∀ win, Respecting R (work win)) :
    Respecting R (prepareCommit ops plan timeout actor work) := by
  refine h.runs.bind (respecting_openSession h plan timeout actor) fun win => h.runs.bind (hw win) fun r => ?_
  cases r with
  | recovered a => exact h.runs.pure _
  | ready a => exact respecting_clock h win fun _ => h.runs.pure _

theorem later_cleanupWrite (recyclable : List Issue) (commit : Commit) (rc : Result)
    (s : Call W Issue) : Later R s (cleanupWrite ops recyclable commit rc s).2 := by
  rw [cleanupWrite]
  refine h.trans _ _ _ (h.trans _ _ _ (h.runs.closeStatement s) ?_) (h.releaseLease _ _ _)
  unfold rollbackWork
  split
  · exact h.command _ _ _ _ _ _ _ _
  · exact h.refl _

theorem respects_finish (rc : Result) (commit : Commit) (value : α) (s : Call W Issue) :
    R s.world (finish ops plan rc commit value s).world := by
  have hclass : (classify plan.shapeStages rc s).world = s.world := by
    unfold classify
    split
    · rfl
    · rfl
  rw [← hclass]
  exact later_cleanupWrite h plan.recyclable commit rc (classify plan.shapeStages rc s)

variable [Inhabited α]

theorem respects_commitWork (value : α) (s : Call W Issue) :
    R s.world (commitWork ops plan value s).world := by
  have hcommit : R s.world (writeCommand ops .commit [] .commit false false s).2.world :=
    h.command _ _ _ _ _ _ _ s
  rw [commitWork]
  split
  · exact h.trans _ _ _ hcommit (respects_finish h _ _ _ _ _)
  split
  · exact h.trans _ _ _ hcommit (respects_finish h _ _ _ _ _)
  · exact h.trans _ _ _ hcommit (respects_finish h _ _ _ _ _)

theorem respects_writeEntry (check : Result) (timeout : UInt32) (actor : Actor)
    (hw : ∀ win, Respecting R (work win)) (repo : Repo) (w : W) :
    R w (writeEntry ops plan check timeout actor work repo w).world := by
  unfold writeEntry
  split
  · exact h.refl w
  split
  · have hrun := respecting_prepareCommit h plan timeout actor hw (.enter repo w)
    unfold transact
    generalize prepareCommit ops plan timeout actor work (.enter repo w) = x at hrun ⊢
    rcases x with ⟨f | a | a, s⟩
    · exact h.trans _ _ _ hrun (respects_finish h _ _ _ _ _)
    · exact h.trans _ _ _ hrun (respects_commitWork h _ _ _)
    · exact h.trans _ _ _ hrun (respects_finish h _ _ _ _ _)
  · exact h.refl w

end Helpers

theorem WriteCall.run_respects {W : Type} {ops : Ops W} {R : W → W → Prop} (h : ops.Respects R)
    (call : WriteCall) (actor : Actor) (timeout : UInt32) (repo : Repo) (w : W) :
    R w (call.run ops actor timeout repo w).world := by
  cases call with
  | mkdir i => exact respects_writeEntry h _ _ _ _ (fun win => (respecting h win (fun _ => True)).mkdirWork i) repo w
  | mkdirOnce i => exact respects_writeEntry h _ _ _ _ (fun win => (respecting h win _).mkdirOnceWork i) repo w
  | move i => exact respects_writeEntry h _ _ _ _ (fun win => (respecting h win (fun _ => True)).moveWork i) repo w
  | moveOnce i => exact respects_writeEntry h _ _ _ _ (fun win => (respecting h win _).moveOnceWork i) repo w
  | softDelete i => exact respects_writeEntry h _ _ _ _ (fun win => (respecting h win (fun _ => True)).softDeleteWork i) repo w
  | softDeleteOnce i =>
    exact respects_writeEntry h _ _ _ _ (fun win => (respecting h win _).softDeleteOnceWork i) repo w

theorem run_faultless (call : WriteCall) (actor : Actor) (timeout : UInt32) (repo : Repo) (t : Tables)
    (c : Counters) (clock : Nat → Sampled) :
    (call.run dbOps actor timeout repo (World.fresh t c clock fun _ => none)).world.faulted = false :=
  (call.run_respects respects_calm actor timeout repo _ ⟨fun _ => rfl, rfl⟩).faultless

end Vireo.Persistence.Node
