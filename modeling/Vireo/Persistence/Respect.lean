/-
  File:      Vireo/Persistence/Respect.lean
  Subject:   WHAT EVERY DEPENDENCY CALL KEEPS, A STATEMENT KEEPS.

  A repository touches the world only through its dependencies. So a preorder on worlds that each of
  them respects holds between the world a helper is given and the world it leaves, whatever it does
  in between.
-/
import Vireo.Persistence.Mysql
import Vireo.Persistence.Steps

namespace Vireo.Persistence

open Lib Prog

/-- Every dependency call takes the world to an `R`-later one. -/
structure Ops.Respects {W : Type} (ops : Ops W) (R : W → W → Prop) : Prop where
  refl : ∀ w, R w w
  trans : ∀ a b c, R a b → R b c → R a c
  acquire : ∀ t w, R w (ops.acquire t w).2
  borrow : ∀ w, R w (ops.borrow w).2
  prepare : ∀ q l w, R w (ops.prepare q l w).2
  execute : ∀ q p w, R w (ops.execute q p w).2
  fetch : ∀ q w, R w (ops.fetch q w).2
  column : ∀ q i w, R w (ops.column q i w).2
  close : ∀ q w, R w (ops.close q w).2
  utc : ∀ w, R w (ops.utc w).2
  release : ∀ d w, R w (ops.release d w).2

section Steps

variable {W I α β : Type} {ops : Ops W} {R : W → W → Prop}

/-- The worlds of two states of a call. -/
def Later (R : W → W → Prop) (s s' : Call W I) : Prop := R s.world s'.world

/-- A step that respects `R` whatever comes out. -/
abbrev Respecting (R : W → W → Prop) (p : Step W I α) : Prop := Keeps (Later R) p

variable {p : Step W I α} {f : α → Step W I β} (h : ops.Respects R)
include h

namespace Ops.Respects

/-! ## 1. Statements -/

theorem later_refl (s : Call W I) : Later R s s := h.refl _

theorem later_trans (a b c : Call W I) : Later R a b → Later R b c → Later R a c := h.trans _ _ _

theorem prepareExecute (remap : Result → Result) (limits : Limits) (sql : Sql) (params : List Param)
    (stage : Stage) (cleanup : Bool) (s : Call W I) :
    Later R s (Persistence.prepareExecute ops remap limits sql params stage cleanup s).2 := by
  have hp : R s.world (prepareSql ops remap limits sql stage cleanup s).2.world :=
    h.prepare sql limits s.world
  rw [Persistence.prepareExecute]
  split
  · exact h.trans _ _ _ hp (h.execute sql params _)
  · exact hp

theorem runs : KeptByRuns ops (Later R : Call W I → Call W I → Prop) where
  refl := h.later_refl
  trans := h.later_trans
  diagnose s _ _ _ := h.refl s.world
  closeStatement := by
    intro s
    unfold Persistence.closeStatement
    cases s.statement with
    | none => exact h.later_refl s
    | some sql =>
      dsimp only
      rw [succeed_state]
      exact h.close sql s.world
  fetching sql s := h.fetch sql s.world
  column sql i s := h.column sql i s.world
  prepareExecute _ _ _ _ _ s _ := h.prepareExecute _ _ _ _ _ _ s

theorem command (remap : Result → Result) (limits : Limits) (sql : Sql) (params : List Param)
    (stage : Stage) (insert cleanup : Bool) (s : Call W I) :
    Later R s (Persistence.command ops remap limits sql params stage insert cleanup s).2 := by
  refine h.trans _ _ _ (h.prepareExecute remap limits sql params stage cleanup s) ?_
  refine h.trans _ _ _ ?_ (h.runs.closeStatement _)
  split
  · exact h.refl _
  · exact h.refl _

theorem captureUtc : Respecting R (Persistence.captureUtc ops : Step W I UInt64) := by
  refine h.runs.diagnosing ?_ _ _
  intro s
  exact h.utc s.world

theorem acquireLease (timeout : UInt32) :
    Respecting R (Persistence.acquireLease ops timeout : Step W I Unit) := by
  intro s
  rw [Persistence.acquireLease]
  rw [Later, succeed_state]
  exact h.acquire timeout s.world

theorem borrowConnection : Respecting R (Persistence.borrowConnection ops : Step W I Unit) := by
  intro s
  rw [Persistence.borrowConnection]
  rw [Later, succeed_state]
  exact h.borrow s.world

theorem releaseLease (healthy : Bool) (rc : Result) (s : Call W I) :
    Later R s (Persistence.releaseLease ops healthy rc s).2 := by
  unfold Persistence.releaseLease
  split
  · exact h.release _ s.world
  · exact h.later_refl s

end Ops.Respects

end Steps

/-! ## 2. The weather -/

/-- No dependency call is going to fail, and none has. -/
structure World.Calm (w : World) : Prop where
  plan : ∀ k, w.faults k = none
  faultless : w.faulted = false

theorem World.evaluate_weather (w : World) (sql : Sql) (params : List Param) :
    (w.evaluate sql params).2.faults = w.faults ∧ (w.evaluate sql params).2.faulted = w.faulted := by
  unfold World.evaluate
  split
  · exact ⟨rfl, rfl⟩
  · exact ⟨rfl, rfl⟩
  · exact ⟨rfl, rfl⟩
  · exact ⟨rfl, rfl⟩

/-- What is stored stays, and a fault strikes only if one is planned. -/
structure World.Idle (w w' : World) : Prop where
  committed : w'.committed = w.committed
  working : w'.working = w.working
  counters : w'.counters = w.counters
  faults : w'.faults = w.faults
  faulted : w'.faulted = w.faulted ∨ ∃ k f, w.faults k = some f

theorem dbOps_respects {R : World → World → Prop} (refl : ∀ w, R w w) (trans : ∀ a b c, R a b → R b c → R a c)
    (idle : ∀ w w', w.Idle w' → R w w') (evaluate : ∀ w sql params, R w (w.evaluate sql params).2) :
    dbOps.Respects R := by
  constructor
  case refl => exact refl
  case trans => exact trans
  case execute =>
    intro q p w
    have hev := evaluate w q p
    unfold dbOps
    dsimp only
    split
    · rename_i f hf
      split
      · exact trans _ _ _ hev (idle _ _ ⟨rfl, rfl, rfl, rfl, .inr ⟨w.calls, f, (w.evaluate_weather q p).1 ▸ hf⟩⟩)
      · exact idle _ _ ⟨rfl, rfl, rfl, rfl, .inr ⟨w.calls, f, hf⟩⟩
    · exact trans _ _ _ hev (idle _ _ ⟨rfl, rfl, rfl, rfl, .inl rfl⟩)
  all_goals
    intros
    unfold dbOps
    dsimp only
    repeat' split
    all_goals first
      | exact idle _ _ ⟨rfl, rfl, rfl, rfl, .inl rfl⟩
      | exact idle _ _ ⟨rfl, rfl, rfl, rfl, .inr ⟨_, _, ‹World.fault _ = _›⟩⟩

theorem respects_calm : dbOps.Respects fun w w' => w.Calm → w'.Calm := by
  refine dbOps_respects (fun _ => id) (fun _ _ _ h k => k ∘ h) (fun w w' hi h => ?_) fun w q p h => ?_
  · refine ⟨hi.faults ▸ h.plan, ?_⟩
    rcases hi.faulted with hsame | ⟨k, f, hf⟩
    · exact hsame.trans h.faultless
    · exact nomatch (h.plan k).symm.trans hf
  · obtain ⟨hplan, hfaulted⟩ := w.evaluate_weather q p
    exact ⟨fun k => (congrFun hplan k).trans (h.plan k), hfaulted.trans h.faultless⟩

end Vireo.Persistence
