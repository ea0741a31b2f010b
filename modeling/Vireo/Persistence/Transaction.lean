/-
  File:      Vireo/Persistence/Transaction.lean
  Subject:   THE ENDS OF A TRANSACTION over the database: the lease, BEGIN, COMMIT, ROLLBACK.
-/
import Vireo.Persistence.Ideal

namespace Vireo.Persistence

open Lib Prog

variable {I α : Type} [Inhabited I]

/-! ## 1. Opening -/

/-- A state in which a call begins on the tables `t`. -/
structure Begins (t : Tables) (c : Counters) (clock : Nat → Sampled) (s : Call World I) : Prop where
  committed : s.world.committed = t
  counters : s.world.counters = c
  clock : s.world.clock = clock
  ticks : s.world.ticks = 0
  faultless : s.world.faulted = false
  statement : s.statement = none
  err : s.err = {}
  issue : s.issue = default

theorem Begins.enter {repo : Repo} (hp : repo.pending = false) (t : Tables) (c : Counters)
    (clock : Nat → Sampled) (faults : Nat → Option Fault) :
    Begins t c clock (Call.enter repo (World.fresh t c clock faults) : Call World I) := by
  refine ⟨rfl, rfl, rfl, rfl, rfl, ?_, rfl, rfl⟩
  show repo.statement = none
  cases h : repo.statement with
  | none => rfl
  | some q =>
    unfold Repo.pending at hp
    rw [h] at hp
    cases hp

/-- A call that failed after a fault, before COMMIT. -/
structure Foiled (t : Tables) (c : Counters) (s : Call World I) : Prop where
  faulted : s.world.faulted = true
  committed : s.world.committed = t
  counters : c.Le s.world.counters
  issue : s.issue = default

/-- The transaction has begun on the tables `t`. -/
structure Opened (t : Tables) (c : Counters) (clock : Nat → Sampled) (s : Call World I) : Prop where
  quiet : Quiet s
  view : view s = ⟨t, c, clock, 0, default, {}⟩
  committed : s.world.committed = t
  lease : s.lease = true
  connection : s.connection = true
  transaction : s.transaction = true

section Opening

variable {t : Tables} {c : Counters} {clock : Nat → Sampled} {s : Call World I} {remap : Result → Result}

theorem wp_acquireLease_db (timeout : UInt32) (h : Begins t c clock s) :
    wp (acquireLease dbOps timeout) (fun _ s' => Begins t c clock s' ∧ s'.lease = true)
      (fun _ s' => Foiled t c s') s := by
  cases hf : s.world.fault with
  | none =>
    refine wp_of_ok (a := ()) (by unfold acquireLease dbOps; dsimp only; rw [hf]; rfl) ?_
    exact ⟨{ h with }, rfl⟩
  | some f =>
    refine wp_of_error (e := f.failure)
      (by unfold acquireLease dbOps; dsimp only; rw [hf]; exact succeed_fail _ _) ?_
    exact ⟨rfl, h.committed, h.counters ▸ Counters.Le.refl _, h.issue⟩

theorem wp_borrowConnection_db (h : Begins t c clock s) (hl : s.lease = true) : wp (borrowConnection dbOps)
      (fun _ s' => Begins t c clock s' ∧ s'.lease = true ∧ s'.connection = true)
      (fun _ s' => Foiled t c s') s := by
  cases hf : s.world.fault with
  | none =>
    refine wp_of_ok (a := ()) (by unfold borrowConnection dbOps; dsimp only; rw [hf]; rfl) ?_
    exact ⟨{ h with }, hl, rfl⟩
  | some f =>
    refine wp_of_error (e := f.failure)
      (by unfold borrowConnection dbOps; dsimp only; rw [hf]; exact succeed_fail _ _) ?_
    exact ⟨rfl, h.committed, h.counters ▸ Counters.Le.refl _, h.issue⟩

/-- BEGIN, as both repositories execute it. -/
def beginning (remap : Result → Result) (limits : Limits) : Step World I Unit := fun s =>
  let reply := command dbOps remap limits .begin [] .begin false false s
  succeed reply.1.result { reply.2 with transaction := reply.1.execution.started }

theorem wp_beginning (hr : Faithful remap) (limits : Limits) (hs : Schema t) (hb : Below t c)
    (h : Begins t c clock s) (hl : s.lease = true) (hc : s.connection = true) :
    wp (beginning remap limits) (fun _ s' => Opened t c clock s') (fun _ s' => Foiled t c s') s := by
  have hok : remap .ok = .ok := (hr .ok).mpr rfl
  let r := command dbOps remap limits .begin [] .begin false false s
  have hstep : beginning remap limits s =
      succeed r.1.result { r.2 with transaction := r.1.execution.started } := rfl
  refine (wp_congr hstep).mpr ?_
  rcases command_db hr limits (by decide : Sql.begin ≠ .commit) [] .begin false false s with
    ⟨hne, hlost⟩ | ⟨k, hrun⟩
  · refine wp_of_error (e := ⟨_, hne⟩) (succeed_fail ⟨_, hne⟩ _) ?_
    refine ⟨hlost.faulted, hlost.kept.committed.trans h.committed, ?_, hlost.issue.trans h.issue⟩
    exact h.counters ▸ hlost.kept.counters
  · rw [show r = _ from hrun]
    simp only [World.evaluate, hok, Execution.misshapen, Bool.false_and, Bool.or_false,
      Bool.and_false, Bool.false_eq_true, if_false, decide_true]
    refine wp_of_ok (a := ()) rfl ?_
    have herr : s.err.note .begin .ok (some {}) false = {} := h.err
    refine ⟨⟨h.faultless, rfl, h.issue, herr, ?_, ?_⟩, ?_, h.committed, hl, hc, rfl⟩
    · show Schema s.world.committed
      rw [h.committed]
      exact hs
    · show Below s.world.committed s.world.counters
      rw [h.committed, h.counters]
      exact hb
    · show View.mk s.world.committed s.world.counters s.world.clock s.world.ticks s.issue
        (s.err.note .begin .ok (some {}) false) = _
      rw [h.committed, h.counters, h.clock, h.ticks, h.issue, herr]

theorem wp_opening (hr : Faithful remap) (limits : Limits) (timeout : UInt32) (hs : Schema t) (hb : Below t c)
    (h : Begins t c clock s) :
    wp (do acquireLease dbOps timeout; borrowConnection dbOps; beginning remap limits)
      (fun _ s' => Opened t c clock s') (fun _ s' => Foiled t c s') s := by
  refine wp_bind.mpr (wp_mono (wp_acquireLease_db timeout h) ?_ (fun _ _ hf => hf))
  rintro _ s₁ ⟨h₁, hl₁⟩
  refine wp_bind.mpr (wp_mono (wp_borrowConnection_db h₁ hl₁) ?_ (fun _ _ hf => hf))
  rintro _ s₂ ⟨h₂, hl₂, hc₂⟩
  exact wp_beginning hr limits hs hb h₂ hl₂ hc₂

end Opening

/-! ## 2. COMMIT, ROLLBACK and the lease -/

/-- A state in which nothing changed but the open result, the statement and the call count. -/
structure Cleaned (s s' : Call World I) : Prop where
  committed : s'.world.committed = s.world.committed
  counters : s'.world.counters = s.world.counters
  issue : s'.issue = s.issue
  faulted : s.world.faulted = true → s'.world.faulted = true

omit [Inhabited I] in
theorem Cleaned.refl (s : Call World I) : Cleaned s s := ⟨rfl, rfl, rfl, id⟩

section Ends

omit [Inhabited I]

theorem closeStatement_db (s : Call World I) : Cleaned s (closeStatement dbOps s).2 ∧
      ((closeStatement dbOps s).2.world.faulted = false →
        (closeStatement dbOps s).1 = .ok () ∧ (closeStatement dbOps s).2.err = s.err ∧
          (closeStatement dbOps s).2.statement = none) := by
  cases hs : s.statement with
  | none =>
    have e : closeStatement dbOps s = (.ok (), s) := by
      unfold closeStatement
      rw [hs]
    rw [e]
    exact ⟨.refl s, fun _ => ⟨rfl, rfl, hs⟩⟩
  | some sql =>
    cases hf : s.world.fault with
    | none =>
      have e : closeStatement dbOps s =
          (.ok (), { s with world := { s.world with rows := [] }.next, statement := none }) := by
        unfold closeStatement dbOps
        rw [hs]
        dsimp only
        rw [hf]
        rfl
      rw [e]
      exact ⟨⟨rfl, rfl, rfl, id⟩, fun _ => ⟨rfl, rfl, rfl⟩⟩
    | some f =>
      have e : closeStatement dbOps s = (.error f.failure, { s with
          world := s.world.struck
          statement := if f.left then some sql else none }.diagnose .statementClose f.failure.val
            (some f.error) true) := by
        unfold closeStatement dbOps
        rw [hs]
        dsimp only
        rw [hf]
        exact succeed_fail _ _
      rw [e]
      exact ⟨⟨rfl, rfl, rfl, fun _ => rfl⟩, nofun⟩

theorem commit_db {remap : Result → Result} (hr : Faithful remap) (limits : Limits) (s : Call World I) :
    let r := command dbOps remap limits .commit [] .commit false false s
    (r.1.replied = true ∧ r.2.world.committed = s.world.working ∧
      r.2.world.counters = s.world.counters ∧ r.2.issue = s.issue ∧
      (r.2.world.faulted = false → r.1.result = .ok ∧ r.2.err = s.err)) ∨
    (r.1.replied = false ∧ r.1.result ≠ .ok ∧ r.2.world.faulted = true ∧
      (r.2.world.committed = s.world.committed ∨
        (r.2.world.committed = s.world.working ∧ r.1.execution.started = true)) ∧
      s.world.counters.Le r.2.world.counters ∧ r.2.issue = s.issue) := by
  have hok : remap .ok = .ok := (hr .ok).mpr rfl
  intro r
  let run := prepareExecute dbOps remap limits .commit [] .commit false s
  let bad := decide (run.1.1 = .ok) && run.1.2.misshapen false
  let s₁ := if bad then run.2.diagnose .commit .database none false else run.2
  have hr₁ : r = (⟨(if bad then .database else run.1.1).first (.ofExcept (closeStatement dbOps s₁).1),
      run.1.2, decide ((if bad then .database else run.1.1) = .ok)⟩, (closeStatement dbOps s₁).2) := rfl
  obtain ⟨hclean, hquiet⟩ := closeStatement_db s₁
  rcases prepareExecute_db hr limits .commit [] .commit false s with ⟨hne, hs, hstart⟩ | ⟨k, e⟩
  · have hbad : bad = false := by
      show (decide (run.1.1 = .ok) && _) = false
      rw [decide_eq_false hne, Bool.false_and]
    have hs₁ : s₁ = run.2 := by
      show (if bad then _ else _) = _
      rw [hbad]
      rfl
    rw [hs₁] at hclean
    rw [hr₁, hbad, hs₁]
    refine .inr ⟨decide_eq_false hne, ?_, hclean.faulted hs.faulted, ?_, ?_, hclean.issue.trans hs.issue⟩
    · show Result.first run.1.1 _ ≠ .ok
      rw [Result.first_of_ne hne]
      exact hne
    · rcases hs.committed with hc | ⟨-, hc⟩
      · exact .inl (hclean.committed.trans hc)
      · by_cases hsame : s.world.committed = run.2.world.committed
        · exact .inl (hclean.committed.trans hsame.symm)
        · exact .inr ⟨hclean.committed.trans hc, hstart hsame⟩
    · rw [hclean.counters]
      exact hs.counters
  · have hfst : run.1 = (.ok, { started := true }) := by
      rw [show run = _ from e]
      exact Prod.ext hok rfl
    have hbad : bad = false := by
      show (decide (run.1.1 = .ok) && run.1.2.misshapen false) = false
      rw [hfst]
      rfl
    have hs₁ : s₁ = { s with
        world := { s.world with committed := s.world.working, calls := k }
        statement := some .commit } := by
      show (if bad then _ else run.2) = _
      rw [hbad, show run = _ from e]
      show Call.mk _ _ _ _ (s.err.note .commit (remap .ok) (some {}) false) _ _ = _
      rw [hok]
      rfl
    rw [hs₁] at hclean hquiet
    rw [hr₁, hbad, hfst, hs₁]
    refine .inl ⟨rfl, hclean.committed, hclean.counters, hclean.issue, fun hnf => ?_⟩
    obtain ⟨hres, herr, -⟩ := hquiet hnf
    refine ⟨?_, herr⟩
    show Result.first .ok (.ofExcept (closeStatement dbOps _).1) = .ok
    rw [hres]
    rfl

theorem rollback_db {remap : Result → Result} (hr : Faithful remap) (limits : Limits) (s : Call World I) :
    let r := command dbOps remap limits .rollback [] .rollback false true s
    (r.2.world.faulted = true ∧ r.2.world.committed = s.world.committed ∧
      s.world.counters.Le r.2.world.counters ∧ r.2.issue = s.issue) ∨
    (r.1.result = .ok ∧ r.1.replied = true ∧ Cleaned s r.2 ∧ r.2.err = s.err ∧ r.2.statement = none) := by
  have hok : remap .ok = .ok := (hr .ok).mpr rfl
  intro r
  rcases command_db hr limits (by decide : Sql.rollback ≠ .commit) [] .rollback false true s with
    ⟨-, hl⟩ | ⟨k, e⟩
  · exact .inl ⟨hl.faulted, hl.kept.committed, hl.kept.counters, hl.issue⟩
  refine .inr ?_
  rw [show r = _ from e]
  simp only [World.evaluate, hok, Execution.misshapen, Bool.false_and, Bool.or_false,
    Bool.and_false, Bool.false_eq_true, if_false, decide_true]
  exact ⟨trivial, trivial, ⟨rfl, rfl, rfl, id⟩, rfl, trivial⟩

theorem release_db (healthy : Bool) (rc : Result) (s : Call World I) :
    Cleaned s (releaseLease dbOps healthy rc s).2 ∧
      ((releaseLease dbOps healthy rc s).2.world.faulted = false →
        (releaseLease dbOps healthy rc s).1 = rc) := by
  unfold releaseLease
  split
  · cases hf : s.world.fault with
    | none =>
      unfold dbOps
      dsimp only
      rw [hf]
      exact ⟨⟨rfl, rfl, rfl, id⟩, fun _ => Result.first_ok rc⟩
    | some f =>
      unfold dbOps
      dsimp only
      rw [hf]
      exact ⟨⟨rfl, rfl, rfl, fun _ => rfl⟩, nofun⟩
  · exact ⟨.refl s, fun _ => rfl⟩

end Ends

end Vireo.Persistence
