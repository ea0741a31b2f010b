/-
  File:      Vireo/Persistence/Node/Hygiene.lean
  Subject:   WHAT A WRITE ENTRY LEAVES BEHIND, against arbitrary dependencies.
-/
import Vireo.Persistence.Node.Request
import Vireo.Persistence.Node.Session

namespace Vireo.Persistence.Node

open Lib Prog

variable {W α : Type}

/-! ## 1. The cleanup -/

/-- The state the cleanup starts from. -/
structure AtEnd (commit : Commit) (s : Call (W × List Event) Issue) : Prop where
  coherent : Coherent s
  lease : s.lease = leaseHeld (trace s)
  transaction : s.transaction = true ↔ Started .begin (trace s)
  connection : s.transaction = true → s.connection = true
  ended : Ended (commit = .committed) (commit = .unknown) (trace s)

theorem Commit.eq_notCommitted {commit : Commit} :
    commit = .notCommitted ↔ ¬ (commit = .committed ∨ commit = .unknown) := by
  cases commit <;> decide

/-- When ROLLBACK is tried. -/
def TriesRollback (commit : Commit) (s : Call (W × List Event) Issue) : Prop :=
  s.transaction = true ∧ commit = .notCommitted ∧ s.statement = none ∧ s.connection = true

section Cleanup

variable (ops : Ops W)

theorem rollbackWork_trace (commit : Commit) (rc : Result) (s : Call (W × List Event) Issue)
    (h : Coherent s) :
    let r := rollbackWork ops.traced commit rc s
    Coherent r.2 ∧ SameHeld s r.2 ∧ ∃ er, trace r.2 = trace s ++ er ∧
      Rolls writeLimits (TriesRollback commit s) er ∧ (r.1.2 = true → Replied .rollback er) := by
  intro r
  by_cases hc : TriesRollback commit s
  · let reply := writeCommand ops.traced .rollback [] .rollback false true s
    have hr : r = ((rc.first reply.1.result, reply.1.replied), reply.2) := if_pos hc
    obtain ⟨ev, hclose, hadds⟩ := writeCommand_adds ops .rollback [] .rollback true s
    obtain ⟨-, hreplied, -⟩ :=
      command_reply ops writeLimits .rollback [] .rollback false true s fun _ => noRange_ok
    rw [hr]
    refine ⟨coherent_writeCommand ops .rollback [] .rollback true (fun _ => rfl) s h,
      sameHeld_command ops.traced _ _ _ _ _ _ _ s, _, hadds.extends', ?_, fun hk => ?_⟩
    · exact rolls_command ops writeLimits hclose hc
    · exact (replied_command ops writeLimits .rollback [] hclose .rollback).mpr ⟨rfl, hreplied.mp hk⟩
  · have hr : r = ((rc, false), s) := if_neg hc
    rw [hr]
    exact ⟨h, ⟨rfl, rfl, rfl, rfl⟩, [], (List.append_nil _).symm, .inl ⟨rfl, hc⟩,
      fun hk => absurd hk Bool.false_ne_true⟩

theorem classify_rest (stages : List Stage) (rc : Result) (s : Call (W × List Event) Issue)
    (h : Coherent s) : let s' := classify stages rc s
    Coherent s' ∧ trace s' = trace s ∧ s'.lease = s.lease ∧ s'.connection = s.connection ∧
      s'.transaction = s.transaction := by
  rw [classify]
  split
  · exact ⟨{ h with }, rfl, rfl, rfl, rfl⟩
  · exact ⟨h, rfl, rfl, rfl, rfl⟩

/-- **The cleanup**: it closes, it rolls back when it has to, it gives the lease back. -/
theorem finish_trace (plan : Plan) (rc : Result) (commit : Commit) (value : α)
    (s : Call (W × List Event) Issue) (h : AtEnd commit s) :
    let o := finish ops.traced plan rc commit value s
    ∃ ec er el, o.world.2 = trace s ++ ec ++ er ++ el ∧ Closes ec ∧
      Rolls writeLimits (Started .begin (trace s) ∧ ¬ (commit = .committed ∨ commit = .unknown) ∧
        openStatement (trace s ++ ec) = false) er ∧
      Releases (commit = .committed ∨ Replied .rollback er) CleanupFine (trace s ++ ec ++ er) el ∧
      o.repo.statement.isSome = openStatement o.world.2 ∧ o.repo.lease = leaseHeld o.world.2 := by
  intro o
  let s₀ := classify plan.shapeStages rc s
  obtain ⟨hcoh₀, htr₀, hl₀, hc₀, ht₀⟩ := classify_rest plan.shapeStages rc s h.coherent
  let closed := closeStatement ops.traced s₀
  obtain ⟨ec, hec, hadds₁⟩ := closeStatement_adds ops s₀
  have htr₁ := hadds₁.extends'
  have hcoh₁ : Coherent closed.2 := ((inner ops).closeStatement s₀).coherent hcoh₀
  have hheld₁ : SameHeld s₀ closed.2 := sameHeld_closeStatement ops.traced s₀
  replace htr₁ : trace closed.2 = trace s ++ ec := by rw [← htr₀]; exact htr₁
  let rc₁ := rc.first (.ofExcept closed.1)
  let rolled := rollbackWork ops.traced commit rc₁ closed.2
  obtain ⟨hcoh₂, hheld₂, er, htr₂, her, hrep⟩ := rollbackWork_trace ops commit rc₁ closed.2 hcoh₁
  replace htr₂ : trace rolled.2 = trace s ++ ec ++ er := by rw [← htr₁]; exact htr₂
  have htries : TriesRollback commit closed.2 ↔ Started .begin (trace s) ∧ commit = .notCommitted ∧
      openStatement (trace s ++ ec) = false := by
    have hst : closed.2.statement = none ↔ openStatement (trace s ++ ec) = false := by
      rw [← htr₁, ← hcoh₁.statement]
      cases closed.2.statement <;> simp
    have ht : closed.2.transaction = s.transaction := hheld₁.transaction.trans ht₀
    have hc : closed.2.connection = s.connection := hheld₁.connection.trans hc₀
    unfold TriesRollback
    rw [ht, hc, h.transaction, hst]
    refine ⟨fun ⟨a, b, c, _⟩ => ⟨a, b, c⟩, fun ⟨a, b, c⟩ => ⟨a, b, c, ?_⟩⟩
    exact h.connection (h.transaction.mpr a)
  have hl₂ : rolled.2.lease = leaseHeld (trace rolled.2) := by
    have hle : rolled.2.lease = s.lease := hheld₂.lease.trans (hheld₁.lease.trans hl₀)
    rw [htr₂, leaseHeld_of_neutral her.neutral.1, leaseHeld_of_neutral, ← h.lease, hle]
    intro e he
    obtain ⟨q, o, rfl⟩ := hec e he
    exact fun _ => rfl
  let healthy := (decide (commit = .committed) || rolled.1.2) &&
    decide (rolled.2.err.cleanupResult = .ok) &&
    (decide (rolled.1.1 = .ok) || decide (rolled.1.1 = .notFound) ||
      plan.recyclable.contains rolled.2.issue)
  have hhealthy : healthy = true → (commit = .committed ∨ Replied .rollback er) ∧ CleanupFine (trace rolled.2) := by
    intro hk
    obtain ⟨he, hf⟩ := Bool.and_eq_true_iff.mp (Bool.and_eq_true_iff.mp hk).1
    exact ⟨(Bool.or_eq_true_iff.mp he).imp of_decide_eq_true hrep, hcoh₂.cleanup (of_decide_eq_true hf)⟩
  obtain ⟨⟨el, htr₃, hel⟩, hst, hlease, -, -⟩ :=
    releaseLease_trace ops rolled.2 healthy rolled.1.1 hcoh₂.statement hl₂ hhealthy
  rw [htr₂] at hel
  replace htr₃ : o.world.2 = trace s ++ ec ++ er ++ el := by rw [← htr₂]; exact htr₃
  refine ⟨ec, er, el, htr₃, hec, ?_, hel, hst, hlease⟩
  rw [← Commit.eq_notCommitted, ← htries]
  exact her

end Cleanup

/-! ## 2. What a call leaves -/

/-- **The hygiene of a write**, read off the whole trace of the call. -/
structure Hygiene [Inhabited α] (repo : Repo) (recovered : α → Prop)
    (o : Outcome (W × List Event) α) : Prop where
  /-- COMMITTED iff the complete success reply of COMMIT was received -/
  committed : o.report.commit = .committed ↔ Replied .commit o.world.2
  /-- UNKNOWN iff the execution of COMMIT started without that reply -/
  unknown : o.report.commit = .unknown ↔ Started .commit o.world.2 ∧ ¬ Replied .commit o.world.2
  /-- ROLLBACK is attempted iff the transaction may have started and no statement is open -/
  rollback : o.report.commit = .notCommitted → ¬ Started .commit o.world.2 ∧
    (Attempted .rollback o.world.2 ↔ Started .begin o.world.2 ∧ openStatement (beforeEnd o.world.2) = false)
  /-- nothing follows a COMMIT of unknown outcome -/
  last : o.report.commit = .unknown → CommitLast o.world.2 ∧ ¬ Attempted .rollback o.world.2
  /-- the lease is given back with no open statement, for further use only after a confirmed end -/
  release : ∀ pre d r post, o.world.2 = pre ++ .released d r :: post →
    openStatement pre = false ∧ (d = .recycle → (Replied .commit pre ∨ Replied .rollback pre) ∧ CleanupFine pre)
  /-- what is left is reported -/
  pending : o.report.cleanupPending =
      (o.world.2.foldl Event.opens repo.statement.isSome || o.world.2.foldl Event.leases repo.lease) ∧
    o.repo.pending = o.report.cleanupPending
  /-- nothing is published that was not committed or recovered -/
  published : o.report.value ≠ default → o.report.commit = .committed ∨ recovered o.report.value

theorem samples_rolls {limits : Limits} {due : Prop} {er : List Event} (h : Rolls limits due er) : samples er = [] := by
  rcases h with ⟨rfl, -⟩ | ⟨-, o, ev, rfl, hev⟩
  · rfl
  · refine List.filterMap_eq_nil_iff.mpr (List.forall_mem_cons.mpr ⟨rfl, fun e he => ?_⟩)
    rcases hev e he with ⟨x, rfl⟩ | ⟨q, o, rfl⟩ <;> rfl

theorem samples_releases {ended : Prop} {fine : List Event → Prop} {before el : List Event}
    (h : Releases ended fine before el) : samples el = [] := by
  rcases h with rfl | ⟨d, r, rfl, -⟩ <;> rfl

section Leaves

variable [Inhabited α] (ops : Ops W)

theorem hygiene_finish (plan : Plan) (rc : Result) (commit : Commit) (value : α)
    (s : Call (W × List Event) Issue) (h : AtEnd commit s) {recovered : α → Prop}
    (hv : value ≠ default → commit = .committed ∨ recovered value) {repo : Repo}
    (hp : repo.pending = false) :
    Hygiene repo recovered (finish ops.traced plan rc commit value s) := by
  obtain ⟨ec, er, el, htr, hec, her, hel, hst, hlease⟩ :=
    finish_trace ops plan rc commit value s h
  have facts := endFacts h.ended htr hec her hel
  refine ⟨facts.replied, facts.started, fun hk => facts.rollback (Commit.eq_notCommitted.mp hk),
    fun hk => facts.last (.inr hk), facts.release, ⟨?_, rfl⟩, hv⟩
  obtain ⟨hs₀, hl₀⟩ := Bool.or_eq_false_iff.mp hp
  rw [hs₀, hl₀]
  show (finish ops.traced plan rc commit value s).repo.pending = _
  unfold Repo.pending
  rw [hst, hlease]
  rfl

end Leaves

/-! ## 3. From COMMIT to the cleanup -/

variable {s : Call (W × List Event) Issue}

theorem Pre.atEnd (h : Pre s) : AtEnd .notCommitted s :=
  { h with ended := ended_of_early h.early nofun nofun }

/-- The commit fact of a reply. -/
def commitFact (reply : CommandReply) : Commit :=
  if reply.replied then .committed else if reply.execution.started then .unknown else .notCommitted

variable {reply : CommandReply}

theorem commitFact_committed : commitFact reply = .committed ↔ reply.replied = true := by
  unfold commitFact
  cases reply.replied <;> cases reply.execution.started <;> decide

theorem commitFact_unknown :
    commitFact reply = .unknown ↔ reply.execution.started = true ∧ reply.replied = false := by
  unfold commitFact
  cases reply.replied <;> cases reply.execution.started <;> decide

theorem Pre.atEnd_commit (ops : Ops W) (h : Pre s) :
    let r := writeCommand ops.traced .commit [] .commit false false s
    AtEnd (commitFact r.1) r.2 := by
  intro r
  have hheld : SameHeld s r.2 :=
    sameHeld_command ops.traced Result.noRange writeLimits .commit [] .commit false false s
  obtain ⟨ev, hc, hadds⟩ := writeCommand_adds ops .commit [] .commit false s
  obtain ⟨hended, hbegan⟩ := ended_commit ops s (fun _ => noRange_ok) writeLimits h.early
  refine ⟨coherent_writeCommand ops .commit [] .commit false nofun s h.coherent,
    hadds.leases (command_leases ops writeLimits _ _ hc) h.lease, ?_, ?_, ?_⟩
  · rw [hheld.transaction, h.transaction]
    exact hbegan.symm
  · rw [hheld.transaction, hheld.connection]
    exact h.connection
  · rw [commitFact_committed, commitFact_unknown]
    exact hended

section Entry

variable [Inhabited α] (ops : Ops W) {work : Window → NodeStep (W × List Event) (Settled α)}
  {recovered : α → Prop}

theorem hygiene_commitWork (plan : Plan) (value : α) {s : Call (W × List Event) Issue} (h : Pre s)
    (recovered : α → Prop) {repo : Repo} (hp : repo.pending = false) :
    Hygiene repo recovered (commitWork ops.traced plan value s) := by
  have hend := h.atEnd_commit ops
  unfold commitWork
  dsimp only at hend ⊢
  generalize writeCommand ops.traced .commit [] .commit false false s = reply at hend ⊢
  unfold commitFact at hend
  by_cases hr : reply.1.replied = true
  · rw [if_pos hr] at hend ⊢
    exact hygiene_finish ops plan _ _ _ _ hend (fun _ => .inl rfl) hp
  · rw [if_neg hr] at hend ⊢
    by_cases hs : reply.1.execution.started = true
    · rw [if_pos hs] at hend ⊢
      exact hygiene_finish ops plan _ _ _ _ hend (fun hv => absurd rfl hv) hp
    · rw [if_neg hs] at hend ⊢
      exact hygiene_finish ops plan _ _ _ _ hend (fun hv => absurd rfl hv) hp

theorem hygiene_transact (plan : Plan) (timeout : UInt32) (actor : Actor)
    (hw : ∀ win, Sound win recovered (work win)) (repo : Repo) (hp : repo.pending = false) (w : W) :
    Hygiene repo recovered (transact ops.traced plan timeout actor work (Call.enter repo (w, []))) := by
  have hpre := wp_prepareCommit ops plan timeout actor hw repo hp w
  unfold Prog.wp at hpre
  unfold transact
  split at hpre
  · rename_i r s e
    rw [e]
    obtain ⟨hs, hr⟩ := hpre
    cases r with
    | recovered a => exact hygiene_finish ops plan _ _ _ _ hs.pre.atEnd (fun _ => .inr (hr a rfl)) hp
    | ready a => exact hygiene_commitWork ops plan a hs.pre recovered hp
  · rename_i f s e
    rw [e]
    have hs : Pre s := hpre.elim Refused.pre Halted.pre
    exact hygiene_finish ops plan _ _ _ _ hs.atEnd (fun hv => absurd rfl hv) hp

theorem hygiene_refuse (rc : Result) (repo : Repo) (w : W) (recovered : α → Prop) :
    Hygiene repo recovered (refuse rc repo (w, []) : Outcome (W × List Event) α) := by
  have hs : ∀ sql, ¬ Started sql ([] : List Event) := fun _ ⟨_, _, h, _⟩ => (List.not_mem_nil h).elim
  have hr : ∀ sql, ¬ Replied sql ([] : List Event) := fun _ ⟨_, _, h, _⟩ => (List.not_mem_nil h).elim
  refine ⟨⟨nofun, fun h => absurd h (hr _)⟩,
    ⟨nofun, fun h => absurd h.1 (hs _)⟩, fun _ => ⟨hs _, ?_⟩, nofun, ?_,
    ⟨rfl, rfl⟩, fun h => absurd rfl h⟩
  · exact ⟨fun ⟨_, _, h⟩ => (List.not_mem_nil h).elim, fun h => absurd h.1 (hs _)⟩
  · intro pre d r post e
    exact absurd e.symm (List.append_ne_nil_of_right_ne_nil _ (List.cons_ne_nil _ _))

theorem hygiene_writeEntry (plan : Plan) (check : Result) (timeout : UInt32) (actor : Actor)
    (hw : ∀ win, Sound win recovered (work win)) (repo : Repo) (w : W) :
    Hygiene repo recovered (writeEntry ops.traced plan check timeout actor work repo (w, [])) := by
  unfold writeEntry
  split
  · exact hygiene_refuse .busy repo w recovered
  rename_i hp
  split
  · exact hygiene_transact ops plan timeout actor hw repo (Bool.not_eq_true _ ▸ hp) w
  · exact hygiene_refuse check repo w recovered

end Entry

/-! ## 4. The six entries -/

theorem Hygiene.map {β : Type} [Inhabited α] [Inhabited β] {repo : Repo} {recovered : α → Prop}
    {o : Outcome (W × List Event) α} (h : Hygiene repo recovered o) (f : α → β)
    (hf : f default = default) {recovered' : β → Prop} (hr : ∀ a, recovered a → recovered' (f a)) :
    Hygiene repo recovered' (o.map f) := by
  refine { h with published := fun hv => ?_ }
  refine (h.published fun e => hv ?_).imp_right (hr _)
  show f o.report.value = default
  rw [e, hf]

/-- **The hygiene of the write entries.** For every entry, input, repository and sequence of outcomes what is
    reported, rolled back, released and published is what the trace shows, and while something is left every
    later call is BUSY. -/
theorem write_hygiene (ops : Ops W) (c : WriteCall) (actor : Actor) (timeout : UInt32) (repo : Repo) (w : W) :
    let o := c.run ops.traced actor timeout repo (w, [])
    Hygiene repo (fun v => v.effect = .recovered) o ∧
      ∀ (later : BusinessCall) (actor' : Actor) (timeout' : UInt32) (w' : W),
        o.report.cleanupPending = true → later.run ops actor' timeout' o.repo w' = (.busy, o.repo, w') := by
  intro o
  have h : Hygiene repo (fun v => v.effect = .recovered) o := by
    cases c with
    | mkdir i =>
      exact (hygiene_writeEntry ops mkdirPlan _ timeout actor
        (fun win => (soundRules ops win fun _ => False).mkdirWork i) repo w).map _ rfl fun _ h => h.elim
    | mkdirOnce i =>
      exact (hygiene_writeEntry ops mkdirOncePlan _ timeout actor
        (fun win => (soundRules ops win _).mkdirOnceWork i) repo w).map _ rfl fun _ h => h
    | move i =>
      exact (hygiene_writeEntry ops movePlan _ timeout actor
        (fun win => (soundRules ops win fun _ => False).moveWork i) repo w).map _ rfl fun _ h => h.elim
    | moveOnce i =>
      exact (hygiene_writeEntry ops moveOncePlan _ timeout actor
        (fun win => (soundRules ops win _).moveOnceWork i) repo w).map _ rfl fun _ h => h
    | softDelete i =>
      exact (hygiene_writeEntry ops softDeletePlan _ timeout actor
        (fun win => (soundRules ops win fun _ => False).softDeleteWork i) repo w).map _ rfl fun _ h => h.elim
    | softDeleteOnce i =>
      exact (hygiene_writeEntry ops softDeleteOncePlan _ timeout actor
        (fun win => (soundRules ops win _).softDeleteOnceWork i) repo w).map _ rfl fun _ h => h
  refine ⟨h, fun later actor' timeout' w' hp => ?_⟩
  exact later.run_busy ops actor' timeout' (h.pending.2.trans hp) w'

end Vireo.Persistence.Node
