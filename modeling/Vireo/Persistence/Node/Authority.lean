/-
  File:      Vireo/Persistence/Node/Authority.lean
  Subject:   NO WRITE WITHOUT A LIVE SESSION, against arbitrary dependencies.
-/
import Vireo.Persistence.Node.Hygiene

namespace Vireo.Persistence.Node

open Lib Prog

variable {W α : Type}

/-! ## 1. Authorised outcomes -/

/-- The issues that speak of the tree, of an object or of an idempotency key. -/
def Issue.Domain : Issue → Prop
  | .none | .authRejected | .unexpectedResult | .receiptInvalid => False
  | _ => True

instance (i : Issue) : Decidable i.Domain := by
  cases i <;> first | exact isTrue trivial | exact isFalse id

/-- The session was live: the rows of user and session, and every clock sample inside the window. -/
def Live (tr : List Event) (actor : Actor) : Prop :=
  ∃ win, Locked tr actor win ∧ samples tr ≠ [] ∧ AllIn win (samples tr)

/-- COMMIT was executed, a receipt returned, or something said about the tree. -/
def Spoke (recovered : α → Prop) (o : Outcome (W × List Event) α) : Prop :=
  (∃ e ∈ o.world.2, e.Runs .commit) ∨ recovered o.report.value ∨ o.report.issue.Domain

/-- **What the trace of an authorised call shows.** -/
structure Authorised [Inhabited α] (actor : Actor) (recovered : α → Prop)
    (o : Outcome (W × List Event) α) : Prop where
  /-- nothing is committed, returned or said before the clock was read -/
  sampled : Spoke recovered o → samples o.world.2 ≠ []
  /-- once the clock was read, user and session were locked, with the window of that session: who speaks was
      inside it at every sample, who was outside is told only that he is not authorised -/
  window : samples o.world.2 ≠ [] → ∃ win, Locked o.world.2 actor win ∧
    (Spoke recovered o → AllIn win (samples o.world.2)) ∧
    ((∃ u ∈ samples o.world.2, ∃ now, u.millis = .ok now ∧ ¬ win.Contains now) →
      o.result = .notFound ∧ o.report.issue = .authRejected ∧ o.report.commit = .notCommitted ∧
        o.report.value = default ∧ ∀ e ∈ o.world.2, ¬ e.Runs .commit)

/-! ## 2. The cleanup says nothing new -/

section Finish

variable (ops : Ops W) {rc : Result}

theorem rollbackWork_result (commit : Commit) (hrc : rc ≠ .ok) (s : Call (W × List Event) Issue) :
    (rollbackWork ops.traced commit rc s).1.1 = rc := by
  unfold rollbackWork
  split
  · exact if_neg hrc
  · rfl

theorem releaseLease_result (healthy : Bool) (hrc : rc ≠ .ok) (s : Call (W × List Event) Issue) :
    (releaseLease ops.traced healthy rc s).1 = rc := by
  unfold releaseLease
  split
  · exact if_neg hrc
  · rfl

theorem finish_result (plan : Plan) (hrc : rc ≠ .ok) (commit : Commit) (value : α)
    (s : Call (W × List Event) Issue) :
    (finish ops.traced plan rc commit value s).result = rc := by
  let s₀ := classify plan.shapeStages rc s
  have hfirst : rc.first (.ofExcept (closeStatement ops.traced s₀).1) = rc := if_neg hrc
  have hroll := rollbackWork_result ops commit hrc (closeStatement ops.traced s₀).2
  show (releaseLease ops.traced _ (rollbackWork ops.traced commit
    (rc.first (.ofExcept (closeStatement ops.traced s₀).1)) _).1.1 _).1 = rc
  rw [hfirst, hroll]
  exact releaseLease_result ops _ hrc _

theorem classify_issue (stages : List Stage) (rc : Result) (s : Call (W × List Event) Issue) :
    (classify stages rc s).issue = s.issue ∨
      (s.issue = .none ∧ (classify stages rc s).issue = .unexpectedResult) := by
  unfold classify
  split
  · rename_i hc
    exact .inr ⟨hc.2.1, rfl⟩
  · exact .inl rfl

/-- The issue is the one that was raised, or that of an unexpected result where none was. -/
theorem finish_issue (plan : Plan) (rc : Result) (commit : Commit) (value : α)
    (s : Call (W × List Event) Issue) (h : AtEnd commit s) :
    let o := finish ops.traced plan rc commit value s
    o.report.issue = s.issue ∨ (s.issue = .none ∧ o.report.issue = .unexpectedResult) := by
  intro o
  let s₀ := classify plan.shapeStages rc s
  let closed := closeStatement ops.traced s₀
  let rolled := rollbackWork ops.traced commit (rc.first (.ofExcept closed.1)) closed.2
  have hcoh₁ : Coherent closed.2 :=
    ((inner ops).closeStatement s₀).coherent (classify_rest plan.shapeStages rc s h.coherent).1
  have h₁ : closed.2.issue = s₀.issue := (sameHeld_closeStatement ops.traced s₀).issue
  have h₂ : rolled.2.issue = closed.2.issue :=
    (rollbackWork_trace ops commit _ closed.2 hcoh₁).2.1.issue
  have h₃ : o.report.issue = rolled.2.issue := by
    show (releaseLease ops.traced _ _ rolled.2).2.issue = _
    unfold releaseLease
    split <;> rfl
  rw [h₃, h₂, h₁]
  exact classify_issue plan.shapeStages rc s

theorem finish_extends (plan : Plan) (rc : Result) (commit : Commit) (value : α)
    (s : Call (W × List Event) Issue) (h : AtEnd commit s) :
    ∃ ev, (finish ops.traced plan rc commit value s).world.2 = trace s ++ ev ∧ samples ev = [] ∧
      ∀ e ∈ ev, ¬ e.Runs .commit := by
  obtain ⟨ec, er, el, htr, hec, her, hel, -⟩ := finish_trace ops plan rc commit value s h
  refine ⟨ec ++ er ++ el, by simp only [htr, List.append_assoc], ?_, ?_⟩
  · rw [samples_append, samples_append, samples_of_inner hec.inner, samples_rolls her, samples_releases hel]
    rfl
  · intro e he
    rcases List.mem_append.mp he with he | he
    · rcases List.mem_append.mp he with he | he
      · exact (hec.neutral e he).2.2 _
      · exact her.neutral.2.1 e he _ (by decide)
    · exact (hel.neutral e he).2 _

end Finish

/-! ## 3. Calls -/

section Calls

variable [Inhabited α] (ops : Ops W) {actor : Actor} {recovered : α → Prop} {s : Call (W × List Event) Issue}

theorem authorised_live (plan : Plan) (rc : Result) (commit : Commit) (value : α) (h : AtEnd commit s)
    (hl : Live (trace s) actor) :
    Authorised actor recovered (finish ops.traced plan rc commit value s) := by
  obtain ⟨ev, e, hev, -⟩ := finish_extends ops plan rc commit value s h
  obtain ⟨win, hlock, hne, hin⟩ := hl
  have hs : samples (finish ops.traced plan rc commit value s).world.2 = samples (trace s) := by
    rw [e, samples_append, hev, List.append_nil]
  refine ⟨fun _ => hs ▸ hne, fun _ => ⟨win, e ▸ hlock.mono, fun _ => hs ▸ hin, ?_⟩⟩
  rintro ⟨u, hu, now, hm, hout⟩
  exact absurd (hin.noneOut u (hs ▸ hu) now hm) hout

/-- A call that failed before COMMIT: it was rejected, or its session was live, or it says nothing. -/
theorem authorised_failed (plan : Plan) (f : Failure) (h : Refused f s ∨ Halted actor f s)
    (hd : ¬ recovered default) :
    Authorised actor recovered (finish ops.traced plan f.val .notCommitted default s) := by
  have hpre : Pre s := h.elim Refused.pre Halted.pre
  have hend := hpre.atEnd
  obtain ⟨ev, e, hev, hno⟩ := finish_extends ops plan f.val .notCommitted (default : α) s hend
  have hs : samples (finish ops.traced plan f.val .notCommitted (default : α) s).world.2 =
      samples (trace s) := by
    rw [e, samples_append, hev, List.append_nil]
  have hcommit : ∀ x ∈ (finish ops.traced plan f.val .notCommitted (default : α) s).world.2,
      ¬ x.Runs .commit := by
    rw [e]
    exact List.forall_mem_append.mpr ⟨fun x hx => (early_neutral hpre.early x hx).2, hno⟩
  have hissue := finish_issue ops plan f.val .notCommitted (default : α) s hend
  -- without a verdict about the tree in the state, the report has none either
  have hquiet : ¬ s.issue.Domain →
      ¬ Spoke recovered (finish ops.traced plan f.val .notCommitted (default : α) s) := by
    rintro hnd (⟨x, hx, hr⟩ | hr | hr)
    · exact hcommit x hx hr
    · exact hd hr
    rcases hissue with hi | ⟨-, hi⟩
    · exact hnd (hi ▸ hr)
    · rw [hi] at hr
      exact hr
  have hnoverdict : NoVerdict s → ¬ s.issue.Domain := by
    rintro (hi | hi) <;> rw [hi] <;> exact id
  rcases h with h | h
  · have hnd : ¬ s.issue.Domain := by
      rcases h.cause with hi | ⟨hi, -⟩
      · exact hnoverdict hi
      · rw [hi]
        exact id
    refine ⟨fun hsp => absurd hsp (hquiet hnd), fun hne => ?_⟩
    rw [hs, h.unsampled] at hne
    exact absurd rfl hne
  · obtain ⟨win, hlock, hcause⟩ := h.window
    rcases hcause with ⟨hi, rfl⟩ | ⟨hne, hin⟩ | ⟨hnv, hnone⟩
    · have hnd : ¬ s.issue.Domain := by rw [hi]; exact id
      refine ⟨fun hsp => absurd hsp (hquiet hnd), fun _ => ⟨win, e ▸ hlock.mono,
        fun hsp => absurd hsp (hquiet hnd), fun _ => ⟨?_, ?_, rfl, rfl, hcommit⟩⟩⟩
      · exact finish_result ops plan (by decide) _ _ s
      rcases hissue with hk | ⟨hk, -⟩
      · exact hk.trans hi
      · exact absurd (hi.symm.trans hk) (by decide)
    · exact authorised_live ops plan _ _ _ hend ⟨win, hlock, hne, hin⟩
    · have hnd := hnoverdict hnv
      refine ⟨fun hsp => absurd hsp (hquiet hnd), fun _ => ⟨win, e ▸ hlock.mono,
        fun hsp => absurd hsp (hquiet hnd), ?_⟩⟩
      rintro ⟨u, hu, now, hm, hout⟩
      exact absurd (hnone u (hs ▸ hu) now hm) hout

theorem Live.commit (h : Live (trace s) actor) :
    Live (trace (writeCommand ops.traced .commit [] .commit false false s).2) actor := by
  obtain ⟨win, hlock, hne, hin⟩ := h
  obtain ⟨ev, hc, hadds⟩ := writeCommand_adds ops .commit [] .commit false s
  rw [hadds.extends']
  unfold Live
  rw [samples_append, command_samples ops writeLimits _ _ hc, List.append_nil]
  exact ⟨win, hlock.mono, hne, hin⟩

theorem authorised_commitWork (plan : Plan) (value : α) (h : AtCommit actor s) :
    Authorised actor recovered (commitWork ops.traced plan value s) := by
  have hend := h.pre.atEnd_commit ops
  have hlive : Live (trace s) actor := h.window
  replace hlive := hlive.commit ops
  unfold commitWork
  dsimp only at hend ⊢
  generalize writeCommand ops.traced .commit [] .commit false false s = reply at hend hlive ⊢
  unfold commitFact at hend
  by_cases hr : reply.1.replied = true
  · rw [if_pos hr] at hend ⊢
    exact authorised_live ops plan _ _ _ hend hlive
  · rw [if_neg hr] at hend ⊢
    by_cases hs : reply.1.execution.started = true
    · rw [if_pos hs] at hend ⊢
      exact authorised_live ops plan _ _ _ hend hlive
    · rw [if_neg hs] at hend ⊢
      exact authorised_live ops plan _ _ _ hend hlive

theorem authorised_refuse (rc : Result) (repo : Repo) (w : W) (hd : ¬ recovered default) :
    Authorised actor recovered (refuse rc repo (w, []) : Outcome (W × List Event) α) := by
  refine ⟨fun hs => ?_, fun hne => absurd rfl hne⟩
  rcases hs with ⟨x, hx, -⟩ | hr | hr
  · exact (List.not_mem_nil hx).elim
  · exact absurd hr hd
  · exact hr.elim

theorem authorised_writeEntry (plan : Plan) (check : Result) (timeout : UInt32)
    {work : Window → NodeStep (W × List Event) (Settled α)}
    (hw : ∀ win, Sound win recovered (work win)) (hd : ¬ recovered default) (repo : Repo) (w : W) :
    Authorised actor recovered (writeEntry ops.traced plan check timeout actor work repo (w, [])) := by
  unfold writeEntry
  split
  · exact authorised_refuse .busy repo w hd
  rename_i hp
  split
  · have hpre := wp_prepareCommit ops plan timeout actor hw repo (Bool.not_eq_true _ ▸ hp) w
    unfold Prog.wp at hpre
    unfold transact
    split at hpre
    · rename_i r s e
      rw [e]
      cases r with
      | recovered a => exact authorised_live ops plan _ _ _ hpre.1.pre.atEnd hpre.1.window
      | ready a => exact authorised_commitWork ops plan a hpre.1
    · rename_i f s e
      rw [e]
      exact authorised_failed ops plan f hpre hd
  · exact authorised_refuse check repo w hd

theorem Authorised.map {β : Type} [Inhabited β] {o : Outcome (W × List Event) α}
    (h : Authorised actor recovered o) (f : α → β) (hf : f default = default)
    {recovered' : β → Prop} (hr : ∀ a, recovered' (f a) → recovered a) :
    Authorised actor recovered' (o.map f) := by
  have hsp : Spoke recovered' (o.map f) → Spoke recovered o :=
    Or.imp_right (Or.imp_left (hr _))
  refine ⟨fun hs => h.sampled (hsp hs), fun hne => ?_⟩
  obtain ⟨win, hlock, hin, hout⟩ := h.window hne
  refine ⟨win, hlock, fun hs => hin (hsp hs), fun hu => ?_⟩
  obtain ⟨h₁, h₂, h₃, h₄, h₅⟩ := hout hu
  exact ⟨h₁, h₂, h₃, (congrArg f h₄).trans hf, h₅⟩

end Calls

/-- **No write without a live session.** For every write entry, input, repository and sequence of outcomes: a
    COMMIT, a receipt recovered or a verdict about the tree comes after the active user row, the unrevoked
    session row and clock samples inside its window. -/
theorem write_authorised (ops : Ops W) (c : WriteCall) (actor : Actor) (timeout : UInt32)
    (repo : Repo) (w : W) :
    Authorised actor (fun v => v.effect = .recovered)
      (c.run ops.traced actor timeout repo (w, [])) := by
  have hnone : Effect.none ≠ .recovered := by decide
  cases c with
  | mkdir i =>
    exact (authorised_writeEntry ops mkdirPlan _ timeout
      (fun win => (soundRules ops win _).mkdirWork i) id repo w).map _ rfl
      fun _ h => hnone h
  | mkdirOnce i =>
    exact (authorised_writeEntry ops mkdirOncePlan _ timeout
      (fun win => (soundRules ops win _).mkdirOnceWork i) hnone repo w).map _ rfl fun _ h => h
  | move i =>
    exact (authorised_writeEntry ops movePlan _ timeout
      (fun win => (soundRules ops win _).moveWork i) id repo w).map _ rfl
      fun _ h => hnone h
  | moveOnce i =>
    exact (authorised_writeEntry ops moveOncePlan _ timeout
      (fun win => (soundRules ops win _).moveOnceWork i) hnone repo w).map _ rfl fun _ h => h
  | softDelete i =>
    exact (authorised_writeEntry ops softDeletePlan _ timeout
      (fun win => (soundRules ops win _).softDeleteWork i) id repo w).map _ rfl
      fun _ h => hnone h
  | softDeleteOnce i =>
    exact (authorised_writeEntry ops softDeleteOncePlan _ timeout
      (fun win => (soundRules ops win _).softDeleteOnceWork i) hnone repo w).map _ rfl fun _ h => h

end Vireo.Persistence.Node
