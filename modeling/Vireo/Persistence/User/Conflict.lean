/-
  File:      Vireo/Persistence/User/Conflict.lean
  Subject:   THE CONFLICT OF A REGISTRATION, and all that the transactions of an account report.
-/
import Vireo.Persistence.User.Facts

namespace Vireo.Persistence.User

open Lib Prog List

variable {W I α : Type} {sql : Sql} {ev : List Event}

/-! ## 1. Taken keys -/

/-- The execution of `sql` failed with the duplicate-key code. -/
def Duplicated (sql : Sql) (tr : List Event) : Prop :=
  ∃ params x, Event.executed sql params x ∈ tr ∧ x.result ≠ .ok ∧ TakenKey x.error

/-- A `prepare` notes no failed execution: its errors are of other steps (`vireo_mysql_statement_prepare`). -/
def PreparesApart (ops : Ops W) : Prop := ∀ sql limits w, (ops.prepare sql limits w).1.error.stage ≠ .execute

variable {tr : List Event}

theorem duplicated_append : Duplicated sql (tr ++ ev) ↔ Duplicated sql tr ∨ Duplicated sql ev := by
  simp only [Duplicated, mem_append, or_and_right, exists_or]

theorem not_duplicated (h : ∀ e ∈ ev, ¬ e.Runs sql) : ¬ Duplicated sql ev :=
  fun ⟨_, _, hm, _⟩ => h _ hm rfl

variable {s : Call (W × List Event) I} {params : List Param}

theorem duplicated_command (ops : Ops W) (hc : Closes ev) (q : Sql) :
    Duplicated q (commandEvents ops writeLimits sql params s ++ ev) ↔ q = sql ∧ (preparedBy ops writeLimits sql s).result = .ok ∧
      (executedBy ops writeLimits sql params s).result ≠ .ok ∧ TakenKey (executedBy ops writeLimits sql params s).error := by
  constructor
  · rintro ⟨ps, x, hm, hx⟩
    obtain ⟨rfl, rfl, rfl, ho⟩ := (executed_command ops _ _ _ hc).mp hm
    exact ⟨rfl, ho, hx⟩
  · rintro ⟨rfl, ho, hx⟩
    exact ⟨params, _, (executed_command ops _ _ _ hc).mpr ⟨rfl, rfl, rfl, ho⟩, hx⟩

/-! ## 2. Inserts -/

/-- Nothing has failed, and nothing was said. -/
structure Clear [Inhabited I] (s : Call (W × List Event) I) : Prop where
  err : s.err = {}
  issue : s.issue = default
  unshown : ∀ q, ¬ Duplicated q (trace s)

section Inserts

variable [Inhabited I] (ops : Ops W) (hprep : PreparesApart ops) {s : Call (W × List Event) I} {sql : Sql}
  {params : List Param} {stage : Stage}

/-- A command that fails after nothing else has: its taken key is the only one, and the one that is noted. -/
structure Blamed (sql : Sql) (stage : Stage) (s : Call (W × List Event) I) : Prop where
  issue : s.issue = default
  noted : stage ≠ .statementClose → (duplicateAt s.err stage = true ↔ Duplicated sql (trace s))
  others : ∀ q, q ≠ sql → ¬ Duplicated q (trace s)

include hprep

/-- **A command** after nothing has failed: clear again when it succeeds, else to blame. -/
theorem userCommand_told (sql : Sql) (params : List Param) (stage : Stage) (h : Clear s) (insert : Bool) :
    let r := userCommand ops.traced sql params stage insert false s
    (r.1.result = .ok → Clear r.2 ∧ (insert = true → r.1.execution.insertId ≠ 0)) ∧
      (r.1.result ≠ .ok → Blamed sql stage r.2) := by
  intro r
  obtain ⟨ev, hc, hadds⟩ := userCommand_adds ops sql params stage insert false s
  obtain ⟨hex, hreplied, hok⟩ := command_reply ops writeLimits sql params stage insert false s fun _ => .rfl
  obtain ⟨hclean, hnoted⟩ := userCommand_err ops sql params stage insert false s h.err
  have hissue : r.2.issue = s.issue := (sameHeld_command ops.traced id writeLimits sql params stage insert false s).issue
  have hshown : ∀ q, Duplicated q (trace r.2) ↔ q = sql ∧ (preparedBy ops writeLimits sql s).result = .ok ∧
      (executedBy ops writeLimits sql params s).result ≠ .ok ∧ TakenKey (executedBy ops writeLimits sql params s).error := by
    intro q
    rw [show trace r.2 = _ from hadds.extends', duplicated_append, duplicated_command ops hc q]
    exact or_iff_right (h.unshown q)
  refine ⟨fun hrc => ?_, fun _ => ?_⟩
  · have hanswered := hreplied.mp (hok hrc)
    refine ⟨⟨hclean hrc, hissue.trans h.issue, fun q hq => ?_⟩, fun hinsert => ?_⟩
    · exact ((hshown q).mp hq).2.2.1 hanswered.2.1
    rw [show r.1.execution = _ from hex, if_pos hanswered.1]
    intro hzero
    have hshape := hanswered.2.2
    rw [hinsert] at hshape
    simp [Execution.misshapen, hzero] at hshape
  · refine ⟨hissue.trans h.issue, fun hstage => ?_, fun q hq hd => hq ((hshown q).mp hd).1⟩
    rw [hnoted hstage, hshown]
    constructor
    · rintro (⟨-, htaken⟩ | hdup)
      · exact absurd htaken.1 (hprep _ _ _)
      · exact ⟨rfl, hdup⟩
    · exact fun hd => .inr hd.2

theorem wp_commanding_told (h : Clear s) (insert : Bool) :
    wp (commanding ops.traced sql params stage insert)
      (fun ex s' => Clear s' ∧ (insert = true → ex.insertId ≠ 0)) (fun _ s' => Blamed sql stage s') s := by
  obtain ⟨hok, hfailed⟩ := userCommand_told ops hprep sql params stage h insert
  exact wp_ran_pure hok hfailed rfl

theorem wp_insertRow_told (h : Clear s) :
    wp (insertRow ops.traced sql params stage) (fun id s' => Clear s' ∧ id ≠ 0) (fun _ s' => Blamed sql stage s') s := by
  refine wp_bind.mpr (wp_mono (wp_commanding_told ops hprep h true) ?_ (fun _ _ h => h))
  rintro ex s₁ ⟨h₁, hid⟩
  exact wp_pure.mpr ⟨h₁, hid rfl⟩

/-- **An insert under a unique key** reports the conflict exactly when its execution shows it. -/
theorem wp_insertUnique_told (hstage : stage ≠ .statementClose) (h : Clear s) (conflict : I) :
    wp (insertUnique ops.traced sql params stage conflict) (fun id s' => Clear s' ∧ id ≠ 0)
      (fun _ s' => ((s'.issue = conflict ∧ Duplicated sql (trace s')) ∨
        (s'.issue = default ∧ ¬ Duplicated sql (trace s'))) ∧ ∀ q, q ≠ sql → ¬ Duplicated q (trace s')) s := by
  refine wp_onError.mpr (wp_mono (wp_insertRow_told ops hprep h) (fun _ _ h => h) fun _ s₁ h₁ => ?_)
  by_cases hd : duplicateAt s₁.err stage = true
  · rw [if_pos hd]
    exact ⟨.inl ⟨rfl, (h₁.noted hstage).mp hd⟩, h₁.others⟩
  · rw [if_neg hd]
    exact ⟨.inr ⟨h₁.issue, fun hshown => hd ((h₁.noted hstage).mpr hshown)⟩, h₁.others⟩

end Inserts

/-! ## 3. A registration -/

/-- The conflict is that of the trace. -/
structure Told (conflict : RegistrationConflict) (tr : List Event) : Prop where
  username : conflict = .usernameConflict ↔ Duplicated .insertUser tr
  request : conflict = .requestConflict ↔ Duplicated .insertRegisterAudit tr

/-- An event that inserts neither user nor audit. -/
def Aside (e : Event) : Prop := ¬ e.Runs .insertUser ∧ ¬ e.Runs .insertRegisterAudit

theorem told_none (hu : ¬ Duplicated .insertUser tr) (ha : ¬ Duplicated .insertRegisterAudit tr) :
    Told .none tr := ⟨by simp [hu], by simp [ha]⟩

theorem Told.adds {conflict : RegistrationConflict} (h : Told conflict tr)
    (hev : ∀ e ∈ ev, Aside e) : Told conflict (tr ++ ev) := by
  refine ⟨?_, ?_⟩
  · rw [duplicated_append, h.username]
    exact (or_iff_left (not_duplicated fun e he => (hev e he).1)).symm
  · rw [duplicated_append, h.request]
    exact (or_iff_left (not_duplicated fun e he => (hev e he).2)).symm

theorem aside_command (ops : Ops W) (hu : sql ≠ .insertUser)
    (ha : sql ≠ .insertRegisterAudit) (hc : Closes ev) :
    ∀ e ∈ commandEvents ops writeLimits sql params s ++ ev, Aside e := by
  refine forall_mem_append.mpr ⟨forall_mem_cons.mpr ⟨⟨id, id⟩, ?_⟩, fun e he => ?_⟩
  · split
    · exact forall_mem_singleton.mpr ⟨hu, ha⟩
    · exact forall_mem_nil _
  · exact ⟨(hc.neutral e he).2.2 _, (hc.neutral e he).2.2 _⟩

section Register

variable (ops : Ops W) (hprep : PreparesApart ops) {s : Call (W × List Event) RegistrationConflict}

theorem Clear.told (h : Clear s) : Told s.issue (trace s) := by
  rw [h.issue]
  exact told_none (h.unshown _) (h.unshown _)

theorem Blamed.told {sql : Sql} {stage : Stage} (h : Blamed sql stage s) (hu : sql ≠ .insertUser)
    (ha : sql ≠ .insertRegisterAudit) : Told s.issue (trace s) := by
  rw [h.issue]
  exact told_none (h.others _ hu.symm) (h.others _ ha.symm)

theorem Clear.event (h : Clear s) (s' : Call (W × List Event) RegistrationConflict) (e : Event)
    (htr : trace s' = trace s ++ [e]) (he : ∀ q, ¬ e.Runs q) : ∀ q, ¬ Duplicated q (trace s') := by
  intro q hd
  rw [htr, duplicated_append] at hd
  exact hd.elim (h.unshown q) (not_duplicated (forall_mem_singleton.mpr (he q)))

theorem wp_acquireLease_told (wait : UInt32) (h : Clear s) :
    wp (acquireLease ops.traced wait) (fun _ s' => Clear s') (fun _ s' => Told s'.issue (trace s')) s := by
  let o := (ops.acquire wait s.world.1).1
  have hrun : acquireLease ops.traced wait s = succeed o.result _ := rfl
  have hshown := h.event (acquireLease ops.traced wait s).2 (.acquired wait o)
    (by rw [hrun, succeed_state]; rfl) (fun _ => id)
  rw [hrun, succeed_state] at hshown
  refine wp_ran (fun hok => ⟨?_, h.issue, hshown⟩) (fun _ => ?_) hrun
  · show Told s.issue _
    rw [h.issue]
    exact told_none (hshown _) (hshown _)
  · show s.err.note .acquire o.result none false = {}
    rw [show o.result = .ok from hok, Diagnosis.note_ok, h.err]

theorem wp_borrowConnection_told (h : Clear s) :
    wp (borrowConnection ops.traced) (fun _ s' => Clear s') (fun _ s' => Told s'.issue (trace s')) s := by
  let rc := (ops.borrow s.world.1).1
  have hrun : borrowConnection ops.traced s = succeed rc _ := rfl
  have hshown := h.event (borrowConnection ops.traced s).2 (.borrowed rc)
    (by rw [hrun, succeed_state]; rfl) (fun _ => id)
  rw [hrun, succeed_state] at hshown
  refine wp_ran (fun hok => ⟨?_, h.issue, hshown⟩) (fun _ => ?_) hrun
  · show Told s.issue _
    rw [h.issue]
    exact told_none (hshown _) (hshown _)
  · show s.err.note .borrow rc none false = {}
    rw [show rc = .ok from hok, Diagnosis.note_ok, h.err]

include hprep

theorem wp_beginTransaction_told (h : Clear s) :
    wp (beginTransaction ops.traced) (fun _ s' => Clear s') (fun _ s' => Told s'.issue (trace s')) s := by
  obtain ⟨hok, hfailed⟩ := userCommand_told ops hprep .begin [] .begin h false
  refine wp_ran (fun hrc => ?_) (fun hrc => ?_) rfl
  · obtain ⟨hclear, -⟩ := hok hrc
    exact { hclear with }
  · exact (hfailed hrc).told (by decide) (by decide)

/-- **The statements of a registration**: whichever fails, its conflict is the one of the trace. -/
theorem wp_registerWork_told (input : RegistrationInput) (h : Clear s) :
    wp (registerWork ops.traced input) (fun ids s' => Clear s' ∧ ids.userId ≠ 0 ∧ ids.rootNodeId ≠ 0 ∧ ids.auditId ≠ 0)
      (fun _ s' => Told s'.issue (trace s')) s := by
  refine wp_bind.mpr (wp_mono (wp_insertUnique_told ops hprep (by decide) h _) ?_ ?_)
  · rintro user s₁ ⟨h₁, huser⟩
    refine wp_bind.mpr (wp_mono (wp_insertRow_told ops hprep h₁) ?_ ?_)
    · rintro root s₂ ⟨h₂, hroot⟩
      refine wp_bind.mpr (wp_mono (wp_insertUnique_told ops hprep (by decide) h₂ _) ?_ ?_)
      · rintro audit s₃ ⟨h₃, haudit⟩
        exact wp_pure.mpr ⟨h₃, huser, hroot, haudit⟩
      · rintro - s₃ ⟨⟨hi, hd⟩ | ⟨hi, hd⟩, hothers⟩
        · rw [hi]
          exact ⟨by simp [hothers .insertUser (by decide)], by simp [hd]⟩
        · rw [hi]
          exact told_none (hothers _ (by decide)) hd
    · exact fun _ s₂ h₂ => h₂.told (by decide) (by decide)
  · rintro - s₁ ⟨⟨hi, hd⟩ | ⟨hi, hd⟩, hothers⟩
    · rw [hi]
      exact ⟨by simp [hd], by simp [hothers .insertRegisterAudit (by decide)]⟩
    · rw [hi]
      exact told_none hd (hothers _ (by decide))

theorem wp_prepareCommit_told (wait : UInt32) (input : RegistrationInput) (h : Clear s) :
    wp (prepareCommit ops.traced wait (registerWork ops.traced input))
      (fun ids s' => Clear s' ∧ ids.userId ≠ 0 ∧ ids.rootNodeId ≠ 0 ∧ ids.auditId ≠ 0)
      (fun _ s' => Told s'.issue (trace s')) s := by
  refine wp_bind.mpr (wp_mono (wp_acquireLease_told ops wait h) (fun _ s₁ h₁ => ?_) (fun _ _ h => h))
  refine wp_bind.mpr (wp_mono (wp_borrowConnection_told ops h₁) (fun _ s₂ h₂ => ?_) (fun _ _ h => h))
  refine wp_bind.mpr (wp_mono (wp_beginTransaction_told ops hprep h₂) (fun _ s₃ h₃ => ?_) (fun _ _ h => h))
  exact wp_registerWork_told ops hprep input h₃

omit hprep in
theorem told_finish (rc : Result) (commit : Commit) (value : Option RegistrationIds) (h : AtEnd commit s)
    (ht : Told s.issue (trace s)) :
    let o := finish ops.traced registerPlan rc commit value s
    Told o.report.issue o.world.2 := by
  intro o
  obtain ⟨⟨er, el, htr, her, hel⟩, -, -, hissue, -⟩ := finish_trace ops registerPlan rc commit value s h
  have hsame : classify registerPlan rc s = s := by
    unfold classify registerPlan
    rw [if_neg]
    rintro ⟨-, -, -, hstage⟩
    cases hs : s.err.stage <;> rw [hs] at hstage <;> cases hstage
  rw [show o.report.issue = _ from hissue, show o.world.2 = _ from htr, hsame, append_assoc]
  refine ht.adds (forall_mem_append.mpr ⟨fun e he => ?_, fun e he => ?_⟩)
  · exact ⟨her.neutral.2.1 e he _ (by decide), her.neutral.2.1 e he _ (by decide)⟩
  · exact ⟨(hel.neutral e he).2 _, (hel.neutral e he).2 _⟩

theorem told_transact (wait : UInt32) (input : RegistrationInput) (repo : Repo) (hp : repo.pending = false) (w : W) :
    let o := transact ops.traced registerPlan wait (registerWork ops.traced input) (.enter repo (w, []))
    Told o.report.issue o.world.2 := by
  have hclear : Clear (.enter repo (w, []) : Call (W × List Event) RegistrationConflict) :=
    ⟨rfl, rfl, fun q ⟨_, _, h, _⟩ => (not_mem_nil h).elim⟩
  have hpre := wp_and (wp_prepareCommit ops wait (worked_registerWork ops input) (fresh_enter repo hp w))
    (wp_prepareCommit_told ops hprep wait input hclear)
  unfold transact
  rcases wp_cases hpre with ⟨ids, s, e, h, hc, -⟩ | ⟨f, s, e, h, ht⟩
  · rw [e]
    have hend := h.atEnd_commit ops
    obtain ⟨ev, hclose, hadds⟩ := userCommand_adds ops .commit [] .commit false false s
    have hissue := (sameHeld_command ops.traced id writeLimits .commit [] .commit false false s).issue
    have ht : Told (userCommand ops.traced .commit [] .commit false false s).2.issue
        (trace (userCommand ops.traced .commit [] .commit false false s).2) := by
      rw [show (userCommand ops.traced .commit [] .commit false false s).2.issue = s.issue from hissue, hadds.extends']
      exact hc.told.adds (aside_command ops (by decide) (by decide) hclose)
    unfold commitWork
    dsimp only at hend ht ⊢
    generalize userCommand ops.traced .commit [] .commit false false s = reply at hend ht ⊢
    unfold commitFact at hend
    by_cases hr : reply.1.replied = true
    · rw [if_pos hr] at hend ⊢
      exact told_finish ops _ _ _ hend ht
    · rw [if_neg hr] at hend ⊢
      by_cases hs : reply.1.execution.started = true
      · rw [if_pos hs] at hend ⊢
        exact told_finish ops _ _ _ hend ht
      · rw [if_neg hs] at hend ⊢
        exact told_finish ops _ _ _ hend ht
  · rw [e]
    exact told_finish ops _ _ _ h.atEnd ht

theorem told_register (policy : Security.PasswordPolicy) (input : RegistrationInput) (wait : UInt32) (repo : Repo)
    (w : W) :
    let o := register ops.traced policy input wait repo (w, [])
    Told o.report.issue o.world.2 := by
  have hrefused : ∀ rc, Told (refuse rc repo (w, []) : WriteOutcome (W × List Event) RegistrationConflict
      RegistrationIds).report.issue ([] : List Event) := fun rc =>
    told_none (fun ⟨_, _, h, _⟩ => (not_mem_nil h).elim) fun ⟨_, _, h, _⟩ => (not_mem_nil h).elim
  unfold register writeEntry
  split
  · exact hrefused _
  rename_i hp
  split
  · exact told_transact ops hprep wait input repo (Bool.not_eq_true _ ▸ hp) w
  · exact hrefused _

end Register

/-! ## 4. The transactions of an account -/

/-- While a statement or a lease is left, every later call is BUSY and touches nothing. -/
def StaysBusy {β : Type} (ops : Ops W) (o : WriteOutcome (W × List Event) I β) : Prop :=
  o.report.cleanupPending = true →
    ∀ (later : UserCall) (w : W × List Event), later.run ops.traced o.repo w = (.busy, o.repo, w)

theorem CommitFacts.staysBusy {β : Type} {repo : Repo} {o : WriteOutcome (W × List Event) I β}
    (h : CommitFacts repo o) (ops : Ops W) : StaysBusy ops o :=
  fun hp later w => later.run_busy ops.traced (h.pending.2.trans hp) w

/-- **What the transactions of an account report.** For every input, repository and sequence of outcomes what is
    reported, released and published is what the trace shows, and while something is left every later call is
    refused. -/
theorem user_commit_facts (ops : Ops W) (policy : Security.PasswordPolicy) (wait : UInt32) (repo : Repo) (w : W) :
    (∀ input,
      let o := register ops.traced policy input wait repo (w, [])
      CommitFacts repo o ∧ StaysBusy ops o ∧
        (PreparesApart ops → (o.report.issue = .usernameConflict ↔ Duplicated .insertUser o.world.2))) ∧
    (∀ input,
      let o := login ops.traced policy input wait repo (w, [])
      CommitFacts repo o ∧ StaysBusy ops o) ∧
    ∀ input,
      let o := logout ops.traced input wait repo (w, [])
      CommitFacts repo o ∧ StaysBusy ops o := by
  refine ⟨fun input => ?_, fun input => ?_, fun input => ?_⟩
  · have h := facts_writeEntry ops registerPlan (validateInput policy input wait) wait (worked_registerWork ops input)
      repo w
    exact ⟨h, h.staysBusy ops, fun hprep => (told_register ops hprep policy input wait repo w).username⟩
  · have h := facts_writeEntry ops loginPlan (validateLogin policy input wait) wait (worked_loginWork ops input) repo w
    exact ⟨h, h.staysBusy ops⟩
  · have h := facts_writeEntry ops logoutPlan (validateLogout input wait) wait (worked_logoutWork ops input) repo w
    exact ⟨h, h.staysBusy ops⟩

/-- A server that has the user already. -/
def takenOps : Ops Unit where
  allocate w := (true, w)
  acquire _ w := (⟨.ok, false⟩, w)
  borrow w := (.ok, w)
  prepare _ _ w := (⟨.ok, false, {}⟩, w)
  execute sql _ w :=
    if sql = .insertUser then (⟨.database, { started := true }, ⟨.execute, duplicateKey⟩⟩, w)
    else (⟨.ok, { started := true }, {}⟩, w)
  fetch _ w := (⟨.ok, .done, {}⟩, w)
  column _ _ w := (.error .range, w)
  close _ w := (⟨.ok, false, {}⟩, w)
  utc w := (⟨0, ⟨0, 0⟩⟩, w)
  release _ w := (⟨.ok, true, false⟩, w)

/-- His registration comes again. -/
def takenName : RegistrationInput :=
  ⟨[97], [97], Security.phcText
    "$argon2id$v=19$m=65536,t=3,p=1$AAAAAAAAAAAAAAAAAAAAAA$AAAAAAAAAAAAAAAAAAAAAAAAAAAAAAAAAAAAAAAAAAA",
    Vector.replicate 16 1, 5000, 10⟩

theorem user_commit_facts_taken :
    let o := register takenOps.traced ⟨65536, 3, 65536, 3, 64⟩ takenName 100 {} ((), [])
    o.report.issue = .usernameConflict ∧ Duplicated .insertUser o.world.2 := by
  have hprep : PreparesApart takenOps := fun _ _ _ h => by cases h
  obtain ⟨-, -, username⟩ := (user_commit_facts takenOps ⟨65536, 3, 65536, 3, 64⟩ 100 {} ()).1 takenName
  have hissue : (register takenOps.traced ⟨65536, 3, 65536, 3, 64⟩ takenName 100 {} ((), [])).report.issue =
      .usernameConflict := by decide +kernel
  exact ⟨hissue, (username hprep).mp hissue⟩

end Vireo.Persistence.User
