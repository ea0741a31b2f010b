/-
  File:      Vireo/Persistence/User/Facts.lean
  Subject:   WHAT A TRANSACTION OF THE USER REPOSITORY SAYS AND LEAVES, against arbitrary dependencies.
-/
import Vireo.Persistence.User.Trace

namespace Vireo.Persistence.User

open Lib Prog List

variable {W I α β : Type}

/-! ## 1. In front of COMMIT -/

/-- No COMMIT, no ROLLBACK and no release yet; statement, lease and transaction are those of the trace. -/
structure Pre (s : Call (W × List Event) I) : Prop where
  early : ∀ e ∈ trace s, e.Early
  agrees : s.statement.isSome = openStatement (trace s)
  lease : s.lease = leaseHeld (trace s)
  transaction : s.transaction = true ↔ Started .begin (trace s)

section Pre

variable {s s' : Call (W × List Event) I} {ev : List Event}

theorem Pre.worked (h : Pre s) (k : Worked s s') : Pre s' := by
  obtain ⟨ev, k, hev⟩ := k
  have hworking : ∀ e ∈ ev, e.Working := fun e he => .inl (hev e he)
  refine ⟨?_, k.agrees h.agrees, k.leases (fun e he => (hworking e he).leases) h.lease, ?_⟩
  · rw [k.extends']
    exact forall_mem_append.mpr ⟨h.early, fun e he => (hworking e he).early⟩
  · rw [k.transaction, k.extends', started_append, h.transaction]
    exact (or_iff_left (not_started_of_working hworking)).symm

/-- In front of BEGIN. -/
structure Fresh (s : Call (W × List Event) I) : Prop where
  pre : Pre s
  transaction : s.transaction = false

theorem fresh_enter [Inhabited I] (repo : Repo) (hp : repo.pending = false) (w : W) :
    Fresh (Call.enter repo (w, []) : Call (W × List Event) I) := by
  obtain ⟨hst, hl⟩ := Bool.or_eq_false_iff.mp hp
  refine ⟨⟨forall_mem_nil _, hst, hl, fun h => absurd h Bool.false_ne_true, ?_⟩, rfl⟩
  rintro ⟨_, _, h, _⟩
  cases h

theorem Fresh.event (h : Fresh s) {e : Event} (htr : trace s' = trace s ++ [e]) (he : e.Early)
    (ho : ∀ b, e.opens b = b) (hx : ∀ q p o, e ≠ .executed q p o) (hl : s'.lease = leaseHeld (trace s'))
    (hst : s'.statement = s.statement) (ht : s'.transaction = s.transaction) : Fresh s' := by
  refine ⟨⟨?_, ?_, hl, ?_⟩, ht.trans h.transaction⟩
  · rw [htr]
    exact forall_mem_append.mpr ⟨h.pre.early, forall_mem_singleton.mpr he⟩
  · rw [htr, openStatement_append, hst, h.pre.agrees]
    exact (ho _).symm
  · rw [htr, started_append, ht, h.pre.transaction]
    exact (or_iff_left fun ⟨_, _, hm, _⟩ => hx _ _ _ (mem_singleton.mp hm).symm).symm

end Pre

section Opening

variable (ops : Ops W) {s : Call (W × List Event) I}

theorem wp_acquireLease (wait : UInt32) (h : Fresh s) :
    wp (acquireLease ops.traced wait) (fun _ s' => Fresh s') (fun _ s' => Pre s') s := by
  let o := (ops.acquire wait s.world.1).1
  have h' : Fresh ({ s with
      world := ((ops.acquire wait s.world.1).2, s.world.2 ++ [Event.acquired wait o])
      lease := decide (o.result = Result.ok) || o.left }.diagnose .acquire o.result none false) := by
    refine h.event (e := .acquired wait o) rfl trivial (fun _ => rfl) (fun _ _ _ h => nomatch h) ?_ rfl rfl
    show _ = leaseHeld (trace s ++ [.acquired wait o])
    rw [leaseHeld_append]
    rfl
  exact wp_ran (fun _ => h') (fun _ => h'.pre) rfl

theorem wp_borrowConnection (h : Fresh s) :
    wp (borrowConnection ops.traced) (fun _ s' => Fresh s') (fun _ s' => Pre s') s := by
  let rc := (ops.borrow s.world.1).1
  have h' : Fresh ({ s with
      world := ((ops.borrow s.world.1).2, s.world.2 ++ [Event.borrowed rc])
      connection := decide (rc = Result.ok) || s.connection }.diagnose .borrow rc none false) := by
    refine h.event (e := .borrowed rc) rfl trivial (fun _ => rfl) (fun _ _ _ h => nomatch h) ?_ rfl rfl
    show s.lease = leaseHeld (trace s ++ [.borrowed rc])
    rw [leaseHeld_append, h.pre.lease]
    rfl
  exact wp_ran (fun _ => h') (fun _ => h'.pre) rfl

/-- BEGIN: the transaction may have started as soon as the execution has. -/
theorem wp_beginTransaction (h : Fresh s) :
    wp (beginTransaction ops.traced) (fun _ s' => Pre s') (fun _ s' => Pre s') s := by
  let reply := userCommand ops.traced .begin [] .begin false false s
  obtain ⟨ev, hc, hadds⟩ := userCommand_adds ops .begin [] .begin false false s
  have hnot : ¬ Started .begin (trace s) := fun hb =>
    Bool.false_ne_true (h.transaction.symm.trans (h.pre.transaction.mpr hb))
  have hbegan := (command_shown ops writeLimits .begin [] .begin false (fun _ => .rfl) s).2 hnot
  change Started .begin (trace reply.2) ↔ reply.1.execution.started = true at hbegan
  have h' : Pre { reply.2 with transaction := reply.1.execution.started } := by
    refine ⟨?_, hadds.agrees h.pre.agrees, hadds.leases (command_leases ops _ _ _ hc) h.pre.lease, hbegan.symm⟩
    show ∀ e ∈ trace reply.2, e.Early
    rw [hadds.extends']
    exact forall_mem_append.mpr ⟨h.pre.early, command_early ops _ _ _ hc (by decide) (by decide)⟩
  exact wp_ran (fun _ => h') (fun _ => h') rfl

theorem wp_prepareCommit (wait : UInt32) {work : Step (W × List Event) I α} (hw : Keeps Worked work)
    (h : Fresh s) : wp (prepareCommit ops.traced wait work) (fun _ s' => Pre s') (fun _ s' => Pre s') s := by
  refine wp_bind.mpr (wp_mono (wp_acquireLease ops wait h) (fun _ s₁ h₁ => ?_) (fun _ _ h => h))
  refine wp_bind.mpr (wp_mono (wp_borrowConnection ops h₁) (fun _ s₂ h₂ => ?_) (fun _ _ h => h))
  refine wp_bind.mpr (wp_mono (wp_beginTransaction ops h₂) (fun _ s₃ h₃ => ?_) (fun _ _ h => h))
  exact wp_mono (hw.wp s₃) (fun _ _ k => h₃.worked k) (fun _ _ k => h₃.worked k)

end Opening

/-! ## 2. COMMIT -/

/-- The state the cleanup starts from. -/
structure AtEnd (commit : Commit) (s : Call (W × List Event) I) : Prop where
  agrees : s.statement.isSome = openStatement (trace s)
  lease : s.lease = leaseHeld (trace s)
  transaction : s.transaction = true ↔ Started .begin (trace s)
  ended : Ended (commit = .committed) (commit = .unknown) (trace s)

theorem Commit.eq_notCommitted {commit : Commit} :
    commit = .notCommitted ↔ ¬ (commit = .committed ∨ commit = .unknown) := by
  cases commit <;> decide

theorem Pre.atEnd {s : Call (W × List Event) I} (h : Pre s) : AtEnd .notCommitted s :=
  { h with ended := ended_of_early h.early nofun nofun }

/-- The commit fact of a reply. -/
def commitFact (reply : CommandReply) : Commit :=
  if reply.replied then .committed else if reply.execution.started then .unknown else .notCommitted

section Commit

variable (ops : Ops W) {reply : CommandReply}

theorem commitFact_committed : commitFact reply = .committed ↔ reply.replied = true := by
  unfold commitFact
  cases reply.replied <;> cases reply.execution.started <;> decide

theorem commitFact_unknown :
    commitFact reply = .unknown ↔ reply.execution.started = true ∧ reply.replied = false := by
  unfold commitFact
  cases reply.replied <;> cases reply.execution.started <;> decide

theorem Pre.atEnd_commit {s : Call (W × List Event) I} (h : Pre s) :
    let r := userCommand ops.traced .commit [] .commit false false s
    AtEnd (commitFact r.1) r.2 := by
  intro r
  obtain ⟨ev, hc, hadds⟩ := userCommand_adds ops .commit [] .commit false false s
  obtain ⟨hended, hbegan⟩ := ended_commit ops s (fun _ => .rfl) writeLimits h.early
  refine ⟨hadds.agrees h.agrees, hadds.leases (command_leases ops _ _ _ hc) h.lease, ?_, ?_⟩
  · rw [hadds.transaction, h.transaction]
    exact hbegan.symm
  · rw [commitFact_committed, commitFact_unknown]
    exact hended

end Commit

/-! ## 3. The cleanup -/

section Cleanup

variable [Inhabited I] [DecidableEq I] (ops : Ops W)

/-- When ROLLBACK is tried. -/
def TriesRollback (commit : Commit) (s : Call (W × List Event) I) : Prop :=
  s.transaction = true ∧ commit = .notCommitted ∧ s.statement = none

omit [Inhabited I] [DecidableEq I] in
theorem rollbackWork_adds (commit : Commit) (rc : Result) (s : Call (W × List Event) I) :
    let r := rollbackWork ops.traced commit rc s
    ∃ er, Adds er s r.2 ∧ Rolls writeLimits (TriesRollback commit s) er ∧ r.2.issue = s.issue ∧
      (r.1.2 = true → Replied .rollback er) ∧ (r.1.1 = .ok → rc = .ok) := by
  intro r
  by_cases hc : TriesRollback commit s
  · let reply := userCommand ops.traced .rollback [] .rollback false true s
    have hr : r = ((rc.first reply.1.result, reply.1.replied), reply.2) := if_pos hc
    obtain ⟨ev, hclose, hadds⟩ := userCommand_adds ops .rollback [] .rollback false true s
    obtain ⟨-, hreplied, -⟩ := command_reply ops writeLimits .rollback [] .rollback false true s fun _ => .rfl
    rw [hr]
    refine ⟨_, hadds, rolls_command ops writeLimits hclose hc, ?_, fun h => ?_, fun h => ?_⟩
    · exact (sameHeld_command ops.traced id writeLimits .rollback [] .rollback false true s).issue
    · exact (replied_command ops writeLimits .rollback [] hclose .rollback).mpr ⟨rfl, hreplied.mp h⟩
    · by_contra hne
      exact hne ((Result.first_of_ne hne _).symm.trans h)
  · have hr : r = ((rc, false), s) := if_neg hc
    rw [hr]
    exact ⟨[], .refl s, .inl ⟨rfl, hc⟩, rfl, fun h => absurd h Bool.false_ne_true, id⟩

theorem classify_adds (plan : Plan I) (rc : Result) (s : Call (W × List Event) I) :
    Adds [] s (classify plan rc s) := by
  unfold classify
  split
  · exact (Adds.refl s).quiet rfl rfl rfl rfl
  · exact .refl s

/-- **The cleanup**: it rolls back when it has to, and gives the lease back. -/
theorem finish_trace (plan : Plan I) (rc : Result) (commit : Commit) (value : Option α)
    (s : Call (W × List Event) I) (h : AtEnd commit s) :
    let o := finish ops.traced plan rc commit value s
    (∃ er el, o.world.2 = trace s ++ er ++ el ∧
      Rolls writeLimits (Started .begin (trace s) ∧ ¬ (commit = .committed ∨ commit = .unknown) ∧
        openStatement (trace s) = false) er ∧
      Releases (commit = .committed ∨ Replied .rollback er) (fun _ => True) (trace s ++ er) el) ∧
      o.repo.statement.isSome = openStatement o.world.2 ∧ o.repo.lease = leaseHeld o.world.2 ∧
      o.report.issue = (classify plan rc s).issue ∧ (o.result = .ok → rc = .ok) := by
  intro o
  let s₀ := classify plan rc s
  have hclass : Adds [] s s₀ := classify_adds plan rc s
  let rolled := rollbackWork ops.traced commit rc s₀
  obtain ⟨er, hadds, her, hissue, hrep, hrc⟩ := rollbackWork_adds ops commit rc s₀
  have hall : Adds er s rolled.2 := hclass.trans hadds
  have htries : TriesRollback commit s₀ ↔
      Started .begin (trace s) ∧ ¬ (commit = .committed ∨ commit = .unknown) ∧ openStatement (trace s) = false := by
    have hst : s₀.statement = none ↔ openStatement (trace s) = false := by
      rw [← h.agrees, show s.statement.isSome = s₀.statement.isSome from hclass.statement.symm]
      cases s₀.statement <;> simp
    unfold TriesRollback
    rw [hclass.transaction, h.transaction, hst, Commit.eq_notCommitted]
  rw [htries] at her
  have hagrees := hall.agrees h.agrees
  have hlease := hall.leases her.neutral.1 h.lease
  have hhealthy : (decide (commit = .committed) || rolled.1.2) = true →
      (commit = .committed ∨ Replied .rollback er) ∧ True :=
    fun hk => ⟨(Bool.or_eq_true_iff.mp hk).imp of_decide_eq_true hrep, trivial⟩
  obtain ⟨⟨el, htr, hel⟩, hst, hl, hi, hok⟩ :=
    @releaseLease_trace _ _ ops rolled.2 (decide (commit = .committed) || rolled.1.2) rolled.1.1 hagrees hlease _
      (fun _ => True) hhealthy
  rw [hall.extends'] at htr hel
  exact ⟨⟨er, el, htr, her, hel⟩, hst, hl, hi.trans hissue, fun hk => hrc (hok hk)⟩

end Cleanup

/-! ## 4. What a call leaves -/

/-- **The facts of a transaction**, read off the whole trace of the call. -/
structure CommitFacts (repo : Repo) (o : WriteOutcome (W × List Event) I α) : Prop where
  /-- COMMITTED iff the complete success reply of COMMIT was received -/
  committed : o.report.commit = .committed ↔ Replied .commit o.world.2
  /-- UNKNOWN iff the execution of COMMIT started without that reply -/
  unknown : o.report.commit = .unknown ↔ Started .commit o.world.2 ∧ ¬ Replied .commit o.world.2
  /-- else no COMMIT was executed, and ROLLBACK is attempted iff the transaction may have started and no
      statement is open -/
  rollback : o.report.commit = .notCommitted → ¬ Started .commit o.world.2 ∧
    (Attempted .rollback o.world.2 ↔ Started .begin o.world.2 ∧ openStatement (beforeEnd o.world.2) = false)
  /-- nothing follows a COMMIT that succeeded or may have -/
  last : o.report.commit ≠ .notCommitted → CommitLast o.world.2 ∧ ¬ Attempted .rollback o.world.2
  /-- the lease is given back with no open statement, for further use only after a confirmed end -/
  release : ∀ pre d r post, o.world.2 = pre ++ .released d r :: post →
    openStatement pre = false ∧ (d = .recycle → Replied .commit pre ∨ Replied .rollback pre)
  /-- what is left is reported -/
  pending : o.report.cleanupPending =
      (o.world.2.foldl Event.opens repo.statement.isSome || o.world.2.foldl Event.leases repo.lease) ∧
    o.repo.pending = o.report.cleanupPending
  /-- what is committed is published, and nothing else -/
  published : o.report.value.isSome = true ↔ o.report.commit = .committed
  /-- a success was committed -/
  succeeds : o.result = .ok → o.report.commit = .committed

section Leaves

variable [Inhabited I] [DecidableEq I] (ops : Ops W) {work : Step (W × List Event) I α} {repo : Repo}

theorem facts_finish (plan : Plan I) (rc : Result) (commit : Commit) (value : Option α)
    (s : Call (W × List Event) I) (h : AtEnd commit s) (hv : value.isSome = true ↔ commit = .committed)
    (hrc : rc = .ok → commit = .committed) (hp : repo.pending = false) :
    CommitFacts repo (finish ops.traced plan rc commit value s) := by
  obtain ⟨⟨er, el, htr, her, hel⟩, hst, hlease, -, hok⟩ := finish_trace ops plan rc commit value s h
  rw [← List.append_nil (trace s)] at htr her hel
  have facts := endFacts h.ended htr (forall_mem_nil _) (by rwa [List.append_nil (trace s)] at her ⊢) hel
  refine ⟨facts.replied, facts.started, fun hk => facts.rollback (Commit.eq_notCommitted.mp hk),
    fun hk => facts.last (not_not.mp fun hn => hk (Commit.eq_notCommitted.mpr hn)),
    fun pre d r post e => (facts.release pre d r post e).imp_right fun hrec hd => (hrec hd).1, ⟨?_, rfl⟩, hv,
    fun hk => hrc (hok hk)⟩
  obtain ⟨hs₀, hl₀⟩ := Bool.or_eq_false_iff.mp hp
  rw [hs₀, hl₀]
  show (finish ops.traced plan rc commit value s).repo.pending = _
  unfold Repo.pending
  rw [hst, hlease]
  rfl

theorem facts_commitWork (plan : Plan I) (value : α) {s : Call (W × List Event) I} (h : Pre s)
    (hp : repo.pending = false) : CommitFacts repo (commitWork ops.traced plan value s) := by
  have hend := h.atEnd_commit ops
  have hok := (command_reply ops writeLimits .commit [] .commit false false s fun _ => .rfl).2.2
  unfold commitWork
  change (userCommand ops.traced .commit [] .commit false false s).1.result = .ok →
    (userCommand ops.traced .commit [] .commit false false s).1.replied = true at hok
  dsimp only at hend ⊢
  generalize userCommand ops.traced .commit [] .commit false false s = reply at hend hok ⊢
  unfold commitFact at hend
  by_cases hr : reply.1.replied = true
  · rw [if_pos hr] at hend ⊢
    exact facts_finish ops plan _ _ _ _ hend (by simp) (fun _ => rfl) hp
  · rw [if_neg hr] at hend ⊢
    by_cases hs : reply.1.execution.started = true
    · rw [if_pos hs] at hend ⊢
      exact facts_finish ops plan _ _ _ _ hend (by simp) (fun hk => absurd (hok hk) hr) hp
    · rw [if_neg hs] at hend ⊢
      exact facts_finish ops plan _ _ _ _ hend (by simp) (fun hk => absurd (hok hk) hr) hp

theorem facts_transact (plan : Plan I) (wait : UInt32) (hw : Keeps Worked work) (repo : Repo)
    (hp : repo.pending = false) (w : W) :
    CommitFacts repo (transact ops.traced plan wait work (Call.enter repo (w, []))) := by
  have hpre := wp_prepareCommit ops wait hw (fresh_enter repo hp w)
  unfold transact
  rcases wp_cases hpre with ⟨a, s, e, h⟩ | ⟨f, s, e, h⟩
  · rw [e]
    exact facts_commitWork ops plan a h hp
  · rw [e]
    exact facts_finish ops plan _ _ _ _ h.atEnd (by simp) (fun hk => absurd hk f.property) hp

omit [DecidableEq I] in
theorem facts_refuse (rc : Result) (hrc : rc ≠ .ok) (repo : Repo) (w : W) :
    CommitFacts repo (refuse rc repo (w, []) : WriteOutcome (W × List Event) I α) := by
  have hs : ∀ sql, ¬ Started sql ([] : List Event) := fun _ ⟨_, _, h, _⟩ => (not_mem_nil h).elim
  have hr : ∀ sql, ¬ Replied sql ([] : List Event) := fun _ ⟨_, _, h, _⟩ => (not_mem_nil h).elim
  have hcommit : ∀ c, c ≠ Commit.notCommitted →
      (refuse rc repo (w, []) : WriteOutcome (W × List Event) I α).report.commit ≠ c := fun c hc => hc.symm
  refine ⟨⟨fun h => absurd h (hcommit _ (by decide)), fun h => absurd h (hr _)⟩,
    ⟨fun h => absurd h (hcommit _ (by decide)), fun h => absurd h.1 (hs _)⟩, fun _ => ⟨hs _, ?_⟩,
    fun h => absurd rfl h, ?_, ⟨rfl, rfl⟩, ⟨fun h => absurd h Bool.false_ne_true, fun h => absurd h (hcommit _ (by decide))⟩,
    fun h => absurd h hrc⟩
  · exact ⟨fun ⟨_, _, h⟩ => (not_mem_nil h).elim, fun h => absurd h.1 (hs _)⟩
  · intro pre d r post e
    exact absurd e.symm (append_ne_nil_of_right_ne_nil _ (cons_ne_nil _ _))

/-- **The facts of a transaction**, for every entry that works between BEGIN and COMMIT. -/
theorem facts_writeEntry (plan : Plan I) (check : Result) (wait : UInt32) (hw : Keeps Worked work) (repo : Repo)
    (w : W) :
    CommitFacts repo (writeEntry ops.traced plan check wait work repo (w, [])) := by
  unfold writeEntry
  split
  · exact facts_refuse .busy (by decide) repo w
  rename_i hp
  split
  · exact facts_transact ops plan wait hw repo (Bool.not_eq_true _ ▸ hp) w
  · exact facts_refuse check ‹_› repo w

end Leaves

end Vireo.Persistence.User
