/-
  File:      Vireo/Persistence/Node/Outcome.lean
  Subject:   WHAT A WRITE CALL LEAVES OF THE DATABASE, whatever fails.
-/
import Vireo.Persistence.Node.Refine
import Vireo.Persistence.Transaction

namespace Vireo.Persistence.Node

open Lib Prog

variable {α : Type}

/-! ## 1. The end of a call -/

/-- What the cleanup leaves alone. -/
structure Ended (s s' : Call World Issue) : Prop where
  committed : s'.world.committed = s.world.committed
  counters : s.world.counters.Le s'.world.counters
  issue : s'.issue = s.issue
  faulted : s.world.faulted = true → s'.world.faulted = true

theorem Ended.trans {a b c : Call World Issue} (h : Ended a b) (k : Ended b c) : Ended a c :=
  ⟨k.committed.trans h.committed, h.counters.trans k.counters, k.issue.trans h.issue,
    fun e => k.faulted (h.faulted e)⟩

theorem ended_of_cleaned {s s' : Call World Issue} (h : Cleaned s s') : Ended s s' :=
  { h with counters := h.counters ▸ Counters.Le.refl _ }

theorem not_faulted {s s' : Call World Issue} (h : Ended s s') (hs : s'.world.faulted = false) :
    s.world.faulted = false := by
  by_contra hf
  rw [h.faulted (Bool.not_eq_false _ ▸ hf)] at hs
  cases hs

theorem rollbackWork_db (commit : Commit) (rc : Result) (s : Call World Issue) :
    Ended s (rollbackWork dbOps commit rc s).2 ∧
      ((rollbackWork dbOps commit rc s).2.world.faulted = false →
        (rollbackWork dbOps commit rc s).1.1 = rc) := by
  unfold rollbackWork
  split
  · rcases rollback_db faithful_noRange writeLimits s with ⟨hf, hc, hn, hi⟩ | ⟨hr, -, hclean, -, -⟩
    · refine ⟨⟨hc, hn, hi, fun _ => hf⟩, fun hno => ?_⟩
      exact absurd (hf.symm.trans hno) Bool.noConfusion
    · refine ⟨ended_of_cleaned hclean, fun _ => ?_⟩
      show rc.first (writeCommand dbOps .rollback [] .rollback false true s).1.result = rc
      rw [show (writeCommand dbOps .rollback [] .rollback false true s).1.result = .ok from hr]
      exact Result.first_ok rc
  · exact ⟨ended_of_cleaned (.refl s), fun _ => rfl⟩

theorem cleanupWrite_db (recyclable : List Issue) (commit : Commit) (rc : Result) (s : Call World Issue) :
    Ended s (cleanupWrite dbOps recyclable commit rc s).2 ∧
      ((cleanupWrite dbOps recyclable commit rc s).2.world.faulted = false →
        (cleanupWrite dbOps recyclable commit rc s).1.1 = rc) := by
  obtain ⟨hclose, hclosed⟩ := closeStatement_db s
  obtain ⟨hroll, hrolled⟩ := rollbackWork_db commit
    (rc.first (.ofExcept (closeStatement dbOps s).1)) (closeStatement dbOps s).2
  rw [cleanupWrite]
  generalize rollbackWork dbOps commit (rc.first (.ofExcept (closeStatement dbOps s).1))
    (closeStatement dbOps s).2 = rolled at hroll hrolled ⊢
  -- whether the lease is recycled or discarded makes no difference here
  suffices hall : ∀ healthy, Ended s (releaseLease dbOps healthy rolled.1.1 rolled.2).2 ∧
      ((releaseLease dbOps healthy rolled.1.1 rolled.2).2.world.faulted = false →
        (releaseLease dbOps healthy rolled.1.1 rolled.2).1 = rc) from hall _
  intro healthy
  obtain ⟨hrelease, hreleased⟩ := release_db healthy rolled.1.1 rolled.2
  have hlast := ended_of_cleaned hrelease
  refine ⟨((ended_of_cleaned hclose).trans hroll).trans hlast, fun hno => ?_⟩
  have hno₂ := not_faulted hlast hno
  have hno₁ := not_faulted hroll hno₂
  rw [hreleased hno, hrolled hno₂, (hclosed hno₁).1]
  exact Result.first_ok rc

theorem classify_classified (shapeStages : List Stage) (rc : Result) (s : Call World Issue) :
    (classify shapeStages rc s).issue = classified shapeStages rc (view s) ∧
      (classify shapeStages rc s).world = s.world := by
  unfold classify classified
  have hissue : (view s).issue = s.issue := rfl
  have herr : (view s).err = s.err := rfl
  rw [hissue, herr]
  split
  · exact ⟨rfl, rfl⟩
  · exact ⟨rfl, rfl⟩

/-- What `finish` makes of a state. -/
structure Finished (plan : Plan) (rc : Result) (commit : Commit) (value : α) (s : Call World Issue)
    (o : Outcome World α) : Prop where
  commit : o.report.commit = commit
  value : o.report.value = value
  issue : o.report.issue = classified plan.shapeStages rc (view s)
  committed : o.world.committed = s.world.committed
  counters : s.world.counters.Le o.world.counters
  faulted : s.world.faulted = true → o.world.faulted = true
  result : o.world.faulted = false → o.result = rc

variable (plan : Plan)

theorem finish_db (rc : Result) (commit : Commit) (value : α) (s : Call World Issue) :
    Finished plan rc commit value s (finish dbOps plan rc commit value s) := by
  obtain ⟨hissue, hworld⟩ := classify_classified plan.shapeStages rc s
  obtain ⟨hend, hres⟩ := cleanupWrite_db plan.recyclable commit rc (classify plan.shapeStages rc s)
  refine ⟨rfl, rfl, hend.issue.trans hissue, ?_, ?_, ?_, hres⟩
  · rw [← hworld]
    exact hend.committed
  · rw [← hworld]
    exact hend.counters
  · rw [← hworld]
    exact hend.faulted

/-! ## 2. Everything before COMMIT -/

/-- A verdict is spoken, a value handed on. -/
def idealSpeak {β : Type} : Except Verdict β → Ideal Issue β
  | .error v => idealReject v
  | .ok b => pure b

theorem sim_admission (actor : Actor) : Sim (ideal Issue) (do
      (if plan.exclusive then lockMoveUser dbOps actor.userId else lockUser dbOps actor.userId)
      lockSession dbOps actor) (Ideal.look (admission actor) >>= idealSpeak) := by
  have huser : Sim (ideal Issue)
      (if plan.exclusive then lockMoveUser dbOps actor.userId else lockUser dbOps actor.userId)
      (Ideal.look (fun t => (t.user actor.userId).map UserRow.status) >>= fun status =>
        if status = some 1 then pure () else idealReject ⟨.authRejected, .user, .notFound⟩) := by
    split
    · exact sim_lockUserRow _ _ _
    · exact sim_lockUserRow _ _ _
  refine (huser.bind fun _ => sim_lockSession actor).congr fun s _ => ?_
  show idealSpeak (admission actor (view s).tables) (view s) =
    ((if (((view s).tables.user actor.userId).map UserRow.status) = some 1 then pure ()
      else idealReject ⟨.authRejected, .user, .notFound⟩ : Ideal Issue Unit) >>= _) (view s)
  unfold admission
  by_cases hactive : ((view s).tables.user actor.userId).map UserRow.status = some 1
  · rw [if_pos hactive, if_pos hactive, pure_bind, look_bind]
    cases (view s).tables.session actor.sessionId with
    | none => rfl
    | some r =>
      show idealSpeak (if r.userId = actor.userId ∧ r.status = 1 then _ else _) (view s) = _
      unfold sessionWindow SessionRead.of
      dsimp only [Option.map_some]
      by_cases hown : r.userId = actor.userId ∧ r.status = 1
      · rw [if_pos hown]
        rfl
      · rw [if_neg hown]
        rfl
  · rw [if_neg hactive, if_neg hactive]
    rfl

/-- The clock after a work that is ready. -/
def clocked (win : Window) : Settled α → NodeStep World (Settled α)
  | .recovered a => pure (.recovered a)
  | .ready a => do
    let now ← captureUtc dbOps
    checkWindow win now
    pure (.ready a)

/-- The clock of the ideal entry. -/
def idealClocked (win : Window) : Settled α → Ideal Issue (Settled α)
  | .recovered a => pure (.recovered a)
  | .ready a => do
    let now ← Ideal.sample
    idealCheck win now
    pure (.ready a)

/-- Everything after BEGIN. -/
def entered (actor : Actor) (work : Window → NodeStep World (Settled α)) :
    NodeStep World (Settled α) := do
  (if plan.exclusive then lockMoveUser dbOps actor.userId else lockUser dbOps actor.userId)
  let win ← lockSession dbOps actor
  let settled ← work win
  clocked win settled

theorem idealWrite_eq (actor : Actor) (spec : Window → Ideal Issue (Settled α)) :
    idealWrite actor spec = (Ideal.look (admission actor) >>= idealSpeak) >>= fun win =>
      spec win >>= idealClocked win := by
  rw [bind_assoc]
  unfold idealWrite
  congr 1
  funext admitted
  cases admitted with
  | error v => rfl
  | ok win =>
    show _ = (pure win >>= fun win => spec win >>= idealClocked win)
    rw [pure_bind]
    rfl

variable {work : Window → NodeStep World (Settled α)} {spec : Window → Ideal Issue (Settled α)}

theorem sim_entered (actor : Actor) (hw : ∀ win, Sim (ideal Issue) (work win) (spec win)) :
    Sim (ideal Issue) (entered plan actor work) (idealWrite actor spec) := by
  have hclock : ∀ win settled, Sim (ideal Issue) (clocked win settled : NodeStep World (Settled α))
      (idealClocked win settled) := by
    intro win settled
    cases settled with
    | recovered a => exact .pure _
    | ready a =>
      exact .bind sim_captureUtc fun now => .bind (sim_checkWindow win now) fun _ => .pure _
  have hall := (sim_admission plan actor).bind fun win => (hw win).bind (hclock win)
  rw [idealWrite_eq]
  unfold entered
  rw [bind_assoc] at hall
  exact hall

theorem prepareCommit_eq (timeout : UInt32) (actor : Actor) (work : Window → NodeStep World (Settled α)) :
    prepareCommit dbOps plan timeout actor work = (do
      acquireLease dbOps timeout
      borrowConnection dbOps
      beginning Result.noRange writeLimits) >>= fun _ => entered plan actor work := by
  unfold prepareCommit openSession entered
  simp only [bind_assoc]
  refine congrArg _ (funext fun _ => congrArg _ (funext fun _ => ?_))
  refine congrArg _ (funext fun _ => congrArg _ (funext fun _ => congrArg _ (funext fun win => ?_)))
  refine congrArg _ (funext fun settled => ?_)
  cases settled with
  | recovered a => rfl
  | ready a => rfl

/-- A call that is ready for COMMIT, or has a receipt to hand out. -/
structure Prepared (t : Tables) (c : Counters) (s : Call World Issue) : Prop where
  quiet : Quiet s
  committed : s.world.committed = t
  counters : c.Le s.world.counters

/-- A call that failed before COMMIT: as the ideal entry did, or because a fault struck. -/
structure Stopped (entry : Ideal Issue (Settled α)) (t : Tables) (c : Counters)
    (clock : Nat → Sampled) (f : Failure) (s : Call World Issue) : Prop where
  committed : s.world.committed = t
  counters : c.Le s.world.counters
  cause : (s.world.faulted = true ∧ Accidents.accident s.issue) ∨
    (s.world.faulted = false ∧ entry (View.start t c clock) = (.error f, view s))

section Calls

variable {t : Tables} {c : Counters} {clock : Nat → Sampled} {s : Call World Issue}
  {spec : Window → Ideal Issue (Settled α)} {work : Window → NodeStep World (Settled α)}

theorem wp_prepareCommit_db (plan : Plan) (timeout : UInt32) (actor : Actor) (hs : Schema t)
    (hb : Below t c) (h : Begins t c clock s)
    (hw : ∀ win, Sim (ideal Issue) (work win) (spec win)) :
    wp (prepareCommit dbOps plan timeout actor work)
      (fun r s' => Prepared t c s' ∧ idealWrite actor spec (View.start t c clock) = (.ok r, view s'))
      (Stopped (idealWrite actor spec) t c clock) s := by
  rw [prepareCommit_eq]
  refine wp_bind.mpr (wp_mono (wp_opening faithful_noRange writeLimits timeout hs hb h) ?_ ?_)
  · intro _ s₁ h₁
    have hview : view s₁ = View.start t c clock := h₁.view
    have hcounters : s₁.world.counters = c := congrArg View.counters h₁.view
    refine wp_mono (sim_entered plan actor hw s₁ h₁.quiet) ?_ ?_
    · rintro r s₂ ⟨hk, hq, e⟩
      refine ⟨⟨hq, hk.committed.trans h₁.committed, hcounters ▸ hk.counters⟩, ?_⟩
      rw [← hview]
      exact e
    · rintro f s₂ ⟨hk, hcause⟩
      refine ⟨hk.committed.trans h₁.committed, hcounters ▸ hk.counters, hcause.imp id ?_⟩
      rintro ⟨hcalm, e⟩
      refine ⟨hcalm.1, ?_⟩
      rw [← hview]
      exact e
  · intro f s₁ h₁
    exact { h₁ with cause := .inl ⟨h₁.faulted, h₁.issue ▸ Accidents.default_accident⟩ }

end Calls

/-! ## 3. The call -/

/-- What a failed dependency call can make a call report. -/
def Excused (issue : Issue) : Prop := Accidents.accident issue ∨ issue = .unexpectedResult

/-- **What a call leaves, against the answer of the ideal entry.** -/
structure Answered (t : Tables) (c : Counters) (a : Answer α) (o : Outcome World α) : Prop where
  /-- the committed tables are as they were, or as the ideal entry makes them -/
  effect : o.world.committed = t ∨ (a.commit = .committed ∧ o.world.committed = a.tables)
  counters : c.Le o.world.counters
  /-- a reported commit is one, of what was published -/
  told : o.report.commit = .committed →
    a.commit = .committed ∧ o.world.committed = a.tables ∧ o.report.value = a.value
  /-- and a reported failure to commit is one -/
  untold : o.report.commit = .notCommitted → o.world.committed = t
  issue : o.report.issue = a.issue ∨ (o.world.faulted = true ∧ Excused o.report.issue)
  faultless : o.world.faulted = false → o.result = a.result ∧ o.report.commit = a.commit ∧
    o.report.issue = a.issue ∧ o.report.value = a.value ∧ o.world.committed = a.tables

variable {shapeStages : List Stage} {v : View Issue}

theorem classified_none {rc : Result}
    (h : Accidents.accident v.issue) : Excused (classified shapeStages rc v) := by
  unfold classified
  split
  · exact .inr rfl
  · exact .inl h

theorem classified_ok : classified shapeStages .ok v = v.issue := by
  unfold classified
  exact if_neg fun h => nomatch h.1

section Calls

variable [Inhabited α] {t : Tables} {c : Counters} {clock : Nat → Sampled} {s : Call World Issue}
  {spec : Window → Ideal Issue (Settled α)} {work : Window → NodeStep World (Settled α)} {s' : Call World Issue}
  {rc : Result}

variable (plan : Plan)

/-- COMMIT without a reply: a fault struck, and the tables are the old ones or the new ones. -/
theorem unanswered_db {commit : Commit} (value : α) (h : Prepared t c s) (hcommit : commit ≠ .committed)
    (hfaulted : s'.world.faulted = true) (hcounters : s.world.counters.Le s'.world.counters)
    (hissue : s'.issue = s.issue)
    (heffect : s'.world.committed = s.world.committed ∨
      (s'.world.committed = s.world.working ∧ commit ≠ .notCommitted)) :
    Answered t c ⟨.ok, .committed, .none, value, s.world.working, s.world.counters⟩
      (finish dbOps plan rc commit default s') := by
  have hfin := finish_db plan rc commit (default : α) s'
  generalize finish dbOps plan rc commit (default : α) s' = o at hfin ⊢
  have hstill : o.world.faulted = true := hfin.faulted hfaulted
  refine ⟨?_, h.counters.trans (hcounters.trans hfin.counters), fun e => ?_, fun e => ?_,
    .inr ⟨hstill, ?_⟩, fun hno => ?_⟩
  · rw [hfin.committed]
    rcases heffect with he | ⟨he, -⟩
    · exact .inl (he.trans h.committed)
    · exact .inr ⟨rfl, he⟩
  · rw [hfin.commit] at e
    exact absurd e hcommit
  · rw [hfin.commit] at e
    rw [hfin.committed]
    rcases heffect with he | ⟨-, hne⟩
    · exact he.trans h.committed
    · exact absurd e hne
  · have hnone : (view s').issue = .none := hissue.trans h.quiet.issue
    rw [hfin.issue]
    exact classified_none (hnone ▸ Accidents.default_accident)
  · rw [hstill] at hno
    cases hno

omit [Inhabited α] in
/-- COMMIT with a reply: whatever closing does afterwards, the change is made. -/
theorem replied_db (value : α) (h : Prepared t c s) (hcommitted : s'.world.committed = s.world.working)
    (hcounters : s'.world.counters = s.world.counters) (hissue : s'.issue = s.issue)
    (hfine : s'.world.faulted = false → rc = .ok) :
    Answered t c ⟨.ok, .committed, .none, value, s.world.working, s.world.counters⟩
      (finish dbOps plan rc .committed value s') := by
  have hnone : (view s').issue = .none := hissue.trans h.quiet.issue
  have hfin := finish_db plan rc .committed value s'
  generalize finish dbOps plan rc .committed value s' = o at hfin ⊢
  have hleft : o.world.committed = s.world.working := hfin.committed.trans hcommitted
  have hquiet : o.world.faulted = false → rc = .ok := fun hno => by
    refine hfine ?_
    by_contra hf
    rw [hfin.faulted (Bool.not_eq_false _ ▸ hf)] at hno
    cases hno
  have hsaid : o.world.faulted = false → o.report.issue = .none := fun hno => by
    rw [hfin.issue, hquiet hno, classified_ok]
    exact hnone
  refine ⟨.inr ⟨rfl, hleft⟩, ?_, fun _ => ⟨rfl, hleft, hfin.value⟩, fun e => ?_, ?_, fun hno => ?_⟩
  · refine h.counters.trans ?_
    rw [← hcounters]
    exact hfin.counters
  · rw [hfin.commit] at e
    cases e
  · cases hf : o.world.faulted with
    | false => exact .inl (hsaid hf)
    | true =>
      refine .inr ⟨rfl, ?_⟩
      rw [hfin.issue]
      exact classified_none (hnone ▸ Accidents.default_accident)
  · exact ⟨(hfin.result hno).trans (hquiet hno), hfin.commit, hsaid hno, hfin.value, hleft⟩

theorem commitWork_db (value : α) (h : Prepared t c s) :
    Answered t c ⟨.ok, .committed, .none, value, s.world.working, s.world.counters⟩
      (commitWork dbOps plan value s) := by
  have hcommit := commit_db faithful_noRange writeLimits s
  unfold commitWork writeCommand
  dsimp only at hcommit ⊢
  generalize command dbOps Result.noRange writeLimits .commit [] .commit false false s = r at hcommit ⊢
  rcases hcommit with ⟨hreplied, hcommitted, hcounters, hissue, hfine⟩ |
    ⟨hreplied, -, hfaulted, hcommitted, hcounters, hissue⟩
  · rw [if_pos hreplied]
    exact replied_db plan value h hcommitted hcounters hissue fun hno => (hfine hno).1
  · rw [if_neg (by rw [hreplied]; exact Bool.false_ne_true)]
    split
    · exact unanswered_db plan value h nofun hfaulted hcounters hissue
        (hcommitted.imp id fun hw => ⟨hw.1, nofun⟩)
    · rename_i hnot
      exact unanswered_db plan value h nofun hfaulted hcounters hissue
        (hcommitted.imp id fun hw => absurd hw.2 hnot)

theorem transact_db (timeout : UInt32) (actor : Actor) (hs : Schema t) (hb : Below t c) (h : Begins t c clock s)
    (hw : ∀ win, Sim (ideal Issue) (work win) (spec win)) :
    Answered t c (answer plan (idealWrite actor spec) t c clock)
      (transact dbOps plan timeout actor work s) := by
  have hrun := wp_prepareCommit_db plan timeout actor hs hb h hw
  unfold transact answer
  unfold wp at hrun
  generalize prepareCommit dbOps plan timeout actor work s = x at hrun ⊢
  obtain ⟨e, s'⟩ := x
  cases e with
  | error f =>
    have hfin := finish_db plan f.val .notCommitted (default : α) s'
    dsimp only at hrun ⊢
    generalize finish dbOps plan f.val .notCommitted (default : α) s' = o at hfin ⊢
    have hleft : o.world.committed = t := hfin.committed.trans hrun.committed
    have hcounters : c.Le o.world.counters := hrun.counters.trans hfin.counters
    have hnot : o.report.commit ≠ .committed := by rw [hfin.commit]; nofun
    rcases hrun.cause with ⟨hfaulted, hexcuse⟩ | ⟨-, hideal⟩
    · have hstill := hfin.faulted hfaulted
      refine ⟨.inl hleft, hcounters, fun e => absurd e hnot, fun _ => hleft,
        .inr ⟨hstill, hfin.issue ▸ classified_none hexcuse⟩, fun hno => ?_⟩
      rw [hstill] at hno
      cases hno
    · rw [hideal]
      exact ⟨.inl hleft, hcounters, fun e => absurd e hnot, fun _ => hleft, .inl hfin.issue,
        fun hno => ⟨hfin.result hno, hfin.commit, hfin.issue, hfin.value, hleft⟩⟩
  | ok r =>
    obtain ⟨hprep, hideal⟩ := hrun
    rw [hideal]
    cases r with
    | recovered a =>
      have hfin := finish_db plan .ok .notCommitted a s'
      dsimp only
      generalize finish dbOps plan .ok .notCommitted a s' = o at hfin ⊢
      have hleft : o.world.committed = t := hfin.committed.trans hprep.committed
      have hsaid : o.report.issue = (view s').issue := by rw [hfin.issue, classified_ok]
      refine ⟨.inl hleft, hprep.counters.trans hfin.counters, fun e => ?_, fun _ => hleft,
        .inl hsaid, fun hno => ⟨hfin.result hno, hfin.commit, hsaid, hfin.value, hleft⟩⟩
      rw [hfin.commit] at e
      cases e
    | ready a =>
      have hnone : (view s').issue = .none := hprep.quiet.issue
      dsimp only
      rw [hnone]
      exact commitWork_db plan a hprep

/-- The answer to a call that is refused before it touches the database. -/
def refusal (rc : Result) (t : Tables) (c : Counters) : Answer α :=
  ⟨rc, .notCommitted, .none, default, t, c⟩

theorem refuse_db (rc : Result) (repo : Repo) (faults : Nat → Option Fault) :
    Answered t c (refusal rc t c : Answer α) (refuse rc repo (World.fresh t c clock faults)) :=
  ⟨.inl rfl, Counters.Le.refl _, nofun, fun _ => rfl, .inl rfl, fun _ => ⟨rfl, rfl, rfl, rfl, rfl⟩⟩

omit [Inhabited α] in
theorem Answered.map {β : Type} {a : Answer α} {o : Outcome World α}
    (h : Answered t c a o) (f : α → β) : Answered t c (a.map f) (o.map f) :=
  { h with told := fun e => ⟨(h.told e).1, (h.told e).2.1, congrArg f (h.told e).2.2⟩, faultless := fun hno =>
    have ⟨hr, hc, hi, hv, ht⟩ := h.faultless hno
    ⟨hr, hc, hi, congrArg f hv, ht⟩ }

section Entry

variable (check : Result) (timeout : UInt32) (actor : Actor) (hs : Schema t) (hb : Below t c)
  (hw : ∀ win, Sim (ideal Issue) (work win) (spec win)) (repo : Repo) (clock : Nat → Sampled)
  (faults : Nat → Option Fault)
include hs hb hw

theorem writeEntry_db :
    Answered t c (if repo.pending then refusal .busy t c
      else if check = .ok then answer plan (idealWrite actor spec) t c clock
      else refusal check t c)
      (writeEntry dbOps plan check timeout actor work repo (World.fresh t c clock faults)) := by
  unfold writeEntry
  by_cases hp : repo.pending = true
  · rw [if_pos hp, if_pos hp]
    exact refuse_db _ repo faults
  · rw [if_neg hp, if_neg hp]
    by_cases hc : check = .ok
    · rw [if_pos hc, if_pos hc]
      exact transact_db plan timeout actor hs hb (.enter (Bool.not_eq_true _ ▸ hp) t c clock faults) hw
    · rw [if_neg hc, if_neg hc]
      exact refuse_db _ repo faults

theorem published_db (f : α → Published) (hf : f default = default) :
    Answered t c (if repo.pending then refusal .busy t c
      else if check = .ok then (answer plan (idealWrite actor spec) t c clock).map f
      else refusal check t c)
      ((writeEntry dbOps plan check timeout actor work repo (World.fresh t c clock faults)).map f) := by
  have h := (writeEntry_db plan check timeout actor hs hb hw repo clock faults).map f
  have hrefusal : ∀ rc, (refusal rc t c : Answer α).map f = refusal rc t c :=
    fun rc => congrArg (Answer.mk rc .notCommitted .none · t c) hf
  rw [apply_ite (Answer.map f), apply_ite (Answer.map f), hrefusal, hrefusal] at h
  exact h

end Entry

end Calls

variable {t : Tables} {c : Counters}

/-- The answer to a call: BUSY while something is pending, the input checks, and the ideal entry. -/
def WriteCall.reply (call : WriteCall) (actor : Actor) (timeout : UInt32) (pending : Bool) (t : Tables)
    (c : Counters) (clock : Nat → Sampled) : Answer Published :=
  if pending then refusal .busy t c
  else if call.check actor timeout = .ok then call.answer actor t c clock
  else refusal (call.check actor timeout) t c

theorem write_answered (hs : Schema t) (hb : Below t c) (call : WriteCall)
    (actor : Actor) (timeout : UInt32) (repo : Repo) (clock : Nat → Sampled)
    (faults : Nat → Option Fault) :
    Answered t c (call.reply actor timeout repo.pending t c clock)
      (call.run dbOps actor timeout repo (World.fresh t c clock faults)) := by
  cases call with
  | mkdir i =>
    exact published_db _ _ _ _ hs hb (sim_mkdirWork actor i) repo clock faults MkdirValue.published rfl
  | mkdirOnce i =>
    exact published_db _ _ _ _ hs hb (sim_mkdirOnceWork actor i) repo clock faults OnceValue.published rfl
  | move i =>
    exact published_db _ _ _ _ hs hb (sim_moveWork actor i) repo clock faults MoveValue.published rfl
  | moveOnce i =>
    exact published_db _ _ _ _ hs hb (sim_moveOnceWork actor i) repo clock faults OnceValue.published rfl
  | softDelete i =>
    exact published_db _ _ _ _ hs hb (sim_softDeleteWork actor i) repo clock faults SoftDeleteValue.published rfl
  | softDeleteOnce i =>
    exact published_db _ _ _ _ hs hb (sim_softDeleteOnceWork actor i) repo clock faults RemoveValue.published rfl

end Vireo.Persistence.Node
