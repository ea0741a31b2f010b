/-
  File:      Vireo/Persistence/Node/Session.lean
  Subject:   FROM THE FIRST DEPENDENCY CALL TO THE LAST BEFORE COMMIT.
-/
import Vireo.Persistence.Node.Discipline

namespace Vireo.Persistence.Node

open Lib Prog List

variable {W α β : Type} {tr ev : List Event} {s : Call (W × List Event) Issue}

/-! ## 1. Rows read -/

/-- The events of reading cells `i, i + 1, …`. -/
def cellEvents (sql : Sql) : Nat → List Cell → List Event
  | _, [] => []
  | i, c :: cs => .cell sql i (.ok c) :: cellEvents sql (i + 1) cs

/-- The trace shows `sql` executed on `params`, answered, and its first row read as `cells`. -/
def RowRead (tr : List Event) (sql : Sql) (params : List Param) (cells : List Cell) : Prop :=
  ∃ x o, x.result = .ok ∧ o.result = .ok ∧ o.outcome = .row ∧
    (Event.executed sql params x :: .fetched sql o :: cellEvents sql 0 cells) <:+: tr

variable {cells : List Cell}

theorem RowRead.mono {sql : Sql} {params : List Param} (h : RowRead tr sql params cells) :
    RowRead (tr ++ ev) sql params cells := by
  obtain ⟨x, o, hx, ho, hr, hi⟩ := h
  exact ⟨x, o, hx, ho, hr, hi.trans (prefix_append tr ev).isInfix⟩

section Rows

variable (ops : Ops W) {s : Call (W × List Event) Issue}

theorem noRange_ok {rc : Result} : rc.noRange = .ok ↔ rc = .ok := by
  cases rc <;> decide

theorem wp_columnsFrom_read (sql : Sql) (n : Nat) : ∀ i (s : Call (W × List Event) Issue),
    wp (columnsFrom ops.traced sql i n)
      (fun cells s' => trace s' = trace s ++ cellEvents sql i cells) (fun _ _ => True) s := by
  induction n with
  | zero => exact fun i s => wp_pure.mpr (List.append_nil _).symm
  | succ n ih =>
    intro i s
    refine wp_bind.mpr ?_
    cases hc : (ops.column sql i s.world.1).1 with
    | error e => exact wp_of_error (e := e) (by unfold column; dsimp only; rw [← hc]; rfl) trivial
    | ok c =>
      refine wp_of_ok (a := c) (by unfold column; dsimp only; rw [← hc]; rfl) ?_
      refine wp_bind.mpr (wp_mono (ih (i + 1) _) (fun cells s' e => wp_pure.mpr ?_) (fun _ _ h => h))
      show trace s' = trace s ++ (.cell sql i (.ok c) :: cellEvents sql (i + 1) cells)
      rw [e, ← hc, append_cons]
      rfl

theorem wp_executing_read (limits : Limits) (sql : Sql) (params : List Param) (stage : Stage) :
    wp (executing ops.traced Result.noRange limits sql params stage)
      (fun _ s' => ∃ tr x, trace s' = tr ++ [.executed sql params x] ∧ x.result = .ok)
      (fun _ _ => True) s := by
  let r := prepareExecute ops.traced Result.noRange limits sql params stage false s
  have hrun : executing ops.traced Result.noRange limits sql params stage s =
      (succeed r.1.1 >>= fun _ => pure r.1.2 : NodeStep (W × List Event) Execution) r.2 := rfl
  refine wp_ran_pure (fun hok => ?_) (fun _ => trivial) hrun
  obtain ⟨hadds, hreply⟩ := prepareExecute_adds ops limits sql params stage false s fun _ => noRange_ok
  replace hok := (congrArg Prod.fst hreply).symm.trans hok
  split at hok
  · rename_i ho
    refine ⟨trace s ++ [.prepared sql limits (preparedBy ops limits sql s)], _, ?_, noRange_ok.mp hok⟩
    rw [hadds.extends', commandEvents, if_pos ho, append_assoc]
    rfl
  · exact absurd (noRange_ok.mp hok) ‹_›

theorem wp_readRow_read (sql : Sql) (stage : Stage) (n : Nat) : wp (readRow ops.traced sql stage n)
      (fun r s' => ∀ cells, r = some cells → ∃ o, o.result = .ok ∧ o.outcome = .row ∧
        trace s' = trace s ++ (.fetched sql o :: cellEvents sql 0 cells)) (fun _ _ => True) s := by
  refine wp_bind.mpr (wp_of_ok rfl (wp_onError.mpr (wp_mapError.mpr ?_)))
  refine wp_bind.mpr (wp_succeed (fun hok => ?_) fun _ => trivial)
  split
  · rename_i hrow
    refine wp_bind.mpr (wp_mono (wp_columnsFrom_read ops sql n 0 _) ?_ (fun _ _ h => h))
    refine fun cells s' e => wp_pure.mpr fun cells' hc => ?_
    refine ⟨_, hok, hrow, ?_⟩
    rw [← Option.some.inj hc, e, append_cons]
    rfl
  · exact wp_pure.mpr nofun
  · exact wp_fail.mpr trivial

theorem wp_lockRow_read (limits : Limits) (sql : Sql) (params : List Param) (stage stage' : Stage)
    (n : Nat) (check : List Cell → Option β) :
    wp (lockRow ops.traced limits sql params stage (readRow ops.traced sql stage' n) check)
      (fun r s' => ∀ v, r = some v → ∃ cells, check cells = some v ∧
        RowRead (trace s') sql params cells) (fun _ _ => True) s := by
  refine wp_bind.mpr (wp_mono (wp_executing_read ops limits sql params stage) ?_ (fun _ _ h => h))
  rintro ex s₁ ⟨tr, x, e₁, hx⟩
  split
  · exact wp_fail.mpr trivial
  refine wp_bind.mpr (wp_mono (wp_readRow_read ops sql stage' n) ?_ (fun _ _ h => h))
  intro row s₂ hrow
  cases row with
  | none => exact wp_pure.mpr nofun
  | some cells =>
    obtain ⟨o, ho, hr, e₂⟩ := hrow cells rfl
    cases hc : check cells with
    | none =>
      dsimp only
      rw [hc]
      exact wp_fail.mpr trivial
    | some v =>
      dsimp only
      rw [hc]
      refine wp_bind.mpr (wp_mono (((inner ops).uniqueEnd sql stage).wp s₂) ?_ (fun _ _ _ => trivial))
      refine fun _ s₃ h₃ => wp_pure.mpr fun v' hv => ?_
      obtain rfl := Option.some.inj hv
      refine ⟨cells, hc, ?_⟩
      obtain ⟨ev, e₃, -⟩ := h₃.extends'
      rw [e₃]
      refine .mono ⟨x, o, hx, ho, hr, tr, [], ?_⟩
      rw [e₂, e₁, List.append_nil, append_assoc]
      rfl

theorem wp_closing {p : NodeStep (W × List Event) α} {stage : Stage}
    {Q : α → Call (W × List Event) Issue → Prop} {E : Failure → Call (W × List Event) Issue → Prop}
    (h : wp p (fun a s₁ => ∀ s₂, Inner s₁ s₂ → Q a s₂ ∧ ∀ e, E e s₂)
      (fun e s₁ => ∀ s₂, Inner s₁ s₂ → E e s₂) s) : wp (closing ops.traced stage p) Q E s := by
  refine wp_always.mpr (wp_onError.mpr (wp_mono h ?_ ?_))
  · intro a s₁ h₁
    exact wp_mono ((inner ops).closeStatement.wp s₁) (fun _ s₂ k => (h₁ s₂ k).1)
      (fun e s₂ k => (h₁ s₂ k).2 e)
  · intro e s₁ h₁
    have hd : Inner s₁ (s₁.diagnose stage e.val none false) := Inner.diagnose s₁ stage e.val none
    exact wp_mono ((inner ops).closeStatement.wp _) (fun _ s₂ k => h₁ s₂ (hd.trans _ _ _ k))
      (fun _ s₂ k => h₁ s₂ (hd.trans _ _ _ k))

end Rows

/-! ## 2. User and session -/

/-- The trace shows the user row of `id`, and it is active. -/
def LockedUser (tr : List Event) (id : UInt64) : Prop :=
  ∃ lock c₀ c₁, RowRead tr (.userStatus lock) [.u64 id] [c₀, c₁] ∧ number c₀ = some id ∧ number c₁ = some 1

/-- The trace shows the session row of the actor: it belongs to his user, is active, was not revoked,
    and has the window `win`. -/
def LockedSession (tr : List Event) (actor : Actor) (win : Window) : Prop :=
  ∃ c₀ c₁ c₂ c₃ c₄ c₆, RowRead tr .sessionState [.u64 actor.sessionId] [c₀, c₁, c₂, c₃, c₄, none, c₆] ∧
    number c₀ = some actor.sessionId ∧ number c₁ = some actor.userId ∧ number c₂ = some 1 ∧
    number c₃ = some win.issued ∧ number c₄ = some win.expires

/-- The trace shows the locked user row and the locked session row of the actor. -/
structure Locked (tr : List Event) (actor : Actor) (win : Window) : Prop where
  user : LockedUser tr actor.userId
  session : LockedSession tr actor win

variable {id : UInt64}

theorem LockedUser.mono (h : LockedUser tr id) : LockedUser (tr ++ ev) id := by
  obtain ⟨lock, c₀, c₁, h, h'⟩ := h
  exact ⟨lock, c₀, c₁, h.mono, h'⟩

theorem LockedSession.mono {actor : Actor} {win : Window} (h : LockedSession tr actor win) :
    LockedSession (tr ++ ev) actor win := by
  obtain ⟨c₀, c₁, c₂, c₃, c₄, c₆, h, h'⟩ := h
  exact ⟨c₀, c₁, c₂, c₃, c₄, c₆, h.mono, h'⟩

theorem Locked.mono {actor : Actor} {win : Window} (h : Locked tr actor win) :
    Locked (tr ++ ev) actor win := ⟨h.user.mono, h.session.mono⟩

theorem userStatus_cells {v : UInt64} (h : userStatus id cells = some v) :
    ∃ c₀ c₁, cells = [c₀, c₁] ∧ number c₀ = some id ∧ number c₁ = some v := by
  unfold userStatus at h
  split at h
  · rename_i c₀ c₁
    split at h
    · rename_i vid status e₀ e₁
      split at h
      · cases h
      rename_i hc
      rw [not_or, not_not] at hc
      exact ⟨c₀, c₁, rfl, hc.1 ▸ e₀, (Option.some.inj h) ▸ e₁⟩
    · cases h
  · cases h

theorem sessionRead_cells {r : SessionRead} (h : sessionRead id cells = some r) (hs : r.status = 1) :
    ∃ c₀ c₁ c₂ c₃ c₄ c₆, cells = [c₀, c₁, c₂, c₃, c₄, none, c₆] ∧ number c₀ = some id ∧
      number c₁ = some r.userId ∧ number c₂ = some 1 ∧ number c₃ = some r.issued ∧
      number c₄ = some r.expires := by
  unfold sessionRead at h
  split at h
  · rename_i c₀ c₁ c₂ c₃ c₄ c₅ c₆
    split at h
    · rename_i vid user status issued expires revoked seen e₀ e₁ e₂ e₃ e₄ e₅ e₆
      split at h
      · cases h
      rename_i hc
      obtain rfl := Option.some.inj h
      obtain rfl : status = 1 := hs
      simp only [not_or, not_and, ne_eq, not_not, true_and] at hc
      have h5 : c₅ = none := by
        cases c₅ with
        | none => rfl
        | some b =>
          have hn : revoked.isSome = false := Bool.not_eq_true _ ▸ hc.2.2.2.2.2.2.1
          replace e₅ : (number (some b)).map some = some revoked := e₅
          obtain ⟨v, -, rfl⟩ := Option.map_eq_some_iff.mp e₅
          cases hn
      subst h5
      exact ⟨c₀, c₁, c₂, c₃, c₄, c₆, rfl, hc.1 ▸ e₀, e₁, e₂, e₃, e₄⟩
    · cases h
  · cases h

/-- The end of a call before its session was open. -/
structure Unopened (s₀ : Call (W × List Event) Issue) (f : Failure)
    (s : Call (W × List Event) Issue) : Prop where
  outer : Outer s₀ s
  unsampled : samples (trace s) = []
  cause : NoVerdict s ∨ (s.issue = .authRejected ∧ f = .notFound)

variable {s₀ : Call (W × List Event) Issue}

theorem Before.unopened (h : Before s₀ s) (f : Failure) :
    Unopened s₀ f s := { h with cause := .inl h.verdict }

section Locks

variable (ops : Ops W) {s₀ s : Call (W × List Event) Issue}

theorem wp_rejectActor {Q : α → Call (W × List Event) Issue → Prop} (hs : Before s₀ s) (stage : Stage) :
    wp (reject ⟨.authRejected, stage, .notFound⟩ : NodeStep (W × List Event) α)
      Q (fun e s₁ => ∀ s₂, Inner s₁ s₂ → Unopened s₀ e s₂) s := by
  refine wp_of_error rfl fun s₂ k => ?_
  refine ⟨(hs.outer.trans (outer_verdict s _)).trans k.outer, k.samples.trans hs.unsampled, ?_⟩
  rcases k.issue with hi | hi
  · exact .inr ⟨hi, rfl⟩
  · exact .inl (.inr hi)

theorem wp_lockUserRow (limits : Limits) (lock : Lock) (id : UInt64) (hs : Before s₀ s) :
    wp (lockUserRow ops.traced limits lock id)
      (fun _ s' => Before s₀ s' ∧ LockedUser (trace s') id) (Unopened s₀) s := by
  have hq : ¬ (Sql.userStatus lock).Bracket := by cases lock <;> decide
  refine wp_closing ops (wp_bind.mpr (wp_mono (wp_and
    (((inner ops).lockRow limits hq [.u64 id] .user ((inner ops).readRow _ .user 2) (userStatus id)).wp s)
    (wp_lockRow_read ops limits (.userStatus lock) [.u64 id] .user .user 2 (userStatus id))) ?_ ?_))
  · rintro status s₁ ⟨h₁, hread⟩
    have hb := hs.inner h₁
    split
    · rename_i hst
      refine wp_pure.mpr fun s₂ k => ?_
      obtain ⟨cells, hc, hr⟩ := hread 1 hst
      obtain ⟨c₀, c₁, rfl, e₀, e₁⟩ := userStatus_cells hc
      obtain ⟨ev, e, -⟩ := k.extends'
      refine ⟨⟨hb.inner k, lock, c₀, c₁, ?_, e₀, e₁⟩, fun f => (hb.inner k).unopened f⟩
      rw [e]
      exact hr.mono
    · exact wp_rejectActor hb .user
  · rintro e s₁ ⟨h₁, -⟩ s₂ k
    exact ((hs.inner h₁).inner k).unopened e

theorem wp_lockSession (actor : Actor) (hs : Before s₀ s) : wp (lockSession ops.traced actor)
      (fun win s' => Before s₀ s' ∧ LockedSession (trace s') actor win) (Unopened s₀) s := by
  have hq : ¬ Sql.sessionState.Bracket := by decide
  refine wp_closing ops (wp_bind.mpr (wp_mono (wp_and
    (((inner ops).lockRow readLimits hq [.u64 actor.sessionId] .session
      ((inner ops).readRow _ .session 7) (sessionRead actor.sessionId)).wp s)
    (wp_lockRow_read ops readLimits .sessionState [.u64 actor.sessionId] .session .session 7
      (sessionRead actor.sessionId))) ?_ ?_))
  · rintro row s₁ ⟨h₁, hread⟩
    have hb := hs.inner h₁
    cases row with
    | none => exact wp_rejectActor hb .session
    | some r =>
      dsimp only
      split
      · rename_i hr
        refine wp_pure.mpr fun s₂ k => ?_
        obtain ⟨cells, hc, hrow⟩ := hread r rfl
        obtain ⟨c₀, c₁, c₂, c₃, c₄, c₆, rfl, e₀, e₁, e₂, e₃, e₄⟩ := sessionRead_cells hc hr.2
        obtain ⟨ev, e, -⟩ := k.extends'
        refine ⟨⟨hb.inner k, c₀, c₁, c₂, c₃, c₄, c₆, ?_, e₀, hr.1 ▸ e₁, e₂, e₃, e₄⟩,
          fun f => (hb.inner k).unopened f⟩
        rw [e]
        exact hrow.mono
      · exact wp_rejectActor hb .session
  · rintro e s₁ ⟨h₁, -⟩ s₂ k
    exact ((hs.inner h₁).inner k).unopened e

end Locks

/-! ## 3. Commands -/

section Commands

variable (ops : Ops W)

theorem writeCommand_adds (sql : Sql) (params : List Param) (stage : Stage) (cleanup : Bool)
    (s : Call (W × List Event) Issue) :
    ∃ ev, Closes ev ∧ Adds (commandEvents ops writeLimits sql params s ++ ev) s
      (writeCommand ops.traced sql params stage false cleanup s).2 :=
  command_adds ops writeLimits sql params stage false cleanup s fun _ => noRange_ok

theorem note_cleanupResult (e : Diagnosis) (stage : Stage) (rc : Result) (db : Option DbError)
    (cleanup : Bool) (h : (e.note stage rc db cleanup).cleanupResult = .ok) :
    e.cleanupResult = .ok ∧ (cleanup = true → rc = .ok) := by
  cases cleanup with
  | false => exact ⟨(Diagnosis.note_cleanupResult_false ..).symm.trans h, nofun⟩
  | true =>
    have hk := Diagnosis.note_cleanupResult_true _ _ _ _ h
    exact ⟨hk.1, fun _ => hk.2⟩

/-- Only ROLLBACK is a cleanup command, so a command keeps the cleanup record true. -/
theorem coherent_writeCommand (sql : Sql) (params : List Param) (stage : Stage) (cleanup : Bool)
    (hr : sql = .rollback → cleanup = true) (s : Call (W × List Event) Issue) (h : Coherent s) :
    Coherent (writeCommand ops.traced sql params stage false cleanup s).2 := by
  let o := (ops.prepare sql writeLimits s.world.1).1
  let prep := prepareSql ops.traced Result.noRange writeLimits sql stage cleanup s
  let run := prepareExecute ops.traced Result.noRange writeLimits sql params stage cleanup s
  let bad := decide (run.1.1 = .ok) && run.1.2.misshapen false
  refine ((inner ops).closeStatement
    (if bad then run.2.diagnose stage .database none cleanup else run.2)).coherent ?_
  have hprep : Coherent prep.2 := by
    refine ⟨?_, fun hk => ?_⟩
    · show Option.isSome (if o.result = .ok ∨ o.left then some sql else s.statement) =
        openStatement (trace s ++ [.prepared sql writeLimits o])
      rw [openStatement_append, foldl_cons, foldl_nil, ← h.statement]
      exact isSome_prepared o sql s.statement
    · obtain ⟨hc, hrc⟩ := note_cleanupResult _ _ _ _ _ hk
      refine cleanupFine_append.mpr ⟨h.cleanup hc, forall_mem_singleton.mpr fun hq => ?_⟩
      exact noRange_ok.mp (hrc (hr hq))
  by_cases hp : prep.1 = .ok
  · have hrun : run = executeSql ops.traced Result.noRange sql params stage cleanup prep.2 :=
      if_pos hp
    let x := (ops.execute sql params prep.2.world.1).1
    have hfst : run.1 = (x.result.noRange, x.execution) := by rw [hrun]; rfl
    have htrace : trace run.2 = trace prep.2 ++ [.executed sql params x] := by rw [hrun]; rfl
    have hst : run.2.statement.isSome = openStatement (trace run.2) := by
      rw [htrace, openStatement_append, hrun]
      exact hprep.statement
    have hnote : run.2.err.cleanupResult = .ok →
        prep.2.err.cleanupResult = .ok ∧ (cleanup = true → x.result.noRange = .ok) := by
      rw [hrun]
      exact note_cleanupResult _ _ _ _ _
    -- a result set turns the good reply into a recorded failure, so the record implies both halves
    have hfine : ((if bad then run.2.diagnose stage .database none cleanup else run.2).err.cleanupResult
        = .ok) → run.2.err.cleanupResult = .ok ∧ (cleanup = true → bad = false) := by
      cases hb : bad with
      | false => exact fun hk => ⟨hk, fun _ => rfl⟩
      | true =>
        intro hk
        obtain ⟨hc, hrc⟩ := note_cleanupResult _ _ _ _ _ hk
        exact ⟨hc, fun hcl => nomatch hrc hcl⟩
    refine ⟨?_, fun hk => ?_⟩
    · split <;> exact hst
    obtain ⟨hc, hb⟩ := hfine hk
    obtain ⟨hc', hrc⟩ := hnote hc
    have htr : trace (if bad then run.2.diagnose stage .database none cleanup else run.2) =
        trace run.2 := by split <;> rfl
    rw [htr, htrace]
    refine cleanupFine_append.mpr ⟨hprep.cleanup hc', forall_mem_singleton.mpr fun hq => ?_⟩
    have hok := hrc (hr hq)
    have hbad := hb (hr hq)
    refine ⟨noRange_ok.mp hok, ?_⟩
    replace hbad : (decide (run.1.1 = .ok) && run.1.2.misshapen false) = false := hbad
    rw [hfst, decide_eq_true hok, Bool.true_and] at hbad
    exact (Bool.or_eq_false_iff.mp hbad).1
  · have hrun : run = ((prep.1, {}), prep.2) := if_neg hp
    have hbad : bad = false := by
      show (decide (run.1.1 = .ok) && _) = false
      rw [hrun, decide_eq_false hp, Bool.false_and]
    rw [hbad, hrun]
    exact hprep

end Commands

/-! ## 4. Before COMMIT -/

/-- No COMMIT, no ROLLBACK and no release yet; lease and transaction are those of the trace. -/
structure Pre (s : Call (W × List Event) Issue) : Prop where
  early : ∀ e ∈ trace s, e.Early
  coherent : Coherent s
  lease : s.lease = leaseHeld (trace s)
  transaction : s.transaction = true ↔ Started .begin (trace s)
  connection : s.transaction = true → s.connection = true

theorem Pre.outer {s' : Call (W × List Event) Issue} (h : Pre s) (k : Outer s s') : Pre s' := by
  obtain ⟨ev, e, hev⟩ := k.extends'
  refine ⟨?_, k.coherent h.coherent, ?_, ?_, ?_⟩
  · rw [e]
    exact forall_mem_append.mpr ⟨h.early, fun x hx => (hev x hx).early⟩
  · rw [e, k.lease, leaseHeld_of_neutral fun x hx => (hev x hx).leases]
    exact h.lease
  · rw [e, k.transaction, started_append, h.transaction]
    exact (or_iff_left (not_started_of_working hev)).symm
  · rw [k.transaction, k.connection]
    exact h.connection

/-- The end of a call before its session was open. -/
structure Refused (f : Failure) (s : Call (W × List Event) Issue) : Prop where
  pre : Pre s
  unsampled : samples (trace s) = []
  cause : NoVerdict s ∨ (s.issue = .authRejected ∧ f = .notFound)

theorem Unopened.refused {f : Failure} (h : Unopened s₀ f s) (h₀ : Pre s₀) :
    Refused f s := { h with pre := h₀.outer h.outer }

/-- A state on the way to the session: nothing said, nothing sampled. -/
structure Opening (s : Call (W × List Event) Issue) : Prop where
  pre : Pre s
  verdict : NoVerdict s
  unsampled : samples (trace s) = []

theorem Opening.refused (h : Opening s) (f : Failure) : Refused f s := { h with cause := .inl h.verdict }

theorem Opening.before (h : Opening s) : Before s s :=
  ⟨.refl s, h.verdict, h.unsampled⟩

section Opening

variable (ops : Ops W) {s : Call (W × List Event) Issue} {win : Window} {actor : Actor}

/-- What a call is before its transaction. -/
structure Fresh (s : Call (W × List Event) Issue) : Prop where
  opening : Opening s
  transaction : s.transaction = false

theorem Fresh.not_started (h : Fresh s) : ¬ Started .begin (trace s) := fun hb =>
  Bool.false_ne_true (h.transaction.symm.trans (h.opening.pre.transaction.mpr hb))

theorem fresh_enter (repo : Repo) (hp : repo.pending = false) (w : W) :
    Fresh (Call.enter repo (w, []) : Call (W × List Event) Issue) := by
  obtain ⟨hst, hl⟩ := Bool.or_eq_false_iff.mp hp
  refine ⟨⟨⟨fun _ h => (not_mem_nil h).elim, ⟨hst, fun _ _ h => (not_mem_nil h).elim⟩, hl,
    ⟨fun h => absurd h Bool.false_ne_true, ?_⟩, fun h => absurd h Bool.false_ne_true⟩, .inl rfl,
    rfl⟩, rfl⟩
  rintro ⟨_, _, h, _⟩
  cases h

theorem Fresh.event (h : Fresh s) {s' : Call (W × List Event) Issue} {e : Event}
    (htr : trace s' = trace s ++ [e]) (he : e.Early) (ho : ∀ b, e.opens b = b) (hc : e.CleanupFine)
    (hx : ∀ q p o, e ≠ .executed q p o) (hu : e.sample? = none)
    (hl : s'.lease = leaseHeld (trace s')) (hst : s'.statement = s.statement)
    (ht : s'.transaction = s.transaction) (hi : s'.issue = s.issue)
    (hr : s'.err.cleanupResult = s.err.cleanupResult) : Fresh s' := by
  have hpre := h.opening.pre
  refine ⟨⟨⟨?_, ⟨?_, fun hk => ?_⟩, hl, ?_, ?_⟩, ?_, ?_⟩, ht.trans h.transaction⟩
  · rw [htr]
    exact forall_mem_append.mpr ⟨hpre.early, forall_mem_singleton.mpr he⟩
  · rw [htr, openStatement_append, hst, hpre.coherent.statement]
    exact (ho _).symm
  · rw [htr]
    exact cleanupFine_append.mpr ⟨hpre.coherent.cleanup (hr ▸ hk), forall_mem_singleton.mpr hc⟩
  · rw [htr, started_append, ht, hpre.transaction]
    exact (or_iff_left fun ⟨_, _, hm, _⟩ => hx _ _ _ (mem_singleton.mp hm).symm).symm
  · rw [ht, h.transaction]
    exact nofun
  · unfold NoVerdict
    rw [hi]
    exact h.opening.verdict
  · rw [htr, samples_append, h.opening.unsampled]
    show (List.filterMap Event.sample? [e]) = []
    rw [filterMap_cons_none hu, filterMap_nil]

theorem wp_acquireLease (timeout : UInt32) (h : Fresh s) :
    wp (acquireLease ops.traced timeout) (fun _ s' => Fresh s') Refused s := by
  let o := (ops.acquire timeout s.world.1).1
  have h' : Fresh ({ s with
      world := ((ops.acquire timeout s.world.1).2, s.world.2 ++ [Event.acquired timeout o])
      lease := decide (o.result = Result.ok) || o.left }.diagnose .acquire o.result none false) := by
    refine h.event (e := .acquired timeout o) rfl trivial (fun _ => rfl) trivial
      (fun _ _ _ h => nomatch h) rfl ?_ rfl rfl rfl (Diagnosis.note_cleanupResult_false ..)
    show _ = leaseHeld (trace s ++ [.acquired timeout o])
    rw [leaseHeld_append]
    rfl
  exact wp_ran (fun _ => h') (fun _ => h'.opening.refused _) rfl

theorem wp_borrowConnection (h : Fresh s) :
    wp (borrowConnection ops.traced) (fun _ s' => Fresh s' ∧ s'.connection = true) Refused s := by
  let rc := (ops.borrow s.world.1).1
  have h' : Fresh ({ s with
      world := ((ops.borrow s.world.1).2, s.world.2 ++ [Event.borrowed rc])
      connection := decide (rc = Result.ok) || s.connection }.diagnose .borrow rc none false) := by
    refine h.event (e := .borrowed rc) rfl trivial (fun _ => rfl) trivial
      (fun _ _ _ h => nomatch h) rfl ?_ rfl rfl rfl (Diagnosis.note_cleanupResult_false ..)
    show s.lease = leaseHeld (trace s ++ [.borrowed rc])
    rw [leaseHeld_append, h.opening.pre.lease]
    rfl
  refine wp_ran (fun hok => ⟨h', ?_⟩) (fun _ => h'.opening.refused _) rfl
  show (decide (rc = .ok) || s.connection) = true
  rw [decide_eq_true (show rc = .ok from hok), Bool.true_or]

/-- BEGIN: the transaction may have started as soon as the execution has. -/
theorem wp_beginTransaction (h : Fresh s) (hcon : s.connection = true) :
    wp (beginTransaction ops.traced) (fun _ s' => Opening s') Refused s := by
  let reply := writeCommand ops.traced .begin [] .begin false false s
  have hheld : SameHeld s reply.2 :=
    sameHeld_command ops.traced Result.noRange writeLimits .begin [] .begin false false s
  have hcoh : Coherent reply.2 :=
    coherent_writeCommand ops .begin [] .begin false nofun s h.opening.pre.coherent
  obtain ⟨ev, hc, hadds⟩ := writeCommand_adds ops .begin [] .begin false s
  have hbegan := (command_shown ops writeLimits .begin [] .begin false (fun _ => noRange_ok) s).2 h.not_started
  change Started .begin (trace reply.2) ↔ reply.1.execution.started = true at hbegan
  have h' : Opening { reply.2 with transaction := reply.1.execution.started } := by
    refine ⟨⟨?_, { hcoh with }, ?_, hbegan.symm, ?_⟩, ?_, ?_⟩
    · show ∀ e ∈ trace reply.2, e.Early
      rw [hadds.extends']
      exact forall_mem_append.mpr ⟨h.opening.pre.early,
        command_early ops writeLimits _ _ hc (by decide) (by decide)⟩
    · exact hadds.leases (command_leases ops writeLimits _ _ hc) h.opening.pre.lease
    · exact fun _ => hheld.connection.trans hcon
    · show reply.2.issue = .none ∨ reply.2.issue = .receiptInvalid
      rw [hheld.issue]
      exact h.opening.verdict
    · show samples (trace reply.2) = []
      rw [hadds.extends', samples_append, h.opening.unsampled, command_samples ops writeLimits _ _ hc]
      rfl
  exact wp_ran (fun _ => h') (fun _ => h'.refused _) rfl

/-- **Opening**: the state after the session was locked, and every way not to get there. -/
theorem wp_openSession (plan : Plan) (timeout : UInt32) (actor : Actor) (repo : Repo)
    (hp : repo.pending = false) (w : W) :
    wp (openSession ops.traced plan timeout actor)
      (fun win s' => Opening s' ∧ Locked (trace s') actor win) Refused (Call.enter repo (w, [])) := by
  refine wp_bind.mpr (wp_mono (wp_acquireLease ops timeout (fresh_enter repo hp w)) ?_ (fun _ _ h => h))
  intro _ s₁ h₁
  refine wp_bind.mpr (wp_mono (wp_borrowConnection ops h₁) ?_ (fun _ _ h => h))
  rintro _ s₂ ⟨h₂, hc⟩
  refine wp_bind.mpr (wp_mono (wp_beginTransaction ops h₂ hc) ?_ (fun _ _ h => h))
  intro _ s₃ h₃
  have huser : wp (if plan.exclusive then lockMoveUser ops.traced actor.userId
      else lockUser ops.traced actor.userId)
      (fun _ s' => Before s₃ s' ∧ LockedUser (trace s') actor.userId) (Unopened s₃) s₃ := by
    split
    · exact wp_lockUserRow ops _ _ _ h₃.before
    · exact wp_lockUserRow ops _ _ _ h₃.before
  refine wp_bind.mpr (wp_mono huser ?_ (fun _ _ h => h.refused h₃.pre))
  rintro _ s₄ ⟨h₄, hu⟩
  have hb₄ : Before s₄ s₄ := ⟨.refl s₄, h₄.verdict, h₄.unsampled⟩
  have h₄' : Pre s₄ := h₃.pre.outer h₄.outer
  refine wp_mono (wp_lockSession ops actor hb₄) ?_ (fun _ _ h => h.refused h₄')
  rintro win s₅ ⟨h₅, hs⟩
  obtain ⟨ev, e, -⟩ := h₅.outer.extends'
  refine ⟨{ h₅ with pre := h₄'.outer h₅.outer }, ?_, hs⟩
  rw [e]
  exact hu.mono

/-- The state before COMMIT, or after a receipt was found. -/
structure AtCommit (actor : Actor) (s : Call (W × List Event) Issue) : Prop where
  pre : Pre s
  window : ∃ win, Locked (trace s) actor win ∧ samples (trace s) ≠ [] ∧ AllIn win (samples (trace s))

/-- The end of a call whose session was open. -/
structure Halted (actor : Actor) (f : Failure) (s : Call (W × List Event) Issue) : Prop where
  pre : Pre s
  window : ∃ win, Locked (trace s) actor win ∧
    ((s.issue = .authRejected ∧ f = .notFound) ∨
      (samples (trace s) ≠ [] ∧ AllIn win (samples (trace s))) ∨
      (NoVerdict s ∧ NoneOut win (samples (trace s))))

variable {s₀ : Call (W × List Event) Issue}

theorem Failed.halted {f : Failure} {s : Call (W × List Event) Issue} (h : Failed win s₀ f s) (h₀ : Pre s₀)
    (hl : Locked (trace s₀) actor win) : Halted actor f s := by
  obtain ⟨ev, e, -⟩ := h.outer.extends'
  exact ⟨h₀.outer h.outer, win, e ▸ hl.mono, h.cause⟩

theorem After.atCommit {s : Call (W × List Event) Issue} (h : After win s₀ s) (h₀ : Pre s₀)
    (hl : Locked (trace s₀) actor win) : AtCommit actor s := by
  obtain ⟨ev, e, -⟩ := h.outer.extends'
  exact ⟨h₀.outer h.outer, win, e ▸ hl.mono, h.sampled, h.inside⟩

/-- **Everything before COMMIT**: the state COMMIT starts from, and every way not to get there. -/
theorem wp_prepareCommit (plan : Plan) (timeout : UInt32) (actor : Actor)
    {work : Window → NodeStep (W × List Event) (Settled α)} {recovered : α → Prop}
    (hw : ∀ win, Sound win recovered (work win)) (repo : Repo) (hp : repo.pending = false) (w : W) :
    wp (prepareCommit ops.traced plan timeout actor work)
      (fun r s' => AtCommit actor s' ∧ ∀ a, r = .recovered a → recovered a)
      (fun f s' => Refused f s' ∨ Halted actor f s') (Call.enter repo (w, [])) := by
  refine wp_bind.mpr (wp_mono (wp_openSession ops plan timeout actor repo hp w) ?_ (fun _ _ h => .inl h))
  rintro win s₁ ⟨h₁, hl⟩
  refine wp_bind.mpr (wp_mono (hw win s₁ s₁ h₁.before) ?_ (fun _ _ h => .inr (h.halted h₁.pre hl)))
  rintro r s₂ ⟨h₂, hr⟩
  cases r with
  | recovered a => exact wp_pure.mpr ⟨h₂.atCommit h₁.pre hl, hr⟩
  | ready a =>
    refine wp_mono (wp_clock ops (k := fun _ => pure (.ready a)) h₂.outer h₂.verdict h₂.inside
      (Q := fun r s' => After win s₁ s' ∧ ∀ b, r = Settled.recovered b → recovered b) ?_) ?_ ?_
    · exact fun _ s₃ h₃ => wp_pure.mpr ⟨h₃, fun b e => nomatch e⟩
    · exact fun _ _ h => ⟨h.1.atCommit h₁.pre hl, h.2⟩
    · exact fun _ _ h => .inr (h.halted h₁.pre hl)

end Opening

end Vireo.Persistence.Node
