/-
  File:      Vireo/Persistence/Ideal.lean
  Subject:   THE IDEAL REPOSITORY: what a call computes when no dependency fails.

  An `Ideal` program works on typed tables: it looks rows up, has a statement evaluated, reads the
  clock. It knows no leases, statements, cells or faults.
-/
import Vireo.Persistence.Mysql

namespace Vireo.Persistence

open Lib Prog

variable {I α : Type}

/-- A program on typed tables. -/
abbrev Ideal (I α : Type) := Prog Failure (View I) α

namespace Ideal

/-- Look something up in the tables. -/
def look (f : Tables → α) : Ideal I α := fun v => (.ok (f v.tables), v)

/-- Read the clock. -/
def sample : Ideal I UInt64 := fun v =>
  match (v.clock v.ticks).millis with
  | .ok now => (.ok now, { v with ticks := v.ticks + 1 })
  | .error f => (.error f, { v with
      ticks := v.ticks + 1
      err := v.err.note .utc f.val none false })

/-- Have a statement evaluated; `judge` says which replies are a success. -/
def evaluated (sql : Sql) (params : List Param) (stage : Stage)
    (judge : Reply → Except (Option DbError) α) : Ideal I α := fun v =>
  let e := exec sql params v.tables v.counters
  match judge e.reply with
  | .ok a => (.ok a, { v with tables := e.tables, counters := e.counters })
  | .error db => (.error .database, { v with
      tables := e.tables
      counters := e.counters
      err := v.err.note stage .database db false })

section Evaluated

variable {sql : Sql} {params : List Param} {stage : Stage} {judge : Reply → Except (Option DbError) α}
  {v : View I}

theorem evaluated_ok {a : α} (h : judge (exec sql params v.tables v.counters).reply = .ok a) :
    (evaluated sql params stage judge : Ideal I α) v = (.ok a, { v with
        tables := (exec sql params v.tables v.counters).tables
        counters := (exec sql params v.tables v.counters).counters }) := by
  rw [evaluated]
  rw [h]

theorem evaluated_error {db : Option DbError}
    (h : judge (exec sql params v.tables v.counters).reply = .error db) :
    (evaluated sql params stage judge : Ideal I α) v = (.error .database, { v with
        tables := (exec sql params v.tables v.counters).tables
        counters := (exec sql params v.tables v.counters).counters
        err := v.err.note stage .database db false }) := by
  rw [evaluated]
  rw [h]

end Evaluated

end Ideal

/-- The reply of a command: an insert must report one row and its id. -/
def Reply.judged (insert : Bool) (value : Execution → α) : Reply → Except (Option DbError) α
  | .rows _ => .error none
  | .refused code => .error (some ⟨.execute, code⟩)
  | .done n id =>
    if insert = true ∧ ¬ (n = 1 ∧ id ≠ 0) then .error none
    else .ok (value { started := true, affectedRows := n, insertId := id })

/-- An update must touch one row. -/
def Reply.touchedOne : Reply → Except (Option DbError) Unit
  | .done n _ => if n = 1 then .ok () else .error none
  | .refused code => .error (some ⟨.execute, code⟩)
  | .rows _ => .error none

theorem Diagnosis.note_note (e : Diagnosis) (st st' : Stage) {rc : Result} (hrc : rc ≠ .ok)
    (rc' : Result) (db db' : Option DbError) :
    (e.note st rc db false).note st' rc' db' false = e.note st rc db false := by
  have hstage : (e.note st rc db false).stage ≠ none := by
    simp only [note, if_neg hrc, Bool.false_eq_true, false_and, if_false]
    split
    · exact Option.some_ne_none _
    · assumption
  generalize e.note st rc db false = e' at hstage
  unfold note
  split
  · rfl
  · simp only [Bool.false_eq_true, false_and, if_false, if_neg hstage]

section Sims

variable [Inhabited I] [Accidents I] {s : Call World I} {s' : Call World I}

theorem Lost.lost (h : Lost s s') (hs : Quiet s) : (ideal I).lost s' :=
  ⟨h.faulted, by rw [h.issue, hs.issue]; exact Accidents.default_accident⟩

omit [Accidents I] in
theorem Amid.quiet (h : Amid s s') (hst : s'.statement = none) (hs : Quiet s) : Quiet s' := by
  have hw : s'.world.working = s.world.working := congrArg View.tables h.view
  have hc : s'.world.counters = s.world.counters := congrArg View.counters h.view
  have he : s'.err = s.err := congrArg View.err h.view
  exact ⟨h.faultless, hst, h.issue.trans hs.issue, he.trans hs.err, hw ▸ hs.schema,
    by rw [hw, hc]; exact hs.below⟩

/-- On the tables `t` the step returns `a` and leaves everything as it was, or a fault strikes. -/
def Reads (t : Tables) (p : Step World I α) (a : α) : Prop :=
  ∀ s, Quiet s → s.world.working = t → wp p
    (fun b s' => b = a ∧ Amid s s' ∧ s'.statement = none)
    (fun _ s' => Kept s s' ∧ (ideal I).lost s') s

section Reads

variable {t : Tables} {p : Step World I α} {a : α} {β : Type}

theorem Reads.pure (a : α) : Reads t (Pure.pure a : Step World I α) a :=
  fun _ hs _ => wp_pure.mpr ⟨rfl, .refl hs.faultless, hs.statement⟩

theorem Reads.bind {f : α → Step World I β} {b : β} (hp : Reads t p a) (hf : Reads t (f a) b) :
    Reads t (p >>= f) b := by
  intro s hs ht
  refine wp_bind.mpr (wp_mono (hp s hs ht) ?_ (fun _ _ h => h))
  rintro a' s' ⟨rfl, ha, hst⟩
  have hw : s'.world.working = s.world.working := congrArg View.tables ha.view
  refine wp_mono (hf s' (ha.quiet hst hs) (hw.trans ht)) ?_ ?_
  · rintro b' s'' ⟨rfl, hb, hst'⟩
    exact ⟨rfl, ⟨hb.faultless, hb.view.trans ha.view, ha.kept.trans hb.kept⟩, hst'⟩
  · rintro _ s'' ⟨hk, hl⟩
    exact ⟨ha.kept.trans hk, hl⟩

theorem Reads.map (hp : Reads t p a) (f : α → β) :
    Reads t (p >>= fun a => Pure.pure (f a)) (f a) := hp.bind (.pure (f a))

end Reads

theorem sim_look {p : Step World I α} {f : Tables → α} (h : ∀ t, Schema t → Reads t p (f t)) :
    Sim (ideal I) p (Ideal.look f) := by
  intro s hs
  refine wp_mono (h _ hs.schema s hs rfl) ?_ ?_
  · rintro a s' ⟨rfl, ha, hst⟩
    refine ⟨ha.kept, ha.quiet hst hs, ?_⟩
    show (Except.ok (f s.world.working), view s) = (.ok (f s.world.working), view s')
    rw [ha.view]
  · exact fun _ s' hl => ⟨hl.1, .inl hl.2⟩

theorem sim_captureUtc : Sim (ideal I) (captureUtc dbOps) Ideal.sample := by
  intro s hs
  let u := s.world.clock s.world.ticks
  let s₁ : Call World I := { s with world := { s.world with ticks := s.world.ticks + 1 } }
  have hk : Kept s s₁ := ⟨rfl, Counters.Le.refl _, rfl, rfl, rfl⟩
  refine wp_onError.mpr ?_
  cases hm : u.millis with
  | ok now =>
    refine wp_of_ok (a := now) (t := s₁) (by show (u.millis, s₁) = _; rw [hm]) ⟨hk, { hs with }, ?_⟩
    show (match u.millis with | .ok now => _ | .error f => _) = _
    rw [hm]
    rfl
  | error f =>
    refine wp_of_error (e := f) (t := s₁) (by show (u.millis, s₁) = _; rw [hm])
      ⟨⟨rfl, Counters.Le.refl _, rfl, rfl, rfl⟩, .inr ⟨⟨hs.faultless, hs.statement⟩, ?_⟩⟩
    show (match u.millis with | .ok now => _ | .error f => _) = _
    rw [hm]
    rfl

omit [Accidents I] in
theorem Quiet.evaluated (h : Quiet s) (sql : Sql) (params : List Param) :
    let e := exec sql params s.world.working s.world.counters
    s'.world.working = e.tables → s'.world.counters = e.counters → s'.world.faulted = false →
    s'.statement = none → s'.issue = s.issue → s'.err = s.err → Quiet s' := by
  intro e hw hc hf hst hi he
  have hsane := exec_sane sql params s.world.working s.world.counters
  refine ⟨hf, hst, hi.trans h.issue, he.trans h.err, ?_, ?_⟩
  · rw [hw]
    exact hsane.schema h.schema
  · rw [hw, hc]
    exact hsane.below h.below

/-- A command of a repository, as a step: `value` is what it returns of the execution. -/
def commanding (remap : Result → Result) (limits : Limits) (sql : Sql) (params : List Param)
    (stage : Stage) (insert : Bool) (value : Execution → α) : Step World I α := fun s =>
  let reply := command dbOps remap limits sql params stage insert false s
  (do succeed reply.1.result; pure (value reply.1.execution) : Step World I α) reply.2

theorem sim_command {remap : Result → Result} (hr : Faithful remap)
    (hdb : remap .database = .database) (limits : Limits) {sql : Sql} (hq : ¬ sql.Bracket)
    (params : List Param) (stage : Stage) (insert : Bool) (value : Execution → α) :
    Sim (ideal I) (commanding remap limits sql params stage insert value)
      (Ideal.evaluated sql params stage (Reply.judged insert value)) := by
  intro s hs
  have hok : remap .ok = .ok := (hr .ok).mpr rfl
  have hcommit : sql ≠ .commit := fun e => hq (.inr (.inl e))
  let r := command dbOps remap limits sql params stage insert false s
  let e := exec sql params s.world.working s.world.counters
  have hstep : commanding remap limits sql params stage insert value s =
      (succeed r.1.result >>= fun _ => pure (value r.1.execution) : Step World I α) r.2 := rfl
  refine (wp_congr hstep).mpr (wp_bind.mpr ?_)
  rcases command_db hr limits hcommit params stage insert false s with ⟨hne, hl⟩ | ⟨k, hrun⟩
  · exact wp_of_error (e := ⟨_, hne⟩) (succeed_fail ⟨_, hne⟩ _) ⟨hl.kept, .inl (hl.lost hs)⟩
  rw [World.evaluate_inner _ hq] at hrun
  have hkept : ∀ (st : Option Sql) (err : Diagnosis), Kept s { s with
      world := { s.world with
        working := e.tables, counters := e.counters, rows := [], calls := k }
      statement := st, err := err } := fun _ _ =>
    ⟨rfl, (exec_sane sql params s.world.working s.world.counters).counters, rfl, rfl, rfl⟩
  have hspec : Ideal.evaluated sql params stage (Reply.judged insert value) (view s) =
      match e.reply.judged insert value with
      | .ok a => (.ok a, { view s with tables := e.tables, counters := e.counters })
      | .error db => (.error .database, { view s with
          tables := e.tables
          counters := e.counters
          err := s.err.note stage .database db false }) := rfl
  rw [show r = _ from hrun]
  cases hreply : e.reply with
  | rows l =>
    rw [hreply] at hspec
    have he : (exec sql params s.world.working s.world.counters).reply = .rows l := hreply
    dsimp only
    simp only [he, Reply.executed, hok, Execution.misshapen, decide_true, Bool.true_or, Bool.and_self, if_true]
    refine wp_of_error (e := .database) rfl ⟨hkept _ _, .inr ⟨⟨hs.faultless, rfl⟩, ?_⟩⟩
    exact hspec
  | refused code =>
    rw [hreply] at hspec
    have he : (exec sql params s.world.working s.world.counters).reply = .refused code := hreply
    have hne : (Result.database = Result.ok) = False := by simp
    dsimp only
    simp only [he, Reply.executed, hdb, hne, decide_false, Bool.false_and, Bool.false_eq_true, if_false]
    refine wp_of_error (e := .database) rfl ⟨hkept _ _, .inr ⟨⟨hs.faultless, rfl⟩, ?_⟩⟩
    exact hspec
  | done n id =>
    rw [hreply] at hspec
    have he : (exec sql params s.world.working s.world.counters).reply = .done n id := hreply
    by_cases hbad : insert = true ∧ ¬ (n = 1 ∧ id ≠ 0)
    · have hmis : (⟨true, false, n, id⟩ : Execution).misshapen insert = true := by
        unfold Execution.misshapen
        simp only [Bool.false_or, hbad.1, Bool.true_and, Bool.or_eq_true, bne_iff_ne, ne_eq, beq_iff_eq]
        by_cases hn : n = 1
        · exact .inr (not_not.mp fun hid => hbad.2 ⟨hn, hid⟩)
        · exact .inl hn
      rw [show (Reply.done n id).judged insert value = .error none from if_pos hbad] at hspec
      dsimp only
      simp only [he, Reply.executed, hok, hmis, decide_true, Bool.and_self, if_true]
      refine wp_of_error (e := .database) rfl ⟨hkept _ _, .inr ⟨⟨hs.faultless, rfl⟩, ?_⟩⟩
      exact hspec
    · have hmis : (⟨true, false, n, id⟩ : Execution).misshapen insert = false := by
        unfold Execution.misshapen
        rw [not_and, not_not] at hbad
        cases insert with
        | false => rfl
        | true =>
          obtain ⟨hn, hid⟩ := hbad rfl
          simp [hn, hid]
      rw [show (Reply.done n id).judged insert value =
        .ok (value { started := true, affectedRows := n, insertId := id }) from if_neg hbad] at hspec
      dsimp only
      simp only [he, Reply.executed, hok, hmis, Bool.and_false, Bool.false_eq_true, if_false]
      refine wp_of_ok (a := ()) rfl (wp_pure.mpr ⟨hkept _ _, ?_, hspec⟩)
      exact hs.evaluated sql params rfl rfl hs.faultless rfl rfl rfl

end Sims

end Vireo.Persistence
