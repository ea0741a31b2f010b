/-
  File:      Vireo/Persistence/Mysql.lean
  Subject:   THE DEPENDENCIES AS A DATABASE THAT MAY FAIL AT ANY CALL.

  `World` is the server as one call of a repository meets it: the committed tables, the tables the
  transaction works on, the counters, the open result, the clock, and a plan of faults that decides at
  every dependency call whether it fails, what it leaves behind, and whether a failed execution took
  effect all the same. Transactions are atomic and run one after the other.
-/
import Vireo.Persistence.Server

namespace Vireo.Persistence

open Lib Prog
open Counters (Le)

/-! ## 1. The world -/

/-- A failed dependency call: what it returns, what it leaves, and whether a failed execution took
    effect. -/
structure Fault where
  failure : Failure
  error : DbError := {}
  left : Bool := false
  started : Bool := false
  applied : Bool := false
  released : Bool := false

/-- The rows of a reply. -/
def Reply.result : Reply → List (List Cell)
  | .rows r => r
  | _ => []

/-- What the driver reports of a reply. -/
def Reply.executed : Reply → Executed
  | .rows _ => ⟨.ok, { started := true, hasResult := true }, {}⟩
  | .done n id => ⟨.ok, { started := true, affectedRows := n, insertId := id }, {}⟩
  | .refused code => ⟨.database, { started := true }, ⟨.execute, code⟩⟩

structure World where
  committed : Tables
  working : Tables
  counters : Counters
  rows : List (List Cell) := []
  row : List Cell := []
  clock : Nat → Sampled
  ticks : Nat := 0
  faults : Nat → Option Fault
  calls : Nat := 0
  faulted : Bool := false

namespace World

/-- The fault of the next dependency call. -/
def fault (w : World) : Option Fault := w.faults w.calls

/-- After a dependency call that did not fail. -/
def next (w : World) : World := { w with calls := w.calls + 1 }

/-- After one that did. -/
def struck (w : World) : World := { w with calls := w.calls + 1, faulted := true }

/-- The evaluation of a statement by the server: BEGIN and ROLLBACK start from the committed tables,
    COMMIT publishes the working ones. -/
def evaluate (w : World) (sql : Sql) (params : List Param) : Executed × World :=
  match sql with
  | .begin => (⟨.ok, { started := true }, {}⟩, { w with working := w.committed })
  | .commit => (⟨.ok, { started := true }, {}⟩, { w with committed := w.working })
  | .rollback => (⟨.ok, { started := true }, {}⟩, { w with working := w.committed })
  | sql =>
    let e := exec sql params w.working w.counters
    (e.reply.executed, { w with
      working := e.tables
      counters := e.counters
      rows := e.reply.result })

end World

/-- The dependencies over a `World`. -/
def dbOps : Ops World where
  allocate w :=
    match w.fault with
    | some _ => (false, w.struck)
    | none => (true, w.next)
  acquire _ w :=
    match w.fault with
    | some f => (⟨f.failure.val, f.left⟩, w.struck)
    | none => (⟨.ok, false⟩, w.next)
  borrow w :=
    match w.fault with
    | some f => (f.failure.val, w.struck)
    | none => (.ok, w.next)
  prepare _ _ w :=
    match w.fault with
    | some f => (⟨f.failure.val, f.left, f.error⟩, w.struck)
    | none => (⟨.ok, false, {}⟩, w.next)
  execute sql params w :=
    match w.fault with
    | some f => (⟨f.failure.val, { started := f.started }, f.error⟩,
        (if f.started ∧ f.applied then (w.evaluate sql params).2 else w).struck)
    | none => ((w.evaluate sql params).1, (w.evaluate sql params).2.next)
  fetch _ w :=
    match w.fault with
    | some f => (⟨f.failure.val, .other, f.error⟩, w.struck)
    | none =>
      match w.rows with
      | [] => (⟨.ok, .done, {}⟩, w.next)
      | r :: rest => (⟨.ok, .row, {}⟩, { w with row := r, rows := rest }.next)
  column _ i w :=
    match w.fault with
    | some f => (.error f.failure, w.struck)
    | none =>
      match w.row[i]? with
      | some c => (.ok c, w.next)
      | none => (.error .range, w.next)
  close _ w :=
    match w.fault with
    | some f => (⟨f.failure.val, f.left, f.error⟩, w.struck)
    | none => (⟨.ok, false, {}⟩, { w with rows := [] }.next)
  utc w := (w.clock w.ticks, { w with ticks := w.ticks + 1 })
  release _ w :=
    match w.fault with
    | some f => (⟨f.failure.val, f.released, f.left⟩, w.struck)
    | none => (⟨.ok, true, false⟩, w.next)

/-- A call begins on a committed database. -/
def World.fresh (t : Tables) (c : Counters) (clock : Nat → Sampled) (faults : Nat → Option Fault) :
    World := { committed := t, working := t, counters := c, clock := clock, faults := faults }

/-! ## 2. The abstraction -/

/-- What a call without faults depends on. -/
@[ext]
structure View (I : Type) where
  tables : Tables
  counters : Counters
  clock : Nat → Sampled
  ticks : Nat
  issue : I
  err : Diagnosis

variable {I α β : Type} [Inhabited I]

def view (s : Call World I) : View I :=
  ⟨s.world.working, s.world.counters, s.world.clock, s.world.ticks, s.issue, s.err⟩

/-- What holds between any two states of a call before COMMIT. -/
structure Kept (s s' : Call World I) : Prop where
  committed : s'.world.committed = s.world.committed
  counters : s.world.counters.Le s'.world.counters
  lease : s'.lease = s.lease
  connection : s'.connection = s.connection
  transaction : s'.transaction = s.transaction

omit [Inhabited I] in
theorem Kept.refl (s : Call World I) : Kept s s := ⟨rfl, .refl _, rfl, rfl, rfl⟩

omit [Inhabited I] in
theorem Kept.trans {a b c : Call World I} (h : Kept a b) (k : Kept b c) : Kept a c :=
  ⟨k.committed.trans h.committed, h.counters.trans k.counters, k.lease.trans h.lease,
    k.connection.trans h.connection, k.transaction.trans h.transaction⟩

/-- Nothing has failed, no statement is open, nothing was said. -/
structure Quiet (s : Call World I) : Prop where
  faultless : s.world.faulted = false
  statement : s.statement = none
  issue : s.issue = default
  err : s.err = {}
  schema : Schema s.world.working
  below : Below s.world.working s.world.counters

/-- The issues a failed dependency call may leave behind. -/
class Accidents (I : Type) [Inhabited I] where
  accident : I → Prop
  default_accident : accident default

/-- The ideal repository: no faults, typed tables. -/
def ideal (I : Type) [Inhabited I] [Accidents I] : Abstraction (Call World I) (View I) where
  quiet := Quiet
  calm s := s.world.faulted = false ∧ s.statement = none
  lost s := s.world.faulted = true ∧ Accidents.accident s.issue
  keep := Kept
  view := view
  quiet_calm _ h := ⟨h.faultless, h.statement⟩
  refl := Kept.refl
  trans _ _ _ := Kept.trans

/-- A fault struck, and the committed tables are as they were. -/
structure Lost (s₀ s : Call World I) : Prop where
  faulted : s.world.faulted = true
  issue : s.issue = s₀.issue
  kept : Kept s₀ s

/-- A statement is under way: the view is that of the start. -/
structure Amid (s₀ s : Call World I) : Prop where
  faultless : s.world.faulted = false
  view : view s = view s₀
  kept : Kept s₀ s

theorem World.evaluate_kept (w : World) {sql : Sql} (hq : sql ≠ .commit) (params : List Param) :
    (w.evaluate sql params).2.committed = w.committed ∧
      w.counters.Le (w.evaluate sql params).2.counters := by
  have hs := exec_sane sql params w.working w.counters
  unfold World.evaluate
  split
  · exact ⟨rfl, .refl _⟩
  · exact absurd rfl hq
  · exact ⟨rfl, .refl _⟩
  · exact ⟨rfl, hs.counters⟩

theorem World.evaluate_inner (w : World) {sql : Sql} (hq : ¬ sql.Bracket) (params : List Param) :
    w.evaluate sql params =
      let e := exec sql params w.working w.counters
      (e.reply.executed, { w with
        working := e.tables
        counters := e.counters
        rows := e.reply.result }) := by
  unfold World.evaluate
  split
  · exact absurd (.inl rfl) hq
  · exact absurd (.inr (.inl rfl)) hq
  · exact absurd (.inr (.inr rfl)) hq
  · rfl

/-! ## 3. Statements under way -/

section Rules

omit [Inhabited I]

variable {s₀ s s' : Call World I} {sql : Sql} {remap : Result → Result}

theorem Kept.struck (h : Kept s₀ s) (hi : s'.issue = s₀.issue) (hf : s'.world.faulted = true)
    (hc : s'.world.committed = s.world.committed) (hn : s.world.counters.Le s'.world.counters)
    (hl : s'.lease = s.lease) (hcon : s'.connection = s.connection)
    (ht : s'.transaction = s.transaction) : Lost s₀ s' :=
  ⟨hf, hi, h.trans ⟨hc, hn, hl, hcon, ht⟩⟩

theorem Amid.issue (h : Amid s₀ s) : s.issue = s₀.issue := congrArg View.issue h.view

theorem Amid.refl (h : s.world.faulted = false) : Amid s s := ⟨h, rfl, .refl s⟩

theorem Amid.step (h : Amid s₀ s) (hf : s'.world.faulted = s.world.faulted) (hv : Persistence.view s' = Persistence.view s)
    (hc : s'.world.committed = s.world.committed) (hl : s'.lease = s.lease)
    (hcon : s'.connection = s.connection) (ht : s'.transaction = s.transaction) : Amid s₀ s' := by
  refine ⟨hf.trans h.faultless, hv.trans h.view, h.kept.trans ⟨hc, ?_, hl, hcon, ht⟩⟩
  have : s'.world.counters = s.world.counters := congrArg View.counters hv
  rw [this]
  exact .refl _

theorem succeed_ok (s : Call World I) : (succeed .ok : Step World I Unit) s = (.ok (), s) := rfl

theorem succeed_fail (f : Failure) (s : Call World I) :
    (succeed f.val : Step World I Unit) s = (.error f, s) := by
  unfold succeed
  rw [dif_neg f.property]
  rfl

theorem wp_closeStatement_lost (h : Lost s₀ s) :
    wp (closeStatement dbOps) (fun _ s' => Lost s₀ s') (fun _ s' => Lost s₀ s') s := by
  cases hs : s.statement with
  | none => exact wp_of_ok (a := ()) (t := s) (by unfold closeStatement; rw [hs]) h
  | some sql =>
    cases hf : s.world.fault with
    | none =>
      refine wp_of_ok (a := ()) (by unfold closeStatement dbOps; rw [hs]; dsimp only; rw [hf]; rfl) ?_
      exact h.kept.struck h.issue h.faulted rfl (.refl _) rfl rfl rfl
    | some f =>
      refine wp_of_error (e := f.failure)
        (by unfold closeStatement dbOps; rw [hs]; dsimp only; rw [hf]; exact succeed_fail _ _) ?_
      exact h.kept.struck h.issue rfl rfl (.refl _) rfl rfl rfl

theorem wp_closeStatement_amid (h : Amid s₀ s) :
    wp (closeStatement dbOps) (fun _ s' => Amid s₀ s' ∧ s'.statement = none)
      (fun _ s' => Lost s₀ s') s := by
  cases hs : s.statement with
  | none => exact wp_of_ok (a := ()) (t := s) (by unfold closeStatement; rw [hs]) ⟨h, hs⟩
  | some sql =>
    cases hf : s.world.fault with
    | none =>
      refine wp_of_ok (a := ()) (by unfold closeStatement dbOps; rw [hs]; dsimp only; rw [hf]; rfl) ?_
      exact ⟨h.step rfl rfl rfl rfl rfl rfl, rfl⟩
    | some f =>
      refine wp_of_error (e := f.failure)
        (by unfold closeStatement dbOps; rw [hs]; dsimp only; rw [hf]; exact succeed_fail _ _) ?_
      exact h.kept.struck h.issue rfl rfl (.refl _) rfl rfl rfl

theorem wp_closing_amid {p : Step World I α} {stage : Stage} {Q : α → Prop}
    (h : wp p (fun a s' => Q a ∧ Amid s₀ s') (fun _ s' => Lost s₀ s') s) :
    wp (closing dbOps stage p) (fun a s' => Q a ∧ Amid s₀ s' ∧ s'.statement = none)
      (fun _ s' => Lost s₀ s') s := by
  refine wp_always.mpr (wp_onError.mpr (wp_mono h ?_ ?_))
  · rintro a s₁ ⟨ha, h₁⟩
    exact wp_mono (wp_closeStatement_amid h₁) (fun _ _ h₂ => ⟨ha, h₂⟩) (fun _ _ h₂ => h₂)
  · intro e s₁ h₁
    have hd : Lost s₀ (s₁.diagnose stage e.val none false) :=
      h₁.kept.struck h₁.issue h₁.faulted rfl (.refl _) rfl rfl rfl
    exact wp_mono (wp_closeStatement_lost hd) (fun _ _ h₂ => h₂) (fun _ _ h₂ => h₂)

/-- A remapping of results that keeps success and failure apart. -/
def Faithful (remap : Result → Result) : Prop := ∀ rc, remap rc = .ok ↔ rc = .ok

theorem faithful_noRange : Faithful Result.noRange := by
  intro rc
  cases rc <;> decide

theorem World.evaluate_calls (w : World) (k : Nat) (sql : Sql) (params : List Param) :
    ({ w with calls := k }).evaluate sql params =
      ((w.evaluate sql params).1, { (w.evaluate sql params).2 with calls := k }) := by
  unfold World.evaluate
  split
  · rfl
  · rfl
  · rfl
  · rfl

/-- What is left when a fault struck while a statement was prepared or executed. -/
structure Struck (sql : Sql) (s s' : Call World I) : Prop where
  faulted : s'.world.faulted = true
  committed : s'.world.committed = s.world.committed ∨ (sql = .commit ∧ s'.world.committed = s.world.working)
  counters : s.world.counters.Le s'.world.counters
  lease : s'.lease = s.lease
  connection : s'.connection = s.connection
  transaction : s'.transaction = s.transaction
  issue : s'.issue = s.issue

theorem Struck.lost (h : Struck sql s s') (hq : sql ≠ .commit) (k : Kept s₀ s) (hi : s.issue = s₀.issue) :
    Lost s₀ s' :=
  k.struck (h.issue.trans hi) h.faulted (h.committed.resolve_right fun e => hq e.1) h.counters h.lease h.connection
    h.transaction

theorem prepareExecute_db (hr : Faithful remap) (limits : Limits) (sql : Sql) (params : List Param)
    (stage : Stage) (cleanup : Bool) (s : Call World I) :
    let r := prepareExecute dbOps remap limits sql params stage cleanup s
    let x := s.world.evaluate sql params
    (r.1.1 ≠ .ok ∧ Struck sql s r.2 ∧ (s.world.committed ≠ r.2.world.committed → r.1.2.started = true)) ∨
    ∃ k, r = ((remap x.1.result, x.1.execution), { s with
      world := { x.2 with calls := k }
      statement := some sql
      err := s.err.note stage (remap x.1.result) (some x.1.error) cleanup }) := by
  have hok : remap .ok = .ok := (hr .ok).mpr rfl
  have hfail : ∀ f : Failure, remap f.val ≠ .ok := fun f e => f.property ((hr _).mp e)
  intro r x
  cases hf : s.world.fault with
  | some f =>
    have hprep : prepareSql dbOps remap limits sql stage cleanup s = (remap f.failure.val, { s with
          world := s.world.struck
          statement := if f.failure.val = .ok ∨ f.left then some sql else s.statement
          err := s.err.note stage (remap f.failure.val) (some f.error) cleanup }) := by
      unfold prepareSql dbOps
      dsimp only
      rw [hf]
    have hrun : r = ((remap f.failure.val, {}), (prepareSql dbOps remap limits sql stage cleanup s).2) := by
      show prepareExecute dbOps remap limits sql params stage cleanup s = _
      unfold prepareExecute
      rw [hprep]
      exact if_neg (hfail f.failure)
    rw [hrun, hprep]
    exact .inl ⟨hfail _, ⟨rfl, .inl rfl, .refl _, rfl, rfl, rfl, rfl⟩, fun h => absurd rfl h⟩
  | none =>
    let s₁ : Call World I := { s with world := s.world.next, statement := some sql }
    have hprep : prepareSql dbOps remap limits sql stage cleanup s = (.ok, s₁) := by
      unfold prepareSql dbOps
      dsimp only
      rw [hf]
      rw [hok]
      unfold Diagnosis.note
      rfl
    have hrun : r = executeSql dbOps remap sql params stage cleanup s₁ := by
      show prepareExecute dbOps remap limits sql params stage cleanup s = _
      unfold prepareExecute
      rw [hprep]
      rfl
    have heval : s₁.world.evaluate sql params =
        (x.1, { x.2 with calls := s.world.calls + 1 }) := World.evaluate_calls _ _ _ _
    rw [hrun]
    cases hf' : s₁.world.fault with
    | some f =>
      refine .inl ?_
      have hex : executeSql dbOps remap sql params stage cleanup s₁ =
          ((remap f.failure.val, { started := f.started }), { s₁ with
            world := (if f.started ∧ f.applied then (s₁.world.evaluate sql params).2
              else s₁.world).struck
            err := s₁.err.note stage (remap f.failure.val) (some f.error) cleanup }) := by
        unfold executeSql dbOps
        dsimp only
        rw [hf']
      rw [hex]
      by_cases ha : f.started = true ∧ f.applied = true
      · rw [if_pos ha, heval]
        refine ⟨hfail _, ⟨rfl, ?_, ?_, rfl, rfl, rfl, rfl⟩, fun _ => ha.1⟩
        · by_cases hq : sql = .commit
          · subst hq
            exact .inr ⟨rfl, rfl⟩
          · exact .inl (s.world.evaluate_kept hq params).1
        · by_cases hq : sql = .commit
          · subst hq
            exact .refl _
          · exact (s.world.evaluate_kept hq params).2
      · rw [if_neg ha]
        exact ⟨hfail _, ⟨rfl, .inl rfl, .refl _, rfl, rfl, rfl, rfl⟩, fun h => absurd rfl h⟩
    | none =>
      refine .inr ⟨s.world.calls + 1 + 1, ?_⟩
      unfold executeSql dbOps
      dsimp only
      rw [hf', heval]
      rfl

/-- **A read**: its statement is prepared and executed, and its rows are there to be fetched. -/
theorem wp_executing_rows (hr : Faithful remap) (limits : Limits) (hq : ¬ sql.Bracket) {params : List Param}
    (stage : Stage) (h : Amid s₀ s) {rows : List (List Cell)}
    (hx : exec sql params s₀.world.working s₀.world.counters =
      ⟨.rows rows, s₀.world.working, s₀.world.counters⟩) :
    wp (executing dbOps remap limits sql params stage)
      (fun ex s' => (ex.hasResult = true ∧ s'.world.rows = rows) ∧ Amid s₀ s')
      (fun _ s' => Lost s₀ s') s := by
  have hok : remap .ok = .ok := (hr .ok).mpr rfl
  have hcommit : sql ≠ .commit := fun e => hq (.inr (.inl e))
  have hw : s.world.working = s₀.world.working := congrArg View.tables h.view
  have hn : s.world.counters = s₀.world.counters := congrArg View.counters h.view
  have heval : s.world.evaluate sql params =
      (⟨.ok, { started := true, hasResult := true }, {}⟩, { s.world with rows := rows }) := by
    rw [← hw, ← hn] at hx
    rw [World.evaluate_inner _ hq, hx]
    rfl
  let r := prepareExecute dbOps remap limits sql params stage false s
  have hrun : executing dbOps remap limits sql params stage s =
      (succeed r.1.1 >>= fun _ => pure r.1.2 : Step World I Execution) r.2 := rfl
  refine (wp_congr hrun).mpr (wp_bind.mpr ?_)
  rcases prepareExecute_db hr limits sql params stage false s with ⟨hne, hs, -⟩ | ⟨k, e⟩
  · refine wp_of_error (e := ⟨_, hne⟩) (succeed_fail ⟨_, hne⟩ _) ?_
    exact hs.lost hcommit h.kept h.issue
  · rw [heval] at e
    rw [show r = _ from e]
    rw [hok]
    exact wp_pure.mpr (wp_pure.mpr ⟨⟨rfl, rfl⟩, h.step rfl rfl rfl rfl rfl rfl⟩)

theorem fetching_db (sql : Sql) (h : Amid s₀ s) :
    (∃ f : Failure, ∃ db s', fetching dbOps sql s = (.ok ⟨f.val, .other, db⟩, s') ∧ Lost s₀ s') ∨
    (s.world.rows = [] ∧
      ∃ s', fetching dbOps sql s = (.ok ⟨.ok, .done, {}⟩, s') ∧ Amid s₀ s' ∧ s'.world.rows = []) ∨
    (∃ r rest, s.world.rows = r :: rest ∧
      ∃ s', fetching dbOps sql s = (.ok ⟨.ok, .row, {}⟩, s') ∧ Amid s₀ s' ∧ s'.world.rows = rest ∧
        s'.world.row = r) := by
  unfold fetching dbOps
  dsimp only
  cases hf : s.world.fault with
  | some f =>
    exact .inl ⟨f.failure, f.error, _, rfl, h.kept.struck h.issue rfl rfl (.refl _) rfl rfl rfl⟩
  | none =>
    cases hrows : s.world.rows with
    | nil =>
      refine .inr (.inl ⟨rfl, _, rfl, h.step rfl rfl rfl rfl rfl rfl, hrows⟩)
    | cons r rest =>
      exact .inr (.inr ⟨r, rest, rfl, _, rfl, h.step rfl rfl rfl rfl rfl rfl, rfl, rfl⟩)

theorem wp_columnsFrom_db (sql : Sql) (n : Nat) : ∀ (i : Nat) (s : Call World I), Amid s₀ s →
    i + n = s.world.row.length → wp (columnsFrom dbOps sql i n)
      (fun cells s' => cells = s.world.row.drop i ∧ s'.world.rows = s.world.rows ∧ Amid s₀ s')
      (fun _ s' => Lost s₀ s') s := by
  induction n with
  | zero =>
    intro i s h hi
    refine wp_pure.mpr ⟨?_, rfl, h⟩
    rw [List.drop_eq_nil_of_le (by omega)]
  | succ n ih =>
    intro i s h hi
    refine wp_bind.mpr ?_
    have hlt : i < s.world.row.length := by omega
    cases hf : s.world.fault with
    | some f =>
      refine wp_of_error (e := f.failure) (by unfold column dbOps; dsimp only; rw [hf]) ?_
      exact h.kept.struck h.issue rfl rfl (.refl _) rfl rfl rfl
    | none =>
      have hget : s.world.row[i]? = some s.world.row[i] := List.getElem?_eq_getElem hlt
      refine wp_of_ok (a := s.world.row[i]) (t := { s with world := s.world.next })
        (by unfold column dbOps; dsimp only; rw [hf]; dsimp only; rw [hget]) ?_
      refine wp_bind.mpr (wp_mono (ih (i + 1) _ (h.step rfl rfl rfl rfl rfl rfl) ?_) ?_ (fun _ _ h => h))
      · show i + 1 + n = s.world.row.length
        omega
      · rintro cells s' ⟨rfl, hrows, hs'⟩
        refine wp_pure.mpr ⟨?_, hrows, hs'⟩
        rw [List.drop_eq_getElem_cons hlt]
        rfl

omit [Inhabited I] in
theorem Lost.diagnose (h : Lost s₀ s) (stage : Stage) (rc : Result) (db : Option DbError) :
    Lost s₀ (s.diagnose stage rc db false) :=
  h.kept.struck h.issue h.faulted rfl (.refl _) rfl rfl rfl

theorem wp_readRow_db (sql : Sql) (stage : Stage) {n : Nat} (h : Amid s₀ s)
    (hn : ∀ r ∈ s.world.rows.head?, r.length = n) :
    wp (readRow dbOps sql stage n)
      (fun r s' => r = s.world.rows.head? ∧ s'.world.rows = s.world.rows.tail ∧ Amid s₀ s')
      (fun _ s' => Lost s₀ s') s := by
  refine wp_bind.mpr ?_
  rcases fetching_db sql h with ⟨f, db, s', e, hl⟩ | ⟨hrows, s', e, ha, hr'⟩ |
    ⟨r, rest, hrows, s', e, ha, hr', hrow⟩
  · refine wp_of_ok e (wp_onError.mpr (wp_mapError.mpr (wp_bind.mpr ?_)))
    exact wp_of_error (succeed_fail f s') (hl.diagnose _ _ _)
  · refine wp_of_ok e (wp_onError.mpr (wp_mapError.mpr ?_))
    rw [hrows]
    exact wp_of_ok rfl ⟨rfl, hr', ha⟩
  · refine wp_of_ok e (wp_onError.mpr (wp_mapError.mpr (wp_bind.mpr (wp_of_ok (succeed_ok s') ?_))))
    have hlen : r.length = n := hn r (by rw [hrows]; rfl)
    refine wp_bind.mpr (wp_mono (wp_columnsFrom_db sql n 0 s' ha (by rw [hrow]; omega)) ?_
      (fun _ _ hl => hl.diagnose _ _ _))
    rintro cells s'' ⟨rfl, hr'', ha''⟩
    rw [hrows]
    refine wp_pure.mpr ⟨?_, hr''.trans hr', ha''⟩
    rw [hrow]
    rfl

theorem wp_uniqueEnd_db (sql : Sql) (stage : Stage) (h : Amid s₀ s) (hrows : s.world.rows = []) :
    wp (uniqueEnd dbOps sql stage) (fun _ s' => Amid s₀ s') (fun _ s' => Lost s₀ s') s := by
  refine wp_bind.mpr ?_
  rcases fetching_db sql h with ⟨f, db, s', e, hl⟩ | ⟨-, s', e, ha, -⟩ | ⟨r, rest, hr, -⟩
  · refine wp_of_ok e (wp_onError.mpr (wp_mapError.mpr (wp_bind.mpr ?_)))
    exact wp_of_error (succeed_fail f s') (hl.diagnose _ _ _)
  · refine wp_of_ok e (wp_onError.mpr (wp_mapError.mpr ?_))
    exact wp_of_ok rfl ha
  · rw [hrows] at hr
    cases hr

/-- **A command**: a fault strikes, or the statement is evaluated, its reply classified and the
    statement closed. -/
theorem command_db (hr : Faithful remap) (limits : Limits) (hq : sql ≠ .commit) (params : List Param)
    (stage : Stage) (insert cleanup : Bool) (s : Call World I) :
    let r := command dbOps remap limits sql params stage insert cleanup s
    let x := s.world.evaluate sql params
    let bad := decide (remap x.1.result = .ok) && x.1.execution.misshapen insert
    let rc := if bad then .database else remap x.1.result
    let err := s.err.note stage (remap x.1.result) (some x.1.error) cleanup
    (r.1.result ≠ .ok ∧ Lost s r.2) ∨
    ∃ k, r = (⟨rc, x.1.execution, decide (rc = .ok)⟩, { s with
      world := { x.2 with rows := [], calls := k }
      statement := none
      err := if bad then err.note stage .database none cleanup else err }) := by
  intro r x bad rc err
  let run := prepareExecute dbOps remap limits sql params stage cleanup s
  let bad' := decide (run.1.1 = .ok) && run.1.2.misshapen insert
  let s₁ := if bad' then run.2.diagnose stage .database none cleanup else run.2
  have hr₁ : r = (⟨(if bad' then .database else run.1.1).first (.ofExcept (closeStatement dbOps s₁).1),
      run.1.2, decide ((if bad' then .database else run.1.1) = .ok)⟩, (closeStatement dbOps s₁).2) := rfl
  rcases prepareExecute_db hr limits sql params stage cleanup s with ⟨hne, hs, -⟩ | ⟨k, e⟩
  · refine .inl ?_
    have hbad : bad' = false := by
      show (decide (run.1.1 = .ok) && _) = false
      rw [decide_eq_false hne, Bool.false_and]
    have hlost : Lost s s₁ := by
      show Lost s (if bad' then run.2.diagnose stage .database none cleanup else run.2)
      rw [hbad]
      exact hs.lost hq (Kept.refl s) rfl
    rw [hr₁, hbad]
    refine ⟨?_, ?_⟩
    · show Result.first run.1.1 _ ≠ .ok
      rw [Result.first_of_ne hne]
      exact hne
    · have hc := wp_closeStatement_lost hlost
      unfold wp at hc
      split at hc <;> rename_i e <;> rw [e] <;> exact hc
  · have hfst : run.1 = (remap x.1.result, x.1.execution) := congrArg Prod.fst e
    have hsnd : run.2 = { s with
        world := { x.2 with calls := k }
        statement := some sql
        err := err } := congrArg Prod.snd e
    have hbad : bad' = bad := by
      show (decide (run.1.1 = .ok) && run.1.2.misshapen insert) = _
      rw [hfst]
    have hs₁ : s₁ = { s with
        world := { x.2 with calls := k }
        statement := some sql
        err := if bad then err.note stage .database none cleanup else err } := by
      show (if bad' then run.2.diagnose stage .database none cleanup else run.2) = _
      rw [hbad, hsnd]
      cases bad <;> rfl
    have hkept : Kept s s₁ := by
      rw [hs₁]
      exact ⟨(s.world.evaluate_kept hq params).1, (s.world.evaluate_kept hq params).2, rfl, rfl, rfl⟩
    cases hf : s₁.world.fault with
    | some f =>
      refine .inl ?_
      have hclose : closeStatement dbOps s₁ = (.error f.failure, { s₁ with
          world := s₁.world.struck
          statement := if f.left then some sql else none }.diagnose .statementClose f.failure.val
            (some f.error) true) := by
        have hst₁ : s₁.statement = some sql := by rw [hs₁]
        unfold closeStatement dbOps
        rw [hst₁]
        dsimp only
        rw [hf]
        exact succeed_fail _ _
      rw [hr₁, hclose]
      exact ⟨Result.first_ne f.failure.property _,
        hkept.struck (by rw [hs₁]; rfl) rfl rfl (Le.refl _) rfl rfl rfl⟩
    | none =>
      refine .inr ⟨s₁.world.calls + 1, ?_⟩
      have hclose : closeStatement dbOps s₁ = (.ok (), { s₁ with
          world := { s₁.world with rows := [] }.next
          statement := none }) := by
        have hst₁ : s₁.statement = some sql := by rw [hs₁]
        unfold closeStatement dbOps
        rw [hst₁]
        dsimp only
        rw [hf]
        rfl
      rw [hr₁, hclose, hbad, hfst]
      show (CommandReply.mk (Result.first rc .ok) _ _, _) = _
      rw [Result.first_ok, hs₁]
      rfl

end Rules

end Vireo.Persistence
