/-
  File:      Vireo/Persistence/MigrationHistory.lean
  Subject:   WHAT THE CHECKS OF A MIGRATION RUN ESTABLISH.
-/
import Vireo.Persistence.MigrationServer

namespace Vireo.Persistence.Migrator

open Lib Action

variable {c₀ : Context Server} {P : Context Server → Prop}

/-! ## 1. Rows -/

/-- Reading from `c₀` on, with these rows still to come. -/
def Open (c₀ : Context Server) (rows : List (List Cell)) (c : Context Server) : Prop :=
  Reads c₀ c ∧ c.world.rows = rows

/-- Reading from `c₀` on, at a row, with these rows still to come. -/
def OnRow (c₀ : Context Server) (row : List Cell) (rows : List (List Cell)) (c : Context Server) : Prop :=
  Reads c₀ c ∧ c.world.row = row ∧ c.world.rows = rows

theorem fail_world (r : Result) (issue : Issue) (database : Option DbError) (c : Context Server) :
    (c.fail r issue database).world = c.world := by
  unfold Context.fail
  split <;> rfl

theorem onRow_fail {row : List Cell} {rows : List (List Cell)} {c : Context Server} (h : OnRow c₀ row rows c)
    (r : Result) (issue : Issue) (database : Option DbError) :
    OnRow c₀ row rows (c.fail r issue database) := by
  refine ⟨.trans _ _ _ h.1 (reads_fail _ _ _ _), ?_, ?_⟩
  · rw [fail_world]
    exact h.2.1
  · rw [fail_world]
    exact h.2.2

theorem fetch_row (sql : MigrationSql) (rows : List (List Cell)) :
    Triple (Open c₀ rows) (fetch serverOps sql) fun o c => Reads c₀ c ∧
      (o.result = .ok → (o.outcome = .done ∧ rows = []) ∨
        (o.outcome = .row ∧ ∃ r rest, rows = r :: rest ∧ OnRow c₀ r rest c)) := by
  intro c ⟨hc, hrows⟩
  unfold fetch
  dsimp only [serverOps]
  cases hf : c.world.fault with
  | some f =>
    exact ⟨Reads.trans _ _ _ hc ⟨Server.same_tick _, rfl, id⟩, fun hok => absurd hok f.failure.property⟩
  | none =>
    dsimp only
    cases hnext : c.world.rows with
    | nil =>
      refine ⟨Reads.trans _ _ _ hc ⟨Server.same_tick _, rfl, id⟩, fun _ => .inl ⟨rfl, ?_⟩⟩
      exact hrows.symm.trans hnext
    | cons r rest =>
      have hreads : Reads c₀ { c with world := { c.world with row := r, rows := rest }.tick } :=
        Reads.trans _ _ _ hc ⟨⟨rfl, rfl, rfl, rfl⟩, rfl, id⟩
      exact ⟨hreads, fun _ => .inr ⟨rfl, r, rest, hrows.symm.trans hnext, hreads, rfl, rfl⟩⟩

theorem triple_fail {α : Type} {Q : α → Context Server → Prop} {r : Result} {issue : Issue}
    {database : Option DbError} {a : α} (hr : r ≠ .ok)
    (h : ∀ c, P c → (c.fail r issue database).result ≠ .ok → Q a (c.fail r issue database)) :
    Triple P (Action.modify (Context.fail r issue database) >>= fun _ => pure a) Q :=
  fun c hc => h c hc (fail_result hr _ _ _)

section

variable (sql : MigrationSql)

theorem next_row (rows : List (List Cell)) :
    Triple (Open c₀ rows) (next serverOps sql) fun b c => Reads c₀ c ∧
      (b = true → ∃ r rest, rows = r :: rest ∧ OnRow c₀ r rest c) ∧ (b = false → c.result = .ok → rows = []) := by
  refine .bind (fetch_row sql rows) fun o => .ite (fun hbad => ?_) fun hgood => ?_
  · exact triple_fail hbad fun c hc hne =>
      ⟨.trans _ _ _ hc.1 (reads_fail _ _ _ c), nofun, fun _ hok => absurd hok hne⟩
  · refine .pure fun c ⟨hc, ho⟩ => ⟨hc, fun hb => ?_, fun hb _ => ?_⟩
    · rcases ho (not_not.mp hgood) with ⟨hdone, -⟩ | ⟨-, hr⟩
      · rw [hdone] at hb
        cases hb
      · exact hr
    · rcases ho (not_not.mp hgood) with ⟨-, hnil⟩ | ⟨hrow, -⟩
      · exact hnil
      · rw [hrow] at hb
        cases hb

theorem goodNext_row (rows : List (List Cell)) :
    Triple (Open c₀ rows) (both good (next serverOps sql)) fun b c => Reads c₀ c ∧
      (b = true → ∃ r rest, rows = r :: rest ∧ OnRow c₀ r rest c) ∧ (b = false → c.result = .ok → rows = []) := by
  refine .bind (Q := fun ok c => Open c₀ rows c ∧ ok = decide (c.result = .ok))
    (.read fun c hc => ⟨hc, rfl⟩) fun ok => .ite (fun _ => ?_) fun hbad => ?_
  · exact (next_row sql rows).pre fun c hc => hc.1
  · refine .pure fun c ⟨hc, hok⟩ => ⟨hc.1, nofun, fun _ hgood => ?_⟩
    exact absurd (hok.trans (decide_eq_true hgood)) hbad

theorem column_row (i : Nat) (row : List Cell) (rows : List (List Cell)) :
    Triple (OnRow c₀ row rows) (column serverOps sql i) fun o c => OnRow c₀ row rows c ∧
      ∀ v, o = .ok v → row[i]? = some v := by
  intro c ⟨hc, hrow, hrows⟩
  have hstep : OnRow c₀ row rows { c with world := c.world.tick } :=
    ⟨Reads.trans _ _ _ hc ⟨Server.same_tick _, rfl, id⟩, hrow, hrows⟩
  unfold column
  dsimp only [serverOps]
  cases hf : c.world.fault with
  | some f => exact ⟨hstep, fun v hv => nomatch hv⟩
  | none =>
    dsimp only
    cases hget : c.world.row[i]? with
    | none => exact ⟨hstep, fun v hv => nomatch hv⟩
    | some cell =>
      refine ⟨hstep, fun v hv => ?_⟩
      cases hv
      rw [← hrow]
      exact hget

theorem cell_row (i : Nat) (row : List Cell) (rows : List (List Cell)) :
    Triple (OnRow c₀ row rows) (cell serverOps sql i) fun v c => OnRow c₀ row rows c ∧
      (c.result = .ok → row[i]? = some v) := by
  refine .bind (column_row sql i row rows) fun o => ?_
  cases o with
  | error f => exact triple_fail f.property fun c hc hne => ⟨onRow_fail hc.1 _ _ _, fun hok => absurd hok hne⟩
  | ok v => exact .pure fun c hc => ⟨hc.1, fun _ => hc.2 v rfl⟩

theorem number_row (i : Nat) (row : List Cell) (rows : List (List Cell)) :
    Triple (OnRow c₀ row rows) (number serverOps sql i) fun n c => OnRow c₀ row rows c ∧
      (c.result = .ok → ∃ v, row[i]? = some v ∧ n = number32 v) := by
  refine .bind (cell_row sql i row rows) fun v => ?_
  refine .bind (Q := fun ok c => (OnRow c₀ row rows c ∧ (c.result = .ok → row[i]? = some v)) ∧
    ok = decide (c.result = .ok)) (.read fun c hc => ⟨hc, rfl⟩) fun ok => ?_
  refine .pure fun c ⟨⟨hc, hv⟩, hok⟩ => ⟨hc, fun hgood => ⟨v, hv hgood, ?_⟩⟩
  rw [if_pos (hok.trans (decide_eq_true hgood))]

end

/-! ## 2. The checks of the schema -/

/-- What a check leaves: nothing was written, and a check that does not pass makes the run fail. -/
def Checked (c₀ : Context Server) (b : Bool) (c : Context Server) : Prop :=
  Reads c₀ c ∧ (b = false → c.result ≠ .ok)

theorem Checked.of_reads {b : Bool} {c c' : Context Server} (h : Checked c₀ b c) (k : Reads c c') :
    Checked c₀ b c' :=
  ⟨.trans _ _ _ h.1 k, fun hb => k.failed (h.2 hb)⟩

theorem checked_fail {r : Result} {issue : Issue} {database : Option DbError} (hr : r ≠ .ok)
    (h : ∀ c, P c → Reads c₀ c) :
    Triple P (Action.modify (Context.fail r issue database) >>= fun _ => pure false) (Checked c₀) :=
  triple_fail hr fun c hc hne => ⟨.trans _ _ _ (h c hc) (reads_fail _ _ _ c), fun _ => hne⟩

theorem inspect_open (sql : MigrationSql) (rows : List (List Cell)) :
    Triple (Open c₀ rows) (inspect serverOps sql) fun _ => Open c₀ rows := by
  intro c ⟨hc, hrows⟩
  refine ⟨.trans _ _ _ hc (reads_inspect sql c), ?_⟩
  unfold inspect
  dsimp only [serverOps]
  split <;> exact hrows

theorem startShape_open (sql : MigrationSql) (count columns : Nat) (execution : Execution)
    (rows : List (List Cell)) :
    Triple (Open c₀ rows) (startShape serverOps sql count columns execution) fun b c =>
      Checked c₀ b c ∧ c.world.rows = rows := by
  have hfail : ∀ {r : Result} {issue : Issue}, r ≠ .ok → Triple (Open c₀ rows)
      (.modify (.fail r issue none) >>= fun _ => pure false) fun b c =>
        Checked c₀ b c ∧ c.world.rows = rows := by
    intro r issue hr
    refine triple_fail hr fun c hc hne =>
      ⟨⟨.trans _ _ _ hc.1 (reads_fail _ _ _ c), fun _ => hne⟩, ?_⟩
    rw [fail_world]
    exact hc.2
  refine .bind (inspect_open sql rows) fun o => ?_
  cases o with
  | error f => exact hfail f.property
  | ok info =>
    exact .ite (fun _ => hfail (by decide)) fun _ =>
      Triple.pure fun c hc => ⟨⟨hc.1, nofun⟩, hc.2⟩

variable {sql : MigrationSql}

theorem execute_open (h : sql.writes = false) (params : List MigrationParam) :
    Triple (Reads c₀) (execute serverOps sql params false) fun o c => Reads c₀ c ∧
      (o.result = .ok → ∃ w, c₀.world.Same w ∧ w.verdict sql params = .rows c.world.rows) := by
  intro c hc
  refine ⟨.trans _ _ _ hc (reads_execute h params c), fun hok => ?_⟩
  have hworld : (execute serverOps sql params false c).2.world = (serverOps.execute sql params c.world).2 := rfl
  have hresult : (execute serverOps sql params false c).1 = (serverOps.execute sql params c.world).1 := rfl
  rw [hresult] at hok
  rw [hworld]
  rcases execute_cases sql params c.world with ⟨hbad, -⟩ | ho
  · exact absurd hok hbad
  rw [ho] at hok ⊢
  refine ⟨c.world, hc.world, ?_⟩
  unfold Server.evaluate at hok ⊢
  split at hok
  · cases hok
  · rename_i rows hv
    rw [hv]
    rfl
  · rename_i hv
    exact absurd hv (c.world.verdict_read h params _)

theorem start_spec (h : sql.writes = false) (params : List MigrationParam) (columns : Nat) :
    Triple (Reads c₀) (start serverOps sql params columns false) fun r c => Checked c₀ r.1 c ∧
      (r.1 = true → ∃ w, c₀.world.Same w ∧ w.verdict sql params = .rows c.world.rows) := by
  have hstop : ∀ {r : Result} {database : Option DbError} {ex : Execution} {P : Context Server → Prop},
      r ≠ .ok → (∀ c, P c → Reads c₀ c) → Triple P
        (.modify (.fail r .none database) >>= fun _ => pure (false, ex)) fun r c =>
          Checked c₀ r.1 c ∧ (r.1 = true → ∃ w, c₀.world.Same w ∧ w.verdict sql params = .rows c.world.rows) :=
    fun hr hP => triple_fail hr fun c hc hne =>
      ⟨⟨.trans _ _ _ (hP c hc) (reads_fail _ _ _ c), fun _ => hne⟩, nofun⟩
  refine .bind (Q := fun _ => Reads c₀) (.modify fun c hc => .trans _ _ _ hc ⟨.refl _, rfl, id⟩)
    fun _ => ?_
  refine .bind ((reads_prepare sql _).triple c₀ Reads.trans) fun o => .ite (fun hbad => ?_) fun _ => ?_
  · exact hstop hbad fun c hc => hc
  refine .bind (execute_open h params) fun o => .ite (fun hbad => ?_) fun hgood => ?_
  · exact hstop hbad fun c hc => hc.1
  refine .bind (Q := fun _ c => ∃ rows, Open c₀ rows c ∧
    ∃ w, c₀.world.Same w ∧ w.verdict sql params = .rows rows) (.modify fun c ⟨hc, hrows⟩ => ?_) fun _ => ?_
  · obtain ⟨w, hw, hv⟩ := hrows (not_not.mp hgood)
    exact ⟨_, ⟨.trans _ _ _ hc ⟨.refl _, rfl, id⟩, rfl⟩, w, hw, hv⟩
  intro c ⟨rows, hc, w, hw, hv⟩
  obtain ⟨hchecked, hrows⟩ := startShape_open sql params.length columns o.execution rows c hc
  exact ⟨hchecked, fun _ => ⟨w, hw, hv.trans (by rw [← hrows]; rfl)⟩⟩

theorem checked_keeps {α : Type} {b : Bool} {m : Step Server α} (h : Keeps Reads m) :
    Triple (Checked c₀ b) m fun _ => Checked c₀ b := fun c hc => hc.of_reads (h c)

theorem checked_good (h : ∀ c, P c → Reads c₀ c) : Triple P good (Checked c₀) :=
  fun c hc => ⟨h c hc, fun hb => of_decide_eq_false hb⟩

theorem reads_triple {α : Type} {m : Step Server α} (h : Keeps Reads m) :
    Triple (Reads c₀) m fun _ => Reads c₀ := h.triple c₀ Reads.trans

theorem checked_shape {p : Prop} [Decidable p] {b : Bool} {issue : Issue} (hp : b = false → p)
    (h : ∀ c, P c → Reads c₀ c) :
    Triple P (when p (Action.modify (Context.shape issue))) fun _ => Checked c₀ b := by
  refine .when (fun _ => .modify fun c hc => ?_) fun hn c hc => ?_
  · exact ⟨.trans _ _ _ (h c hc) (reads_shape _ c), fun _ => shape_result _ c⟩
  · exact ⟨h c hc, fun hb => absurd (hp hb) hn⟩

theorem scalar_spec (h : sql.writes = false) (params : List MigrationParam) :
    Triple (Reads c₀) (scalar serverOps sql params) fun v => Checked c₀ v.isSome := by
  refine .bind ((start_spec h params 1).post fun r c hc => hc.1) fun r => ?_
  refine .ite (fun _ => ?_) fun hr => ?_
  · refine .bind ((reads_triple (reads_next sql)).pre fun c hc => hc.1) fun row => ?_
    refine .bind (reads_triple (.ite (reads_number sql 0) (reads_pure none))) fun value => ?_
    refine .bind (checked_shape (b := value.isSome) (fun hv => ?_) fun c hc => hc) fun _ => ?_
    · cases value with
      | none => rfl
      | some n => cases hv
    refine .bind (checked_keeps (reads_lastRow sql _)) fun _ => ?_
    refine .bind (checked_keeps reads_stop) fun _ => ?_
    refine .bind (Q := fun ok c => Checked c₀ value.isSome c ∧ Checked c₀ ok c) (fun c hc =>
      ⟨hc, checked_good (fun _ hP => hP) c hc.1⟩) fun ok => ?_
    cases ok with
    | true => exact .pure fun c hc => hc.1
    | false => exact .pure fun c hc => hc.2
  · exact .pure fun c hc => ⟨hc.1, fun _ => hc.2 (Bool.eq_false_iff.mpr hr)⟩

variable (database : MigrationParam)

theorem tableExists_spec :
    Triple (Reads c₀) (tableExists serverOps database) fun v c => Checked c₀ v.isSome c ∧
      (∀ b, v = some b → b = c₀.world.history.isSome) := by
  refine .bind (start_spec rfl [database] 3) fun r => .ite (fun hr => ?_) fun hr => ?_
  · refine .bind (Q := fun found c => Reads c₀ c ∧ (c.result = .ok → found = c₀.world.history.isSome))
      (fun c ⟨hc, hrows⟩ => ?_) fun found => ?_
    · obtain ⟨w, hw, hv⟩ := hrows hr
      obtain ⟨hreads, hfound, hend⟩ := next_row .table c.world.rows c ⟨hc.1, rfl⟩
      refine ⟨hreads, fun hok => ?_⟩
      have htable : w.tableRows = c.world.rows := Verdict.rows.inj hv
      rw [← hw.history]
      unfold Server.tableRows at htable
      cases hb : (next serverOps .table c).1 with
      | true =>
        obtain ⟨r, rest, hcons, -⟩ := hfound hb
        rw [hcons] at htable
        split at htable
        · rename_i hs
          exact hs.symm
        · cases htable
      | false =>
        rw [hend hb hok] at htable
        split at htable
        · cases htable
        · rename_i hn
          exact (Bool.eq_false_iff.mpr hn).symm
    · have hrest : Keeps Reads (do
          let same ← both (equals serverOps .table 0 (ascii "BASE TABLE"))
            (both (equals serverOps .table 1 (ascii "InnoDB"))
              (equals serverOps .table 2 (ascii "vireo_schema_migrations")))
          when (!same) (.modify (.shape .metadataShape))
          lastRow serverOps .table .metadataShape : Step Server Unit) :=
        reads_bind (reads_both (reads_equals _ _ _) (reads_both (reads_equals _ _ _) (reads_equals _ _ _)))
          fun _ => reads_bind (reads_when (reads_modify_shape _)) fun _ => reads_lastRow _ _
      have hkeep : ∀ {α : Type} {m : Step Server α}, Keeps Reads m →
          Triple (fun c => Reads c₀ c ∧ (c.result = .ok → found = c₀.world.history.isSome)) m
            fun _ c => Reads c₀ c ∧ (c.result = .ok → found = c₀.world.history.isSome) :=
        fun hm c hc => ⟨.trans _ _ _ hc.1 (hm c), fun hok => hc.2 ((hm c).good hok)⟩
      refine .bind (hkeep (reads_when hrest)) fun _ => .bind (hkeep reads_stop) fun _ => ?_
      refine .bind (Q := fun ok c => Checked c₀ ok c ∧ (ok = true → found = c₀.world.history.isSome))
        (fun c hc => ⟨checked_good (fun _ hP => hP) c hc.1, fun hok => hc.2 (of_decide_eq_true hok)⟩) fun ok => ?_
      cases ok with
      | true =>
        refine .pure fun c hc => ⟨hc.1, fun b hb => ?_⟩
        cases hb
        exact hc.2 rfl
      | false => exact .pure fun c hc => ⟨hc.1, fun b hb => nomatch hb⟩
  · exact .pure fun c hc => ⟨⟨hc.1.1, fun _ => hc.1.2 (Bool.eq_false_iff.mpr hr)⟩, fun b hb => nomatch hb⟩

theorem emptySchema_spec : Triple (Reads c₀) (emptySchema serverOps database) (Checked c₀) := by
  refine .bind (scalar_spec rfl [database]) fun v => ?_
  cases v with
  | none => exact .pure fun c hc => hc
  | some n =>
    refine .bind ((reads_triple (reads_when (reads_modify_shape _))).pre fun c hc => hc.1) fun _ => ?_
    exact checked_good fun c hc => hc

theorem reads_columnMatches (expected : Bytes × Bytes × Bytes) :
    Keeps Reads (columnMatches serverOps expected) := by
  refine reads_both (reads_equals _ _ _) (reads_both (reads_either (reads_equals _ _ _) (reads_equals _ _ _)) ?_)
  refine reads_both (reads_equals _ _ _) (reads_both (reads_isNull _ _) ?_)
  exact reads_both (reads_equals _ _ _) (reads_equals _ _ _)

theorem reads_columnLoop (expected : List (Bytes × Bytes × Bytes)) :
    Keeps Reads (columnLoop serverOps expected) := by
  induction expected with
  | nil =>
    exact reads_bind (reads_both reads_good (reads_next _)) fun _ =>
      reads_bind (reads_when (reads_modify_shape _)) fun _ => reads_pure _
  | cons e rest ih =>
    refine reads_bind (reads_both reads_good (reads_next _)) fun _ => .ite ?_ (reads_pure _)
    refine reads_bind (reads_columnMatches e) fun _ => .ite ih ?_
    exact reads_bind (reads_modify_shape _) fun _ => reads_pure _

theorem reads_primaryKey : Keeps Reads (primaryKey serverOps) := by
  refine reads_both (reads_next _) (reads_both (reads_equals _ _ _) (reads_both (reads_equals _ _ _) ?_))
  refine reads_both (reads_equals _ _ _) (reads_both (reads_equals _ _ _) ?_)
  exact reads_both (reads_isNull _ _) (reads_equals _ _ _)

theorem countLoop_spec {queries : List MigrationSql} (h : ∀ sql ∈ queries, sql.writes = false) :
    Triple (Reads c₀) (countLoop serverOps database queries) (Checked c₀) := by
  induction queries with
  | nil => exact .pure fun c hc => ⟨hc, nofun⟩
  | cons sql rest ih =>
    refine .bind (scalar_spec (h sql List.mem_cons_self) [database]) fun v => ?_
    cases v with
    | none => exact .pure fun c hc => hc
    | some n =>
      refine .ite (fun _ => checked_fail (by decide) fun c hc => hc.1) fun _ => ?_
      exact (ih fun sql hsql => h sql (List.mem_cons_of_mem _ hsql)).pre fun c hc => hc.1

theorem metadata_spec : Triple (Reads c₀) (metadata serverOps database) (Checked c₀) := by
  have hgo : ∀ {b : Bool} {m : Step Server Bool}, Triple (Reads c₀) m (Checked c₀) →
      Triple (Checked c₀ b) (if b then m else pure false) (Checked c₀) := by
    intro b m hm
    cases b with
    | true => exact hm.pre fun c hc => hc.1
    | false => exact .pure fun c hc => hc
  have hstart : ∀ sql : MigrationSql, sql.writes = false →
      Triple (Reads c₀) (start serverOps sql [database] 6 false) fun r => Checked c₀ r.1 :=
    fun sql h => (start_spec h [database] 6).post fun r c hc => hc.1
  refine .bind (hstart .columns rfl) fun r => hgo ?_
  refine .bind (reads_triple (reads_columnLoop _)) fun complete => ?_
  refine .bind (reads_triple (reads_when (reads_modify_shape _))) fun _ => ?_
  refine .bind (reads_triple reads_stop) fun _ => ?_
  refine .bind (checked_good fun c hc => hc) fun ok => hgo ?_
  refine .bind (hstart .statistics rfl) fun r => hgo ?_
  refine .bind (reads_triple reads_primaryKey) fun key => ?_
  refine .bind (reads_triple (reads_when (reads_modify_shape _))) fun _ => ?_
  refine .bind (reads_triple (reads_lastRow _ _)) fun _ => ?_
  refine .bind (reads_triple reads_stop) fun _ => ?_
  refine .bind (checked_good fun c hc => hc) fun ok => hgo ?_
  exact countLoop_spec database (by decide)

/-! ## 3. The history -/

/-- The rows of the versions `n + 1, n + 2, …`, applied, with these hashes. -/
def appliedRows (n : Nat) : List Digest → List HistoryRow
  | [] => []
  | hash :: hashes => ⟨UInt32.ofNat (n + 1), hash.val, 1⟩ :: appliedRows (n + 1) hashes

theorem historyRow_spec (count n : Nat) (r : HistoryRow) (rows : List (List Cell)) :
    Triple (OnRow c₀ r.cells rows) (historyRow serverOps count n) fun v c => OnRow c₀ r.cells rows c ∧
      (c.result = .ok → v = some (some r.checksum) ∧ r.version.toNat = n + 1 ∧ n + 1 ≤ count ∧ r.state = 1) := by
  have hfail : ∀ {issue : Issue} {P : Context Server → Prop} {φ : Option Cell → Prop},
      (∀ c, P c → OnRow c₀ r.cells rows c) → Triple P
        (.modify (.shape issue) >>= fun _ => pure none) fun v c =>
          OnRow c₀ r.cells rows c ∧ (c.result = .ok → φ v) :=
    fun hP => triple_fail (by decide) fun c hc hne => ⟨onRow_fail (hP c hc) _ _ _, fun hok => absurd hok hne⟩
  refine .bind (number_row .selectHistory 0 _ _) fun v => ?_
  cases v with
  | none => exact hfail fun c hc => hc.1
  | some version =>
    refine .bind (Q := fun _ c => OnRow c₀ r.cells rows c ∧ (c.result = .ok → version = r.version.toNat))
      (.modify fun c ⟨hc, hv⟩ => ⟨⟨.trans _ _ _ hc.1 ⟨.refl _, rfl, id⟩, hc.2⟩, fun hok => ?_⟩)
      fun _ => ?_
    · obtain ⟨cell, hcell, hnumber⟩ := hv hok
      cases hcell
      rw [number32_decimal r.version.toNat_lt] at hnumber
      exact Option.some.inj hnumber
    refine .ite (fun _ => hfail fun c hc => hc.1) fun hversion => ?_
    refine .ite (fun _ => hfail fun c hc => hc.1) fun hcount => ?_
    refine .bind (Q := fun state c => OnRow c₀ r.cells rows c ∧
      (c.result = .ok → version = r.version.toNat ∧ state = some r.state.toNat)) (fun c hc => ?_) fun state => ?_
    · obtain ⟨hrow, hnumber⟩ := number_row .selectHistory 2 _ _ c hc.1
      refine ⟨hrow, fun hok => ?_⟩
      obtain ⟨cell, hcell, hstate⟩ := hnumber hok
      cases hcell
      have hlt : r.state.toNat < 2 ^ 32 := lt_trans r.state.toNat_lt (by decide)
      rw [number32_decimal hlt] at hstate
      exact ⟨hc.2 ((reads_number _ _ c).good hok), hstate⟩
    cases state with
    | none => exact hfail fun c hc => hc.1
    | some state =>
      refine .ite (fun _ => hfail fun c hc => hc.1) fun hone => ?_
      refine .ite (fun _ => hfail fun c hc => hc.1) fun hzero => ?_
      refine .bind (Q := fun cell c => OnRow c₀ r.cells rows c ∧
        (c.result = .ok → (version = r.version.toNat ∧ some state = some r.state.toNat) ∧
          cell = some r.checksum)) (fun c hc => ?_) fun cell => .pure fun c hc => ⟨hc.1, fun hok => ?_⟩
      · obtain ⟨hrow, hcell⟩ := cell_row .selectHistory 1 _ _ c hc.1
        refine ⟨hrow, fun hok => ⟨hc.2 ((reads_cell _ _ c).good hok), ?_⟩⟩
        exact (Option.some.inj (hcell hok)).symm
      · obtain ⟨⟨hv, hs⟩, rfl⟩ := hc.2 hok
        have hst : state = r.state.toNat := Option.some.inj hs
        refine ⟨rfl, by omega, by omega, UInt8.toNat_inj.mp ?_⟩
        show r.state.toNat = 1
        omega

theorem historyLoop_spec (count : Nat) (hashes : List Digest) : ∀ (n : Nat) (rows : List HistoryRow),
    n + hashes.length = count →
    Triple (Open c₀ (rows.map HistoryRow.cells)) (historyLoop serverOps count n hashes) fun k c => Reads c₀ c ∧
      (c.result = .ok → ∃ j, k = n + j ∧ j ≤ hashes.length ∧ rows = appliedRows n (hashes.take j)) := by
  induction hashes generalizing c₀ with
  | nil =>
    intro n rows hn
    unfold historyLoop
    refine .bind (goodNext_row .selectHistory _) fun b => ?_
    cases b with
    | false =>
      refine .pure fun c ⟨hc, _, hend⟩ => ⟨hc, fun hok => ⟨0, rfl, le_refl 0, ?_⟩⟩
      exact List.map_eq_nil_iff.mp (hend rfl hok)
    | true =>
      refine .pre ?_ fun c hc => hc.2.1 rfl
      refine .exists fun cells => .exists fun rest => .assume fun hcons => ?_
      obtain ⟨r, rows', rfl, rfl, rfl⟩ := List.map_eq_cons_iff.mp hcons
      refine .bind (historyRow_spec count n r _) fun v => ?_
      refine .post (Q := fun k c => Reads c₀ c ∧ c.result ≠ .ok) ?_ fun k c hk =>
        ⟨hk.1, fun hok => absurd hok hk.2⟩
      have hnot : ∀ c : Context Server, (c.result = .ok → v = some (some r.checksum) ∧
          r.version.toNat = n + 1 ∧ n + 1 ≤ count ∧ r.state = 1) → c.result ≠ .ok := by
        intro c hpass hok
        obtain ⟨-, -, hle, -⟩ := hpass hok
        rw [← hn] at hle
        exact absurd hle (by simp)
      cases v with
      | none => exact .pure fun c hc => ⟨hc.1.1, hnot c hc.2⟩
      | some checksum => exact .pure fun c hc => ⟨hc.1.1, hnot c hc.2⟩
  | cons hash hashes ih =>
    intro n rows hn
    unfold historyLoop
    refine .bind (goodNext_row .selectHistory _) fun b => ?_
    cases b with
    | false =>
      refine .pure fun c ⟨hc, _, hend⟩ => ⟨hc, fun hok => ⟨0, rfl, Nat.zero_le _, ?_⟩⟩
      exact List.map_eq_nil_iff.mp (hend rfl hok)
    | true =>
      refine .pre ?_ fun c hc => hc.2.1 rfl
      refine .exists fun cells => .exists fun rest => .assume fun hcons => ?_
      obtain ⟨r, rows', rfl, rfl, rfl⟩ := List.map_eq_cons_iff.mp hcons
      refine .bind (historyRow_spec count n r _) fun v => ?_
      have hfail : ∀ {issue : Issue}, Triple
          (fun c => OnRow c₀ r.cells (rows'.map HistoryRow.cells) c ∧ (c.result = .ok →
            v = some (some r.checksum) ∧ r.version.toNat = n + 1 ∧ n + 1 ≤ count ∧ r.state = 1))
          (.modify (.shape issue) >>= fun _ => pure n) fun k c => Reads c₀ c ∧
            (c.result = .ok → ∃ j, k = n + j ∧ j ≤ (hash :: hashes).length ∧
              r :: rows' = appliedRows n ((hash :: hashes).take j)) :=
        triple_fail (by decide) fun c hc hne =>
          ⟨.trans _ _ _ hc.1.1 (reads_fail _ _ _ c), fun hok => absurd hok hne⟩
      rcases v with _ | _ | bytes
      · refine .pure fun c hc => ⟨hc.1.1, fun hok => ?_⟩
        cases (hc.2 hok).1
      · exact hfail
      · refine .ite (fun _ => hfail) fun _ => .ite (fun _ => hfail) fun hsame => ?_
        intro c hc
        have hsame : bytes = hash.val := not_not.mp hsame
        have hloop := @ih c (n + 1) rows' (by rw [← hn, List.length_cons]; omega) c ⟨.refl c, hc.1.2.2⟩
        refine ⟨.trans _ _ _ hc.1.1 hloop.1, fun hok => ?_⟩
        obtain ⟨j, hk, hj, hrows⟩ := hloop.2 hok
        obtain ⟨hchecksum, hversion, -, hstate⟩ := hc.2 (hloop.1.good hok)
        have hr : r = ⟨UInt32.ofNat (n + 1), hash.val, 1⟩ := by
          cases r with
          | mk version checksum state =>
            cases hchecksum
            rw [← hversion, ← hsame, UInt32.ofNat_toNat]
            exact congrArg _ hstate
        refine ⟨j + 1, by rw [hk]; omega, Nat.succ_le_succ hj, ?_⟩
        rw [List.take_succ_cons, appliedRows, ← hrows, hr]

/-- **A history that passes** is applied, with the hashes of the catalogue, and reported as its
    prefix. -/
theorem history_spec (hashes : List Digest) (database : MigrationParam) :
    Triple (Reads c₀) (history serverOps hashes database) fun b c => Checked c₀ b c ∧
      (b = true → c.report.appliedBefore ≤ hashes.length ∧ ∃ rows, c₀.world.history = some rows ∧
        sortRows rows = appliedRows 0 (hashes.take c.report.appliedBefore)) := by
  have hstop : ∀ {P : Context Server → Prop}, (∀ c, P c → Checked c₀ false c) →
      Triple P (pure false : Step Server Bool) fun b c => Checked c₀ b c ∧
        (b = true → c.report.appliedBefore ≤ hashes.length ∧ ∃ rows, c₀.world.history = some rows ∧
          sortRows rows = appliedRows 0 (hashes.take c.report.appliedBefore)) :=
    fun hP => .pure fun c hc => ⟨hP c hc, nofun⟩
  refine .bind (start_spec rfl [] 3) fun r => .ite (fun hr => ?_) fun hr => ?_
  swap
  · refine hstop fun c hc => ⟨hc.1.1, fun _ => hc.1.2 (Bool.eq_false_iff.mpr hr)⟩
  have hopen : ∀ c, (Checked c₀ r.1 c ∧ (r.1 = true → ∃ w, c₀.world.Same w ∧
      w.verdict .selectHistory [] = .rows c.world.rows)) →
      ∃ rows, c₀.world.history = some rows ∧ Open c₀ ((sortRows rows).map HistoryRow.cells) c := by
    intro c ⟨hc, hrows⟩
    obtain ⟨w, hw, hv⟩ := hrows hr
    rw [Server.verdict] at hv
    rw [hw.history] at hv
    cases hh : c₀.world.history with
    | none =>
      rw [hh] at hv
      cases hv
    | some rows =>
      rw [hh] at hv
      exact ⟨rows, rfl, hc.1, (Verdict.rows.inj hv).symm⟩
  refine .pre ?_ hopen
  refine .exists fun rows => .assume fun hhistory => ?_
  refine .bind (historyLoop_spec hashes.length hashes 0 _ (Nat.zero_add _)) fun n => ?_
  refine .bind (Q := fun _ c => Reads c₀ c ∧ (c.result = .ok →
    n ≤ hashes.length ∧ sortRows rows = appliedRows 0 (hashes.take n))) (fun c hc => ?_) fun _ => ?_
  · have hread := reads_stop c
    refine ⟨.trans _ _ _ hc.1 hread, fun hok => ?_⟩
    obtain ⟨j, hj, hle, hrows⟩ := hc.2 (hread.good hok)
    rw [Nat.zero_add] at hj
    rw [hj]
    exact ⟨hle, hrows⟩
  refine .bind (Q := fun ok c => Checked c₀ ok c ∧ (ok = true →
    n ≤ hashes.length ∧ sortRows rows = appliedRows 0 (hashes.take n)))
    (fun c hc => ⟨checked_good (fun _ hP => hP) c hc.1, fun hok => hc.2 (of_decide_eq_true hok)⟩) fun ok => ?_
  cases ok with
  | false => exact hstop fun c hc => hc.1
  | true =>
    refine .pre (P := fun c => (n ≤ hashes.length ∧ sortRows rows = appliedRows 0 (hashes.take n)) ∧
      Reads c₀ c) ?_ fun c hc => ⟨hc.2 rfl, hc.1.1⟩
    refine .assume fun hpass => ?_
    refine .bind (reads_triple (reads_reporting fun _ => rfl)) fun _ => ?_
    refine .bind (Q := Checked c₀) (.ite (fun _ => emptySchema_spec database) fun _ => ?_) fun known => ?_
    · exact .pure fun c hc => ⟨hc, nofun⟩
    cases known with
    | false => exact hstop fun c hc => hc
    | true =>
      intro c hc
      refine ⟨⟨.trans _ _ _ hc.1 ⟨.refl _, rfl, id⟩, nofun⟩, fun _ => ?_⟩
      exact ⟨hpass.1, rows, hhistory, hpass.2⟩

end Vireo.Persistence.Migrator
