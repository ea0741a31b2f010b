/-
  File:      Vireo/Persistence/MigrationRun.lean
  Subject:   A RUN OF THE MIGRATOR: what it writes.
-/
import Vireo.Persistence.MigrationChronicle

namespace Vireo.Persistence.Migrator

open Lib Action List

/-! ## 1. Writes -/

/-- These writes were added, and nothing else changed. -/
structure Server.Wrote (w : Server) (xs : List Write) (w' : Server) : Prop where
  sha256 : w'.sha256 = w.sha256
  run : w'.run = w.run
  initial : w'.initial = w.initial
  log : w'.log = w.log ++ xs

theorem Server.Same.wrote {w w' : Server} (h : w.Same w') : w.Wrote [] w' :=
  { h with log := by rw [h.log, List.append_nil] }

theorem Server.Wrote.trans {a b c : Server} {xs ys : List Write} (h : a.Wrote xs b) (k : b.Wrote ys c) :
    a.Wrote (xs ++ ys) c :=
  ⟨k.sha256.trans h.sha256, k.run.trans h.run, k.initial.trans h.initial, by rw [k.log, h.log, append_assoc]⟩

theorem Server.Wrote.same {a b c : Server} {xs : List Write} (h : a.Wrote xs b) (k : b.Same c) :
    a.Wrote xs c :=
  ⟨k.sha256.trans h.sha256, k.run.trans h.run, k.initial.trans h.initial, k.log.trans h.log⟩

/-- From the state `w` on, the plan was carried out up to some point: to its end when the run goes on (`b`).
    -/
def Progress (w : Server) (plan : List Write) (b : Bool) (c : Context Server) : Prop :=
  ∃ xs, xs <+: plan ∧ w.Wrote xs c.world ∧ (b = true → xs = plan) ∧ (b = false → c.result ≠ .ok)

section Writes

variable {w : Server} {plan : List Write} {run : Nat} {b : Bool} {c c' : Context Server} {plan' : List Write}
  {sql : MigrationSql} {m : Step Server Bool}

theorem Progress.reads (h : Progress w plan b c) (k : Reads c c') : Progress w plan b c' := by
  obtain ⟨xs, hxs, hw, hgo, hstop⟩ := h
  exact ⟨xs, hxs, hw.same k.world, hgo, fun hb => k.failed (hstop hb)⟩

theorem progress_keeps {α : Type} {m : Step Server α} (h : Keeps Reads m) :
    Triple (Progress w plan b) m fun _ => Progress w plan b := fun c hc => hc.reads (h c)

theorem progress_check (h : ∀ c : Context Server, Triple (Reads c) m (Checked c)) :
    Triple (Progress w plan true) m (Progress w plan) := by
  intro c ⟨xs, hxs, hw, hgo, _⟩
  have hc := h c c (.refl c)
  exact ⟨xs, hxs, hw.same hc.1.world, fun _ => hgo rfl, hc.2⟩

theorem Progress.start {c : Context Server} (h : w.Same c.world) : Progress w [] true c :=
  ⟨[], prefix_refl [], h.wrote, fun _ => rfl, nofun⟩

theorem Progress.broken {c : Context Server} (h : Progress w plan false c) :
    Progress w (plan ++ plan') false c := by
  obtain ⟨xs, hxs, hw, -, hstop⟩ := h
  exact ⟨xs, hxs.trans (prefix_append _ _), hw, nofun, hstop⟩

theorem Progress.append (h : Progress w plan true c) (k : Progress c.world plan' b c') :
    Progress w (plan ++ plan') b c' := by
  obtain ⟨xs, -, hw, hgo, -⟩ := h
  obtain ⟨ys, hys, hw', hgo', hstop⟩ := k
  rw [hgo rfl] at hw
  refine ⟨plan ++ ys, (prefix_append_right_inj plan).mpr hys, hw.trans hw', fun hb => ?_, hstop⟩
  rw [hgo' hb]

theorem progress_step (hrun : w.run = run)
    (h : ∀ w' : Server, w'.run = run → Triple (fun c => w'.Same c.world) m (Progress w' plan')) :
    Triple (Progress w plan true) m (Progress w (plan ++ plan')) := by
  intro c hc
  refine hc.append (h c.world ?_ c (.refl _))
  obtain ⟨xs, -, hw, -, -⟩ := hc
  exact hw.run.trans hrun

theorem Server.verdict_write (w : Server) (h : sql.writes = true) (params : List MigrationParam)
    (rows : List (List Cell)) : w.verdict sql params ≠ .rows rows := by
  unfold Server.verdict
  split
  · exact Verdict.noConfusion
  · exact Verdict.noConfusion
  · split
    · exact Verdict.noConfusion
    · split
      · exact Verdict.noConfusion
      · split
        · exact Verdict.noConfusion
        · split <;> exact Verdict.noConfusion
  · split <;> exact Verdict.noConfusion
  · exact Verdict.noConfusion
  · exact Verdict.noConfusion
  · cases h
  · cases h
  · rename_i h₁ h₂ h₃ h₄ _ _ _ _
    cases sql with
    | createHistory => exact absurd rfl h₁
    | insertDirty => exact absurd rfl h₃
    | ddl step => exact absurd rfl (h₂ step)
    | markApplied => exact absurd rfl h₄
    | _ => cases h

theorem evaluate_write (w : Server) (h : sql.writes = true) (params : List MigrationParam) :
    ∃ xs, xs <+: [w.write sql params] ∧ w.Wrote xs (w.evaluate sql params).2 ∧
      ((w.evaluate sql params).1.result = .ok → xs = [w.write sql params]) := by
  unfold Server.evaluate
  split
  · exact ⟨[], nil_prefix, (Server.Same.refl w).wrote, nofun⟩
  · rename_i hv
    exact absurd hv (w.verdict_write h params _)
  · exact ⟨_, prefix_refl _, ⟨rfl, rfl, rfl, rfl⟩, fun _ => rfl⟩

/-- An execution that succeeds was carried out; one that fails may have been. -/
theorem execute_write (h : sql.writes = true) (params : List MigrationParam) :
    Triple (fun c => w.Same c.world) (execute serverOps sql params true) fun o c =>
      ∃ xs, xs <+: [w.write sql params] ∧ w.Wrote xs c.world ∧ (o.result = .ok → xs = [w.write sql params]) := by
  intro c hc
  have hworld : (execute serverOps sql params true c).2.world = (serverOps.execute sql params c.world).2 := rfl
  have hresult : (execute serverOps sql params true c).1 = (serverOps.execute sql params c.world).1 := rfl
  have hwrite : c.world.write sql params = w.write sql params := by
    unfold Server.write
    rw [hc.run]
  have hstart : w.Wrote [] c.world := hc.wrote
  obtain ⟨xs, hxs, hw, hok⟩ := evaluate_write c.world h params
  rw [hwrite] at hxs hok
  rw [hresult, hworld]
  rcases execute_cases sql params c.world with ⟨hbad, hs | hs⟩ | ho
  · exact ⟨[], nil_prefix, hstart.same hs, fun hgood => absurd hgood hbad⟩
  · exact ⟨xs, hxs, (hstart.trans hw).same hs, fun hgood => absurd hgood hbad⟩
  · rw [ho]
    exact ⟨xs, hxs, (hstart.trans hw).same (Server.same_tick _), hok⟩

theorem start_write (h : sql.writes = true) (params : List MigrationParam) (columns : Nat) :
    Triple (fun c => w.Same c.world) (start serverOps sql params columns true) fun r =>
      Progress w [w.write sql params] r.1 := by
  have hstop : ∀ {r : Result} {database : Option DbError} {ex : Execution} {P : Context Server → Prop}, r ≠ .ok →
      (∀ c, P c → ∃ xs, xs <+: [w.write sql params] ∧ w.Wrote xs c.world) → Triple P
        (.modify (.fail r .none database) >>= fun _ => pure (false, ex)) fun r =>
          Progress w [w.write sql params] r.1 := by
    intro r database ex P hr hP
    refine triple_fail hr fun c hc hne => ?_
    obtain ⟨xs, hxs, hw⟩ := hP c hc
    exact ⟨xs, hxs, hw.same (reads_fail _ _ _ c).world, nofun, fun _ => hne⟩
  refine .bind (Q := fun _ c => w.Same c.world) (.modify fun c hc => hc) fun _ => ?_
  refine .bind (Q := fun _ c => w.Same c.world) (fun c hc => hc.trans (reads_prepare _ _ c).world)
    fun o => ?_
  refine .ite (fun hbad => hstop hbad fun c hc => ⟨[], nil_prefix, hc.wrote⟩) fun _ => ?_
  refine .bind (execute_write h params) fun o => .ite (fun hbad => ?_) fun hgood => ?_
  · refine hstop hbad fun c ⟨xs, hxs, hw, _⟩ => ⟨xs, hxs, hw⟩
  refine .bind (Q := fun _ c => w.Wrote [w.write sql params] c.world)
    (.modify fun c ⟨xs, _, hw, hok⟩ => ?_) fun _ => ?_
  · rw [hok (not_not.mp hgood)] at hw
    exact hw
  · intro c hc
    obtain ⟨hchecked, -⟩ :=
      startShape_open sql params.length columns o.execution c.world.rows c ⟨.refl c, rfl⟩
    exact ⟨_, prefix_refl _, hc.same hchecked.1.world, (fun _ => rfl), hchecked.2⟩

theorem reads_count (execution : Execution) (one ddl : Bool) :
    Keeps Reads (Action.modify (Context.count execution one ddl) : Step Server Unit) := by
  intro c
  show Reads c (.count execution one ddl c)
  rw [Context.count]
  split
  · split <;> exact ⟨.refl _, rfl, id⟩
  · split <;> exact ⟨.refl _, rfl, id⟩

theorem progress_good : Triple (Progress w plan b) good (Progress w plan) := by
  intro c ⟨xs, hxs, hw, hgo, hstop⟩
  refine ⟨xs, hxs, hw, fun hb => hgo ?_, fun hb => of_decide_eq_false hb⟩
  exact (Bool.not_eq_false b).mp fun hbad => hstop hbad (of_decide_eq_true hb)

theorem writeSql_spec (h : sql.writes = true) (params : List MigrationParam) (one ddl : Bool) :
    Triple (fun c => w.Same c.world) (writeSql serverOps sql params one ddl)
      (Progress w [w.write sql params]) := by
  refine .bind (start_write h params 0) fun r => ?_
  refine .bind (progress_keeps (reads_when (reads_modify_shape _))) fun _ => ?_
  refine .bind (progress_keeps (reads_count _ _ _)) fun _ => ?_
  exact .bind (progress_keeps reads_stop) fun _ => progress_good

theorem writeSql_next (h : sql.writes = true) (params : List MigrationParam) (one ddl : Bool)
    (hrun : w.run = run) :
    Triple (Progress w plan true) (writeSql serverOps sql params one ddl)
      (Progress w (plan ++ [⟨run, sql, params⟩])) := by
  refine progress_step hrun fun w' hw' => (writeSql_spec h params one ddl).post fun b c hc => ?_
  unfold Server.write at hc
  rw [hw'] at hc
  exact hc

theorem progress_stop :
    Triple (Progress w plan false) (pure false : Step Server Bool) (Progress w (plan ++ plan')) :=
  Triple.pure fun _ hc => hc.broken

theorem stepLoop_spec (b : Block) (hrun : w.run = b.run) (steps : List MigrationStep) :
    ∀ (j : Nat) (plan : List Write), Triple (Progress w plan true) (stepLoop serverOps j steps) (Progress w (plan ++ steps.map b.step)) := by
  induction steps with
  | nil =>
    intro j plan
    rw [map_nil, List.append_nil]
    exact .pure fun c hc => hc
  | cons s rest ih =>
    intro j plan
    refine .bind (progress_keeps (reads_reporting fun _ => rfl)) fun _ => ?_
    refine .bind (writeSql_next rfl [] false true hrun) fun go => ?_
    rw [map_cons, append_cons plan (b.step s)]
    cases go with
    | true => exact ih (j + 1) (plan ++ [b.step s])
    | false => exact progress_stop

theorem applyVersion_spec (b : Block) (hrun : w.run = b.run) (plan : List Write) :
    Triple (Progress w plan true) (applyVersion serverOps b.migration (migrationHash w.sha256 b.migration))
      (Progress w (plan ++ b.writes w.sha256)) := by
  unfold Block.writes
  rw [← singleton_append, ← append_assoc]
  refine .bind (progress_keeps (reads_reporting fun _ => rfl)) fun _ => ?_
  refine .bind (progress_keeps (reads_phase _)) fun _ => ?_
  refine .bind (writeSql_next rfl _ true false hrun) fun go => ?_
  cases go with
  | false => exact progress_stop
  | true =>
    rw [← append_assoc]
    refine .bind (progress_keeps (reads_phase _)) fun _ => ?_
    refine .bind (stepLoop_spec b hrun b.migration.steps 0 _) fun go => ?_
    cases go with
    | false => exact progress_stop
    | true =>
      refine .bind (progress_keeps (reads_reporting fun _ => rfl)) fun _ => ?_
      refine .bind (progress_keeps (reads_phase _)) fun _ => ?_
      exact writeSql_next rfl _ true false hrun

/-- The end of a run over a plan: all of it was carried out if the run is good. -/
def Ended (w : Server) (plan : List Write) (c : Context Server) : Prop :=
  ∃ xs, xs <+: plan ∧ w.Wrote xs c.world ∧ (c.result = .ok → xs = plan)

theorem Ended.reads (h : Ended w plan c) (k : Reads c c') : Ended w plan c' := by
  obtain ⟨xs, hxs, hw, hok⟩ := h
  exact ⟨xs, hxs, hw.same k.world, fun hgood => hok (k.good hgood)⟩

theorem Progress.ended {c : Context Server} (h : Progress w plan false c) : Ended w (plan ++ plan') c := by
  obtain ⟨xs, hxs, hw, -, hstop⟩ := h
  exact ⟨xs, hxs.trans (prefix_append _ _), hw, fun hok => absurd hok (hstop rfl)⟩

theorem versionLoop_spec (bs : List Block) : ∀ {plan : List Write}, (∀ b ∈ bs, w.run = b.run) →
    Triple (Progress w plan true)
      (versionLoop serverOps (bs.map fun b => (b.migration, migrationHash w.sha256 b.migration)))
      (fun _ => Ended w (plan ++ bs.flatMap (Block.writes w.sha256))) := by
  induction bs with
  | nil =>
    intro plan _ c hc
    obtain ⟨xs, hxs, hw, hgo, -⟩ := hc
    rw [flatMap_nil, List.append_nil]
    exact ⟨xs, hxs, hw, fun _ => hgo rfl⟩
  | cons b rest ih =>
    intro plan hrun
    rw [map_cons, flatMap_cons, ← append_assoc]
    refine .bind (applyVersion_spec b (hrun b mem_cons_self) plan) fun go => ?_
    cases go with
    | true => exact ih fun b' hb' => hrun b' (mem_cons_of_mem _ hb')
    | false => exact .pure fun c hc => hc.ended

end Writes

/-! ## 2. The ways a run can end -/

/-- The blocks of a run over a catalogue, from version `n + 1` on. -/
def blocksFrom (run : Nat) (m : List Migration) (n : Nat) : List Block := (m.drop n).map (Block.mk run)

/-- The history shows the first `n` versions of the catalogue, applied. -/
structure Passes (sha256 : Bytes → Digest) (m : List Migration) (history : History) (n : Nat) : Prop where
  le : n ≤ m.length
  rows : ∃ rows, history = some rows ∧ sortRows rows = appliedRows 0 ((m.map (migrationHash sha256)).take n)

/-- The ways a run can end, seen from the database it began with. -/
inductive Outcome (w : Server) (m : List Migration) (c : Context Server) : Prop where
  /-- A check failed before the first write. -/
  | refused (same : w.Same c.world) (attempted : c.report.writeAttempted = false) (failed : c.result ≠ .ok)
  /-- There was no history table, and the run got no further than to its creation. -/
  | created (absent : w.history = none) (ended : ∃ xs, xs <+: [creation w.run] ∧ w.Wrote xs c.world)
      (failed : c.result ≠ .ok)
  /-- The history was a prefix of the catalogue, and the run went on from there. -/
  | applied (start : List Write) (n : Nat)
      (table : (start = [] ∧ w.history.isSome) ∨ (start = [creation w.run] ∧ w.history = none))
      (passes : Passes w.sha256 m (tableAfter w.initial (w.log ++ start)) n)
      (ended : Ended w (start ++ (blocksFrom w.run m n).flatMap (Block.writes w.sha256)) c)

theorem Outcome.reads {w : Server} {m : List Migration} {c c' : Context Server} (h : Outcome w m c)
    (k : Reads c c') : Outcome w m c' := by
  cases h with
  | refused same attempted failed =>
    exact .refused (same.trans k.world) (k.attempted.trans attempted) (k.failed failed)
  | created absent ended failed =>
    obtain ⟨xs, hxs, hw⟩ := ended
    exact .created absent ⟨xs, hxs, hw.same k.world⟩ (k.failed failed)
  | applied start n table passes ended => exact .applied start n table passes (ended.reads k)

section Ends

variable {c₀ : Context Server} {m : List Migration} {hashes : List Digest}

theorem bootstrap_spec (database : MigrationParam) :
    Triple (Reads c₀) (bootstrap serverOps database) fun b c =>
      (Checked c₀ b c ∧ (b = true → c₀.world.history.isSome)) ∨
        (c₀.world.history = none ∧ Progress c₀.world [creation c₀.world.run] b c) := by
  refine .bind (tableExists_spec database) fun v => ?_
  cases v with
  | none => exact .pure fun c hc => .inl ⟨hc.1, nofun⟩
  | some found =>
    cases found with
    | true => exact .pure fun c hc => .inl ⟨⟨hc.1.1, nofun⟩, fun _ => (hc.2 true rfl).symm⟩
    | false =>
      have habsent : ∀ c, (Checked c₀ (some false).isSome c ∧
          ∀ b, some false = some b → b = c₀.world.history.isSome) → c₀.world.history = none ∧ Reads c₀ c := by
        intro c hc
        exact ⟨Option.not_isSome_iff_eq_none.mp (Bool.eq_false_iff.mp (hc.2 false rfl).symm), hc.1.1⟩
      refine .pre ?_ habsent
      refine .assume fun hnone => ?_
      refine .bind (emptySchema_spec database) fun go => ?_
      cases go with
      | false => exact .pure fun c hc => .inl ⟨hc, nofun⟩
      | true =>
        have hcreate : MigrationSql.createHistory.writes = true := rfl
        have hread : ∀ c, Checked c₀ true c → c₀.world.Same c.world := fun c hc => hc.1.world
        refine .bind ((writeSql_spec hcreate [] false false).pre hread) fun go => ?_
        cases go with
        | false => exact .pure fun c hc => .inr ⟨hnone, hc⟩
        | true =>
          refine (progress_check fun c => .bind (tableExists_spec database) fun v => ?_).post fun b c hc =>
            .inr ⟨hnone, hc⟩
          match v with
          | none => exact .pure fun c hc => hc.1
          | some true => exact .pure fun c hc => hc.1
          | some false => exact checked_fail (by decide) fun c hc => hc.1.1

section

variable (hhashes : hashes = m.map (migrationHash c₀.world.sha256))
include hhashes

theorem runHistory_spec (database : MigrationParam) :
    Triple (Reads c₀) (runHistory serverOps m hashes database) fun _ c =>
      (Reads c₀ c ∧ c.result ≠ .ok) ∨ ∃ n, Passes c₀.world.sha256 m c₀.world.history n ∧
          Ended c₀.world ((blocksFrom c₀.world.run m n).flatMap (Block.writes c₀.world.sha256)) c := by
  refine .bind (metadata_spec database) fun go => ?_
  cases go with
  | false => exact .pure fun c hc => .inl ⟨hc.1, hc.2 rfl⟩
  | true =>
    refine .pre (P := Reads c₀) ?_ fun c hc => hc.1
    refine .bind (reads_triple (reads_phase _)) fun _ => ?_
    refine .bind (history_spec hashes database) fun go => ?_
    cases go with
    | false => exact .pure fun c hc => .inl ⟨hc.1.1, hc.1.2 rfl⟩
    | true =>
      intro c ⟨hc, hpass⟩
      obtain ⟨hle, hrows⟩ := hpass rfl
      refine .inr ⟨c.report.appliedBefore, ⟨?_, ?_⟩, ?_⟩
      · rw [hhashes, length_map] at hle
        exact hle
      · rw [hhashes] at hrows
        exact hrows
      · have hlist : (m.zip hashes).drop c.report.appliedBefore =
            (blocksFrom c₀.world.run m c.report.appliedBefore).map fun b =>
              (b.migration, migrationHash c₀.world.sha256 b.migration) := by
          rw [hhashes, ← map_prod_left_eq_zip, ← map_drop]
          unfold blocksFrom
          rw [map_map]
          rfl
        have hrun : ∀ b ∈ blocksFrom c₀.world.run m c.report.appliedBefore, c₀.world.run = b.run := by
          intro b hb
          obtain ⟨entry, -, rfl⟩ := mem_map.mp hb
          rfl
        have hloop := versionLoop_spec _ hrun c (.start hc.1.world)
        rw [← hlist] at hloop
        exact hloop

theorem runLocked_spec (database : MigrationParam) (hattempted : c₀.report.writeAttempted = false) :
    Triple (Reads c₀) (runLocked serverOps m hashes database) fun _ => Outcome c₀.world m := by
  refine .bind (reads_triple (reads_phase _)) fun _ => ?_
  refine .bind (bootstrap_spec database) fun go => ?_
  cases go with
  | false =>
    refine .pure fun c hc => ?_
    rcases hc with ⟨hc, -⟩ | ⟨hnone, xs, hxs, hw, -, hfailed⟩
    · exact .refused hc.1.world (hc.1.attempted.trans hattempted) (hc.2 rfl)
    · exact .created hnone ⟨xs, hxs, hw⟩ (hfailed rfl)
  | true =>
    intro c hc
    rcases hc with ⟨hc, htable⟩ | ⟨hnone, xs, -, hw, hgo, -⟩
    · rcases runHistory_spec hhashes database c hc.1 with ⟨hr, hfailed⟩ | ⟨n, hpass, hended⟩
      · exact .refused hr.world (hr.attempted.trans hattempted) hfailed
      · refine .applied [] n (.inl ⟨rfl, htable rfl⟩) ?_ hended
        rw [List.append_nil]
        exact hpass
    · rw [hgo rfl] at hw
      have hhashes' : hashes = m.map (migrationHash c.world.sha256) := by rw [hw.sha256]; exact hhashes
      rcases runHistory_spec hhashes' database c (.refl c) with
        ⟨hr, hfailed⟩ | ⟨n, hpass, ys, hys, hwrote, hok⟩
      · exact .created hnone ⟨_, prefix_refl _, hw.same hr.world⟩ hfailed
      have hhistory : c.world.history =
          tableAfter c₀.world.initial (c₀.world.log ++ [creation c₀.world.run]) := by
        unfold Server.history
        rw [hw.initial, hw.log]
      rw [hw.sha256, hhistory] at hpass
      rw [hw.run, hw.sha256] at hys hok
      refine .applied _ n (.inr ⟨rfl, hnone⟩) hpass
        ⟨_, (prefix_append_right_inj _).mpr hys, hw.trans hwrote, fun hgood => ?_⟩
      rw [hok hgood]

end

end Ends

end Vireo.Persistence.Migrator
