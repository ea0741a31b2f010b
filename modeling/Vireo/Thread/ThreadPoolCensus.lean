/-
  File:      Vireo/Thread/ThreadPoolCensus.lean
  Subject:   WORKERS CREATED, JOINED, ENDED: what every interleaving keeps of a pool's own fields.
-/
import Vireo.Thread.ThreadPoolRun
import Mathlib.Data.Finset.Card
import Mathlib.Data.Finset.Range

namespace Vireo.Thread

open Function
open Finset (card_range mem_filter mem_range range)
open PoolSystem (joinTurn refused shutdown stop workerStep)

variable {α τ : Type} {s s' : PoolSystem α τ} {i n : Nat} {workers : Nat → WorkerSlot}

/-! ## 1. What each kind of step leaves alone -/

/-- A caller does not touch the pool. -/
structure CallerFrame (s s' : PoolSystem α τ) : Prop where
  pool : s'.pool = s.pool
  phase : s'.phase = s.phase
  manager : s'.manager = s.manager
  returns : s'.returns = s.returns
  executed : s'.executed = s.executed

theorem callerFrame [DecidableEq α] [DecidableEq τ] {a : α} (h : CallerMove s a s') : CallerFrame s s' := by
  cases h <;> exact ⟨rfl, rfl, rfl, rfl, rfl⟩

/-- A step of worker `i` is that of a living worker, and outside of the tasks it moves that worker
    only. -/
structure WorkerFrame (s s' : PoolSystem α τ) (i : Nat) : Prop where
  born : s.phase i ≠ .unborn
  live : ¬ (s.phase i).Over
  phase : ∃ p, p ≠ .unborn ∧ s'.phase = update s.phase i p
  pool : ∃ w, SlotMove (s.pool.workers i) w ∧ s'.pool = { s.pool with workers := update s.pool.workers i w }
  manager : s'.manager = s.manager
  returns : s'.returns = s.returns

theorem workerFrame_moved {p : WorkerPhase} {x : WorkerSlot × WorkerPhase} (hp : s.phase i = p)
    (hborn : p ≠ .unborn) (hlive : ¬ p.Over) (hx : SlotMove (s.pool.workers i) x.1 ∧ x.2 ≠ .unborn) :
    WorkerFrame s (s.moved i x) i :=
  ⟨by rwa [hp], by rwa [hp], ⟨x.2, hx.2, rfl⟩, ⟨x.1, hx.1, rfl⟩, rfl, rfl⟩

theorem workerFrame_took [DecidableEq α] [DecidableEq τ] {p : WorkerPhase} {e : QueueEvent (α ⊕ Nat) τ}
    {o : WaitOutcome τ (TaskQueue τ)} (hp : s.phase i = p) (hborn : p ≠ .unborn) (hlive : ¬ p.Over) :
    WorkerFrame s (s.took i e o) i := by
  cases o with
  | blocked =>
    refine ⟨by rwa [hp], by rwa [hp], ⟨.waiting, nofun, rfl⟩, ⟨s.pool.workers i, .refl _, ?_⟩, rfl, rfl⟩
    show s.pool = _
    rw [update_eq_self]
  | returned x =>
    exact ⟨by rwa [hp], by rwa [hp], ⟨_, received_phase _ x, rfl⟩, ⟨_, slotMove_received _ x, rfl⟩,
      rfl, rfl⟩

theorem workerFrame [DecidableEq α] [DecidableEq τ] (i : Nat) (e : WorkerEvent) :
    s.workerStep i e = s ∨ WorkerFrame s (s.workerStep i e) i := by
  cases e with
  | enter cancel lock unlock =>
    rw [workerStep]
    split
    · rename_i hp
      exact .inr (workerFrame_moved hp (by simp) (by decide) (slotMove_enter ..))
    · exact .inl rfl
  | unpark wait unlock =>
    rw [workerStep]
    split
    · rename_i hp
      exact .inr (workerFrame_moved hp (by simp) (by decide) (slotMove_unpark ..))
    · exact .inl rfl
  | waitPop codes =>
    rw [workerStep]
    split
    · rename_i hp
      exact .inr (workerFrame_took hp (by simp) (by decide))
    · exact .inl rfl
  | wake wait unlock =>
    rw [workerStep]
    split
    · rename_i hp
      exact .inr (workerFrame_took hp (by simp) (by decide))
    · exact .inl rfl
  | execute result =>
    rw [workerStep]
    split
    · rename_i hp
      refine .inr ⟨?_, ?_, ⟨.spent, (by simp), rfl⟩, ⟨_, slotMove_ran _ result, rfl⟩, rfl, rfl⟩
      · rw [hp]
        simp
      · rw [hp]
        decide
    · exact .inl rfl
  | destroyTask =>
    rw [workerStep]
    split
    · rename_i hp
      refine .inr ⟨?_, ?_, ⟨_, ?_, rfl⟩, ⟨s.pool.workers i, .refl _, ?_⟩, rfl, rfl⟩
      · rcases hp with hp | hp <;> rw [hp] <;> simp
      · rcases hp with hp | hp <;> rw [hp] <;> decide
      · split <;> simp
      · show s.pool = _
        rw [update_eq_self]
    · exact .inl rfl

/-! ## 2. What the manager can do -/

/-- A return that does not say that a shutdown succeeded. -/
def Return.Plain (r : Return) : Prop := ∀ mode report before, r ≠ .shutdown mode .ok report before

section

variable (result : Result)

theorem Return.plain_configure : (Return.configure result).Plain := fun _ _ _ h => by cases h

theorem Return.plain_start (report : PoolReport) :
    (Return.start result report).Plain := fun _ _ _ h => by cases h

theorem Return.plain_enable (report : PoolReport) :
    (Return.enable result report).Plain := fun _ _ _ h => by cases h

theorem Return.plain_destroy : (Return.destroy result).Plain := fun _ _ _ h => by cases h

end

/-- The return that a joining call makes says OK only when the joining did. -/
def Return.From (r : Return) (why : Reclaimer) (before : Nat) (out : Reclaim) : Prop :=
  ∀ mode report b, r = .shutdown mode .ok report b →
    out.result = .ok ∧ b = before ∧ ∃ close, why = .shutdown mode close

/-- The steps of the manager, with what the code has checked before each. -/
inductive ManagerMove [DecidableEq α] [DecidableEq τ] (s : PoolSystem α τ) : PoolSystem α τ → Prop
  | stay : ManagerMove s s
  | answer (pool : ThreadPool) (freed : Bool) (r : Return) (same : PoolSame s.pool pool)
      (plain : r.Plain) : ManagerMove s ({ s with pool := pool, freed := freed }.back r)
  | started (pool : ThreadPool) (same : PoolSame s.pool pool) (first : s.pool.startAttempted = false)
      (attempted : pool.startAttempted = true) :
      ManagerMove s { s with pool := pool, manager := .creating 0 }
  | created (i : Nat) (at_ : s.manager = .creating i) (room : i < s.pool.workerCount) :
      ManagerMove s { s with
        pool := s.pool.createWorker i
        phase := update s.phase i .entering
        manager := .creating (i + 1) }
  | failed (i : Nat) (result : Result) (code : Nat) (at_ : s.manager = .creating i) :
      ManagerMove s { s with manager := .stopping (.start result code) 0 }
  | enabling (stop : s.pool.stopRequested = false) (all : s.pool.createdCount = s.pool.workerCount)
      (attempted : s.pool.startAttempted = true) : ManagerMove s { s with manager := .enabling }
  | enabled (r : Return) (at_ : s.manager = .enabling) (plain : r.Plain) :
      ManagerMove s ({ s with pool := { s.pool with executionEnabled := true } }.back r)
  | closing (mode : QueueState) (codes : SyncCodes) (r : Return) (plain : r.Plain) :
      ManagerMove s ({ s with tasks := s.tasks.exec (.close mode codes) }.back r)
  | closed (mode : QueueState) (codes : SyncCodes) (close : CloseReport)
      (enabled : s.pool.executionEnabled = true) (all : s.pool.createdCount = s.pool.workerCount)
      (ok : (s.tasks.queue.close mode codes).1 = .ok) (mode_ : mode ≠ .opened) :
      ManagerMove s { s with
        tasks := s.tasks.exec (.close mode codes)
        manager := .closed mode close s.pool.joinedCount }
  | stopping (why : Reclaimer) (before : Nat)
      (from_ : (why = .stopAndJoin ∧ before = s.pool.joinedCount) ∨
        ∃ mode close, s.manager = .closed mode close before ∧ why = .shutdown mode close) :
      ManagerMove s { s with manager := .stopping why before }
  | halted (r : Return) (plain : r.Plain) :
      ManagerMove s ({ s with pool := { s.pool with stopRequested := true } }.back r)
  | stopped (why : Reclaimer) (before : Nat) (at_ : s.manager = .stopping why before) :
      ManagerMove s { s with
        pool := { s.pool with stopRequested := true }
        manager := .joining why before 0 ⟨.ok, .none, 0, .zero⟩ }
  | skipped (why : Reclaimer) (before i : Nat) (out : Reclaim)
      (at_ : s.manager = .joining why before i out)
      (skip : (s.pool.workers i).threadCreated = false ∨ (s.pool.workers i).threadJoined = true) :
      ManagerMove s { s with manager := .joining why before (i + 1) out }
  | joined (why : Reclaimer) (before i : Nat) (out : Reclaim) (code : Nat)
      (at_ : s.manager = .joining why before i out)
      (here : (s.pool.workers i).threadCreated = true) (new : (s.pool.workers i).threadJoined = false)
      (gone : code = 0 → (s.phase i).Over) :
      ManagerMove s { s with
        pool := (s.pool.joinWorker i code out).2
        manager := .joining why before (i + 1) (s.pool.joinWorker i code out).1 }
  | reclaimed (why : Reclaimer) (before : Nat) (out : Reclaim) (r : Return)
      (at_ : (s.manager = .stopping why before ∧ s.pool.createdCount = s.pool.joinedCount) ∨
        ∃ i, s.manager = .joining why before i out ∧ s.pool.workerCount ≤ i)
      (return_ : r.From why before out) : ManagerMove s (s.back r)

theorem reclaimed_from (why : Reclaimer) (before : Nat) (out : Reclaim) :
    ∃ r : Return, s.reclaimed why before out = s.back r ∧ r.From why before out := by
  cases why with
  | start result error => exact ⟨_, rfl, fun _ _ _ h => nomatch h⟩
  | stopAndJoin => exact ⟨_, rfl, fun _ _ _ h => nomatch h⟩
  | shutdown mode close =>
    refine ⟨_, rfl, fun mode' report b h => ?_⟩
    injection h with hmode hresult hreport hbefore
    exact ⟨hresult, hbefore.symm, close, by rw [hmode]⟩

theorem Return.From.plain {r : Return} {why : Reclaimer} {before : Nat} {out : Reclaim}
    (h : r.From why before out) (hne : out.result ≠ .ok) : r.Plain :=
  fun mode report b e => hne (h mode report b e).1

section Moves

variable [DecidableEq α] [DecidableEq τ]

theorem managerMove_stopAndJoin (why : Reclaimer) (before : Nat) (codes : SyncCodes)
    (hfrom : (why = .stopAndJoin ∧ before = s.pool.joinedCount) ∨
      ∃ mode close, s.manager = .closed mode close before ∧ why = .shutdown mode close) :
    ManagerMove s (s.stopAndJoin why before codes) := by
  unfold PoolSystem.stopAndJoin
  split
  · rename_i x hx
    unfold refused
    obtain ⟨r, hr, hfrom'⟩ := reclaimed_from (s := s) why before ⟨x.1, x.2, 0, .zero⟩
    rw [hr]
    exact .answer s.pool s.freed r (.refl _) (hfrom'.plain (stopAndJoinCheck_ne_ok hx))
  · exact .stopping why before hfrom

theorem managerMove_stop (why : Reclaimer) (before : Nat) (codes : SyncCodes)
    (hat : s.manager = .stopping why before) : ManagerMove s (s.stop why before codes) := by
  unfold stop
  have houtcome := stopWorkers_outcome s.pool codes
  generalize s.pool.stopWorkers codes = x at houtcome
  cases houtcome with
  | nobody hnone =>
    obtain ⟨r, hr, hfrom⟩ := reclaimed_from (s := s) why before ⟨.ok, .none, 0, .zero⟩
    show ManagerMove s (s.reclaimed why before ⟨.ok, .none, 0, .zero⟩)
    rw [hr]
    exact .reclaimed why before _ r (.inl ⟨hat, hnone⟩) hfrom
  | locked out hne =>
    obtain ⟨r, hr, hfrom⟩ := reclaimed_from (s := s) why before out
    show ManagerMove s (s.reclaimed why before out)
    rw [hr]
    exact .answer s.pool s.freed r (.refl _) (hfrom.plain hne)
  | halted out hne =>
    dsimp only
    obtain ⟨r, hr, hfrom⟩ :=
      reclaimed_from (s := { s with pool := { s.pool with stopRequested := true } }) why before out
    rw [hr]
    exact .halted r (hfrom.plain hne)
  | stopped => exact .stopped why before hat

theorem managerMove_joinTurn (why : Reclaimer) (before i : Nat) (out : Reclaim) (code : Nat)
    (hat : s.manager = .joining why before i out) :
    ManagerMove s (s.joinTurn why before i out code) := by
  unfold joinTurn
  split
  · split
    · rename_i hskip
      exact .skipped why before i out hat hskip
    · rename_i hnew
      rw [not_or, Bool.not_eq_false, Bool.not_eq_true] at hnew
      split
      · exact .stay
      rename_i hover
      refine .joined why before i out code hat hnew.1 hnew.2 fun hcode => ?_
      exact not_not.mp fun h => hover ⟨hcode, h⟩
  · rename_i hend
    obtain ⟨r, hr, hfrom⟩ := reclaimed_from (s := s) why before out
    rw [hr]
    exact .reclaimed why before out r (.inr ⟨i, hat, Nat.le_of_not_lt hend⟩) hfrom

theorem managerMove_shutdown (mode : QueueState) (codes : SyncCodes) :
    ManagerMove s (s.shutdown mode codes) := by
  unfold shutdown
  rcases shutdownCheck_cases s.pool mode with
    ⟨x, hx, hne⟩ | ⟨hx, hmode, henabled, hall⟩
  · rw [hx]
    refine .answer s.pool s.freed (.shutdown _ _ _ _) (.refl _) fun mode' report b e => ?_
    injection e with _ hresult
    exact hne hresult
  · rw [hx]
    dsimp only
    split
    · rename_i hne
      refine .closing mode codes (.shutdown _ _ _ _) fun mode' report b e => ?_
      injection e with _ hresult
      exact hne hresult
    · rename_i hok
      exact .closed mode codes _ henabled hall (not_not.mp hok) hmode

theorem managerMove_createTurn (i code : Nat) (hat : s.manager = .creating i) :
    ManagerMove s (s.createTurn i code) := by
  unfold PoolSystem.createTurn
  split
  · rename_i hroom
    split
    · exact .failed i _ code hat
    · exact .created i hat hroom
  · exact .answer s.pool s.freed _ (.refl _) (Return.plain_start _ _)

theorem managerMove (e : ManagerEvent) : ManagerMove s (s.managerStep e) := by
  unfold PoolSystem.managerStep
  split
  · exact .stay
  split
  · rename_i codes _
    exact .answer (s.pool.configure s.tasks.queue codes).2.2 s.freed _
      (configure_same ..) (Return.plain_configure _)
  · rename_i codes mutexInit conditionInit _
    have hstart := start_same s.pool s.tasks.queue codes mutexInit conditionInit
    split
    · rename_i x pool heq
      rw [heq] at hstart
      exact .answer pool s.freed _ hstart.1 (Return.plain_start _ _)
    · rename_i pool heq
      rw [heq] at hstart
      exact .started pool hstart.1 (hstart.2 rfl).1 (hstart.2 rfl).2
  · rename_i i code hat
    exact managerMove_createTurn i code hat
  · split
    · exact .answer s.pool s.freed _ (.refl _) (Return.plain_enable _ _)
    · rename_i hnone
      obtain ⟨hstop, hall, hstart⟩ := enableCheck_none hnone
      exact .enabling hstop hall hstart
  · rename_i codes hat
    dsimp only
    rcases enableSection_cases s.pool codes with h | h
    · rw [h]
      exact .answer s.pool s.freed _ (.refl _) (Return.plain_enable _ _)
    · rw [h]
      exact .enabled _ hat (Return.plain_enable _ _)
  · exact managerMove_shutdown ..
  · rename_i mode close before codes hat
    exact managerMove_stopAndJoin _ _ _ (.inr ⟨mode, close, hat, rfl⟩)
  · exact managerMove_stopAndJoin _ _ _ (.inl ⟨rfl, rfl⟩)
  · rename_i why before codes hat
    exact managerMove_stop why before codes hat
  · rename_i why before i out code hat
    exact managerMove_joinTurn why before i out code hat
  · rename_i condition mutex _
    exact .answer (s.pool.destroy condition mutex).2 _ _ (destroy_same ..) (Return.plain_destroy _)
  · exact .stay

end Moves

/-! ## 3. The census -/

/-- How many of the first `n` workers were joined. -/
def joinedAmong (workers : Nat → WorkerSlot) (n : Nat) : Nat :=
  ((range n).filter fun i => (workers i).threadJoined = true).card

theorem joinedAmong_le (workers : Nat → WorkerSlot) (n : Nat) : joinedAmong workers n ≤ n := by
  unfold joinedAmong
  exact (Finset.card_filter_le _ _).trans_eq (card_range n)

theorem joinedAmong_congr {workers workers' : Nat → WorkerSlot} (n : Nat)
    (h : ∀ i, (workers' i).threadJoined = (workers i).threadJoined) :
    joinedAmong workers' n = joinedAmong workers n := by
  unfold joinedAmong
  congr 1
  exact Finset.filter_congr fun i _ => by rw [h i]

theorem joinedAmong_eq (h : joinedAmong workers n = n) (hi : i < n) : (workers i).threadJoined = true := by
  unfold joinedAmong at h
  have hall : (range n).filter (fun i => (workers i).threadJoined = true) = range n :=
    Finset.eq_of_subset_of_card_le (Finset.filter_subset _ _) (by rw [h, card_range])
  have hmem : i ∈ (range n).filter fun i => (workers i).threadJoined = true := by
    rw [hall]
    exact mem_range.mpr hi
  exact (mem_filter.mp hmem).2

theorem joinedAmong_zero (h : joinedAmong workers n = 0) (hi : i < n) :
    (workers i).threadJoined = false := by
  unfold joinedAmong at h
  rw [Finset.card_eq_zero] at h
  refine Bool.eq_false_iff.mpr fun hj => ?_
  have hmem : i ∈ (range n).filter fun i => (workers i).threadJoined = true :=
    mem_filter.mpr ⟨mem_range.mpr hi, hj⟩
  rw [h] at hmem
  exact Finset.notMem_empty i hmem

theorem joinedAmong_join {i : Nat} {w : WorkerSlot} (hi : i < n) (hnew : (workers i).threadJoined = false)
    (hw : w.threadJoined = true) :
    joinedAmong (update workers i w) n = joinedAmong workers n + 1 := by
  unfold joinedAmong
  have hins : (range n).filter (fun k => (update workers i w k).threadJoined = true) =
        insert i ((range n).filter fun k => (workers k).threadJoined = true) := by
    ext k
    simp only [mem_filter, Finset.mem_insert, mem_range]
    by_cases hk : k = i
    · subst hk
      simp [hi, hw]
    · simp [hk]
  rw [hins, Finset.card_insert_of_notMem]
  simp [hnew]

theorem joinedAmong_create (hnew : (workers n).threadJoined = false) :
    joinedAmong workers (n + 1) = joinedAmong workers n := by
  unfold joinedAmong
  rw [Finset.range_add_one, Finset.filter_insert, if_neg (by rw [hnew]; simp)]

/-- The workers that exist are the first ones, the counters count them, and a joined worker has
    returned. -/
structure Census (s : PoolSystem α τ) : Prop where
  some : 0 < s.pool.workerCount
  bound : s.pool.createdCount ≤ s.pool.workerCount
  created : ∀ i, (s.pool.workers i).threadCreated = true ↔ i < s.pool.createdCount
  unborn : ∀ i, s.phase i = .unborn ↔ s.pool.createdCount ≤ i
  gone : ∀ i, (s.pool.workers i).threadJoined = true → (s.phase i).Over
  count : s.pool.joinedCount = joinedAmong s.pool.workers s.pool.createdCount

section

variable (h : Census s)
include h

theorem Census.joined_lt (hj : (s.pool.workers i).threadJoined = true) : i < s.pool.createdCount := by
  refine Nat.lt_of_not_le fun hle => ?_
  have hover := h.gone i hj
  rw [(h.unborn i).mpr hle] at hover
  rcases hover with h | h <;> cases h

theorem Census.joined_le : s.pool.joinedCount ≤ s.pool.createdCount := by
  rw [h.count]
  exact joinedAmong_le ..

theorem Census.same (same : PoolSame s.pool s'.pool) (hphase : s'.phase = s.phase) : Census s' := by
  refine ⟨?_, ?_, ?_, ?_, ?_, ?_⟩
  · rw [same.workerCount]
    exact h.some
  · rw [same.workerCount, same.createdCount]
    exact h.bound
  · rw [same.workers, same.createdCount]
    exact h.created
  · rw [hphase, same.createdCount]
    exact h.unborn
  · rw [hphase, same.workers]
    exact h.gone
  · rw [same.joinedCount, same.workers, same.createdCount]
    exact h.count

theorem census_worker (hf : WorkerFrame s s' i) : Census s' := by
  obtain ⟨w, hw, hpool⟩ := hf.pool
  obtain ⟨p, hp, hphase⟩ := hf.phase
  -- the flags of the management are nobody else's
  have hflags := (forall_update_iff s.pool.workers (b := w) fun k x =>
    x.threadCreated = (s.pool.workers k).threadCreated ∧ x.threadJoined = (s.pool.workers k).threadJoined).mpr
      ⟨⟨hw.created, hw.joined⟩, fun _ _ => ⟨rfl, rfl⟩⟩
  have hlt : i < s.pool.createdCount := Nat.lt_of_not_le fun hle => hf.born ((h.unborn i).mpr hle)
  refine ⟨?_, ?_, ?_, ?_, ?_, ?_⟩
  · rw [hpool]
    exact h.some
  · rw [hpool]
    exact h.bound
  · intro k
    rw [hpool]
    show (update s.pool.workers i w k).threadCreated = true ↔ _
    rw [(hflags k).1]
    exact h.created k
  · rw [hpool, hphase]
    exact (forall_update_iff s.phase fun k x => x = .unborn ↔ s.pool.createdCount ≤ k).mpr
      ⟨iff_of_false hp (Nat.not_le.mpr hlt), fun k _ => h.unborn k⟩
  · intro k hk
    rw [hpool] at hk
    rw [hphase]
    change (update s.pool.workers i w k).threadJoined = true at hk
    rw [(hflags k).2] at hk
    have hki : k ≠ i := fun e => hf.live (e ▸ h.gone k hk)
    rw [update_of_ne hki]
    exact h.gone k hk
  · rw [hpool]
    exact h.count.trans (joinedAmong_congr _ fun k => (hflags k).2).symm

theorem census_create (hi : s.pool.createdCount = i) (hroom : i < s.pool.workerCount) : Census { s with
      pool := s.pool.createWorker i
      phase := update s.phase i .entering
      manager := .creating (i + 1) } := by
  have hnew : (s.pool.workers i).threadJoined = false :=
    Bool.eq_false_iff.mpr fun hj => Nat.lt_irrefl i ((h.joined_lt hj).trans_eq hi)
  have hjoined := (forall_update_iff s.pool.workers (b := { s.pool.workers i with threadCreated := true })
    fun k x => x.threadJoined = (s.pool.workers k).threadJoined).mpr ⟨rfl, fun _ _ => rfl⟩
  refine ⟨h.some, ?_, ?_, ?_, fun k hk => ?_, ?_⟩
  · show s.pool.createdCount + 1 ≤ s.pool.workerCount
    omega
  · refine (forall_update_iff s.pool.workers fun k x => x.threadCreated = true ↔ k < s.pool.createdCount + 1).mpr
      ⟨iff_of_true rfl (by omega), fun k hk => ?_⟩
    rw [h.created k]
    omega
  · refine (forall_update_iff s.phase fun k x => x = .unborn ↔ s.pool.createdCount + 1 ≤ k).mpr
      ⟨iff_of_false nofun (by omega), fun k hk => ?_⟩
    rw [h.unborn k]
    omega
  · change (update s.pool.workers i _ k).threadJoined = true at hk
    rw [hjoined k] at hk
    show (update s.phase i .entering k).Over
    have hki : k ≠ i := fun e => by rw [e, hnew] at hk; cases hk
    rw [update_of_ne hki]
    exact h.gone k hk
  · show s.pool.joinedCount = joinedAmong (update s.pool.workers i _) (s.pool.createdCount + 1)
    rw [joinedAmong_congr _ hjoined, joinedAmong_create (by rw [hi]; exact hnew)]
    exact h.count

end

theorem joinWorker_workers (pool : ThreadPool) (i code : Nat) (out : Reclaim) (k : Nat) :
    ((pool.joinWorker i code out).2.workers k).threadCreated = (pool.workers k).threadCreated ∧
    ((pool.joinWorker i code out).2.workers k).workerResult = (pool.workers k).workerResult ∧
    (((pool.joinWorker i code out).2.workers k).threadJoined = (pool.workers k).threadJoined ∨
      (k = i ∧ code = 0 ∧ ((pool.joinWorker i code out).2.workers k).threadJoined = true)) := by
  unfold ThreadPool.joinWorker
  split
  · exact ⟨rfl, rfl, .inl rfl⟩
  rename_i hcode
  dsimp only
  by_cases hk : k = i
  · rw [hk, update_self]
    exact ⟨rfl, rfl, .inr ⟨rfl, not_not.mp hcode, rfl⟩⟩
  · rw [update_of_ne hk]
    exact ⟨rfl, rfl, .inl rfl⟩

theorem joinWorker_flags (pool : ThreadPool) (i code : Nat) (out : Reclaim) :
    (pool.joinWorker i code out).2.workerCount = pool.workerCount ∧
    (pool.joinWorker i code out).2.createdCount = pool.createdCount ∧
    (pool.joinWorker i code out).2.stopRequested = pool.stopRequested ∧
    (pool.joinWorker i code out).2.executionEnabled = pool.executionEnabled ∧
    (pool.joinWorker i code out).2.startAttempted = pool.startAttempted := by
  unfold ThreadPool.joinWorker
  split <;> exact ⟨rfl, rfl, rfl, rfl, rfl⟩

theorem census_join {i code : Nat} {out : Reclaim} {m : Manager} (h : Census s)
    (here : (s.pool.workers i).threadCreated = true) (new : (s.pool.workers i).threadJoined = false)
    (gone : code = 0 → (s.phase i).Over) :
    Census { s with pool := (s.pool.joinWorker i code out).2, manager := m } := by
  obtain ⟨hcount, hcreated, -⟩ := joinWorker_flags s.pool i code out
  refine ⟨?_, ?_, fun k => ?_, fun k => ?_, fun k hk => ?_, ?_⟩
  · exact hcount.symm ▸ h.some
  · show (s.pool.joinWorker i code out).2.createdCount ≤ (s.pool.joinWorker i code out).2.workerCount
    rw [hcount, hcreated]
    exact h.bound
  · show ((s.pool.joinWorker i code out).2.workers k).threadCreated = true ↔
      k < (s.pool.joinWorker i code out).2.createdCount
    rw [hcreated, (joinWorker_workers ..).1]
    exact h.created k
  · show s.phase k = .unborn ↔ (s.pool.joinWorker i code out).2.createdCount ≤ k
    rw [hcreated]
    exact h.unborn k
  · rcases (joinWorker_workers s.pool i code out k).2.2 with he | ⟨rfl, hcode, -⟩
    · exact h.gone k (he.symm.trans hk)
    · exact gone hcode
  · show (s.pool.joinWorker i code out).2.joinedCount =
      joinedAmong (s.pool.joinWorker i code out).2.workers (s.pool.joinWorker i code out).2.createdCount
    rw [hcreated]
    unfold ThreadPool.joinWorker
    split
    · exact h.count
    · show s.pool.joinedCount + 1 = _
      rw [joinedAmong_join ((h.created i).mp here) new rfl, h.count]

/-! ## 4. The manager's stance -/

/-- A shutdown in this mode has closed the queue of a pool whose workers all exist and work. -/
structure Shutting (s : PoolSystem α τ) (mode : QueueState) : Prop where
  enabled : s.pool.executionEnabled = true
  all : s.pool.createdCount = s.pool.workerCount
  state : s.tasks.queue.state = mode
  mode : mode ≠ .opened

/-- What holds while the manager stands there. -/
def Standing (s : PoolSystem α τ) : Manager → Prop
  | .idle => True
  | .creating i => s.pool.executionEnabled = false ∧ s.pool.createdCount = i ∧ s.pool.startAttempted = true
  | .enabling => s.pool.stopRequested = false ∧ s.pool.createdCount = s.pool.workerCount
  | .closed mode _ before => Shutting s mode ∧ before = s.pool.joinedCount
  | .stopping why before =>
    ∀ mode close, why = .shutdown mode close → Shutting s mode ∧ before = s.pool.joinedCount
  | .joining why before i out => ∀ mode close, why = .shutdown mode close → Shutting s mode ∧
    (out.result = .ok → ∀ k < i, k < s.pool.createdCount → (s.pool.workers k).threadJoined = true ∧
      (before = 0 → (s.pool.workers k).workerResult = .ok)) ∧
    (before = 0 → ∀ k, i ≤ k → (s.pool.workers k).threadJoined = false)

/-- A shutdown has returned OK: everybody is joined, and without an error if nobody was before. -/
structure ShutDown (s : PoolSystem α τ) (mode : QueueState) (before : Nat) : Prop where
  shutting : Shutting s mode
  joined : ∀ i < s.pool.createdCount, (s.pool.workers i).threadJoined = true
  fine : before = 0 → ∀ i < s.pool.createdCount, (s.pool.workers i).workerResult = .ok

structure Stance (s : PoolSystem α τ) : Prop where
  fresh : s.pool.startAttempted = false → s.pool.createdCount = 0
  enabled : s.pool.executionEnabled = true → s.pool.createdCount = s.pool.workerCount
  standing : Standing s s.manager
  returns : ∀ mode report before, .shutdown mode .ok report before ∈ s.returns → ShutDown s mode before

/-- What no step takes back. -/
structure Kept (s s' : PoolSystem α τ) : Prop where
  workerCount : s'.pool.workerCount = s.pool.workerCount
  enabled : s.pool.executionEnabled = true → s'.pool.executionEnabled = true
  created : s.pool.executionEnabled = true → s'.pool.createdCount = s.pool.createdCount
  joined : ∀ i, (s.pool.workers i).threadJoined = true → (s'.pool.workers i).threadJoined = true
  result : ∀ i, (s.pool.workers i).threadJoined = true →
    (s'.pool.workers i).workerResult = (s.pool.workers i).workerResult
  state : s.tasks.queue.state ≠ .opened → s'.tasks.queue.state = s.tasks.queue.state

theorem Shutting.kept {mode : QueueState} (h : Shutting s mode) (k : Kept s s') : Shutting s' mode := by
  refine ⟨k.enabled h.enabled, ?_, ?_, h.mode⟩
  · rw [k.created h.enabled, k.workerCount]
    exact h.all
  · rw [k.state (by rw [h.state]; exact h.mode)]
    exact h.state

theorem ShutDown.kept {mode : QueueState} {before : Nat} (h : ShutDown s mode before)
    (k : Kept s s') : ShutDown s' mode before := by
  have hcreated := k.created h.shutting.enabled
  refine ⟨h.shutting.kept k, fun i hi => ?_, fun hb i hi => ?_⟩
  · rw [hcreated] at hi
    exact k.joined i (h.joined i hi)
  · rw [hcreated] at hi
    rw [k.result i (h.joined i hi)]
    exact h.fine hb i hi

theorem stance_other (h : Stance s) (k : Kept s s') (hmanager : s'.manager = s.manager)
    (hreturns : s'.returns = s.returns) (hattempted : s'.pool.startAttempted = s.pool.startAttempted)
    (hstop : s'.pool.stopRequested = s.pool.stopRequested)
    (henabled : s'.pool.executionEnabled = s.pool.executionEnabled)
    (hcreated : s'.pool.createdCount = s.pool.createdCount)
    (hjoined : s'.pool.joinedCount = s.pool.joinedCount)
    (hflags : ∀ i, (s'.pool.workers i).threadJoined = (s.pool.workers i).threadJoined) :
    Stance s' := by
  refine ⟨?_, ?_, ?_, fun mode report before hr => ?_⟩
  · rw [hattempted, hcreated]
    exact h.fresh
  · rw [henabled, hcreated, k.workerCount]
    exact h.enabled
  · have hstand := h.standing
    rw [hmanager]
    cases hm : s.manager with
    | idle => trivial
    | creating i =>
      rw [hm] at hstand
      exact ⟨henabled.trans hstand.1, hcreated.trans hstand.2.1, hattempted.trans hstand.2.2⟩
    | enabling =>
      rw [hm] at hstand
      exact ⟨hstop.trans hstand.1, by rw [hcreated, k.workerCount]; exact hstand.2⟩
    | closed mode close before =>
      rw [hm] at hstand
      exact ⟨hstand.1.kept k, hstand.2.trans hjoined.symm⟩
    | stopping why before =>
      rw [hm] at hstand
      intro mode close hwhy
      obtain ⟨hs, hb⟩ := hstand mode close hwhy
      exact ⟨hs.kept k, hb.trans hjoined.symm⟩
    | joining why before i out =>
      rw [hm] at hstand
      intro mode close hwhy
      obtain ⟨hs, hdone, hrest⟩ := hstand mode close hwhy
      refine ⟨hs.kept k, fun hok n hn hlt => ?_, fun hb n hn => ?_⟩
      · rw [hcreated] at hlt
        obtain ⟨hj, hfine⟩ := hdone hok n hn hlt
        exact ⟨k.joined n hj, fun hb => by rw [k.result n hj]; exact hfine hb⟩
      · rw [hflags n]
        exact hrest hb n hn
  · rw [hreturns] at hr
    exact (h.returns mode report before hr).kept k

section Keeping

variable [DecidableEq α] [DecidableEq τ] {why : Reclaimer} {out : Reclaim} {contents : List τ}

theorem below_state {t t' : TaskSystem (α ⊕ Nat) τ} (inv : TaskInv t contents) (h : Below t t')
    (hclosed : t.queue.state ≠ .opened) : t'.queue.state = t.queue.state := by
  rcases h with rfl | ⟨e, rfl⟩
  · rfl
  · exact (task_exec inv.hand.ring inv.waits e).2.2.state.resolve_right hclosed

section

variable (inv : TaskInv s.tasks contents)
include inv

theorem kept_same (hbelow : Below s.tasks s'.tasks) (same : PoolSame s.pool s'.pool) : Kept s s' :=
  ⟨same.workerCount, fun h => same.executionEnabled.trans h, fun _ => same.createdCount,
    fun i h => by rw [same.workers]; exact h, fun i _ => by rw [same.workers], below_state inv hbelow⟩

theorem kept_worker {i : Nat} (hbelow : Below s.tasks s'.tasks) (c : Census s)
    (hf : WorkerFrame s s' i) : Kept s s' := by
  obtain ⟨w, hslot, hpool⟩ := hf.pool
  refine ⟨by rw [hpool], by rw [hpool]; exact id, fun _ => by rw [hpool], ?_,
    fun k hk => ?_, below_state inv hbelow⟩
  · rw [hpool]
    exact (forall_update_iff s.pool.workers fun k x => (s.pool.workers k).threadJoined = true →
      x.threadJoined = true).mpr ⟨hslot.joined.trans, fun _ _ => id⟩
  · rw [hpool]
    show (update s.pool.workers i w k).workerResult = _
    have hki : k ≠ i := fun e => hf.live (e ▸ c.gone k hk)
    rw [update_of_ne hki]

theorem stance_caller {a : α} (h : Stance s) (m : CallerMove s a s') : Stance s' := by
  have hf := callerFrame m
  have hsame : PoolSame s.pool s'.pool := hf.pool.symm ▸ .refl _
  exact stance_other h (kept_same inv (below_caller m) hsame) hf.manager hf.returns (by rw [hf.pool])
    hsame.stopRequested hsame.executionEnabled hsame.createdCount hsame.joinedCount
    (fun i => by rw [hf.pool])

theorem stance_worker {i : Nat} (hbelow : Below s.tasks s'.tasks) (c : Census s)
    (h : Stance s) (hf : WorkerFrame s s' i) : Stance s' := by
  obtain ⟨w, hslot, hpool⟩ := hf.pool
  refine stance_other h (kept_worker inv hbelow c hf) hf.manager hf.returns (by rw [hpool])
    (by rw [hpool]) (by rw [hpool]) (by rw [hpool]) (by rw [hpool]) ?_
  rw [hpool]
  exact (forall_update_iff s.pool.workers fun k x => x.threadJoined = (s.pool.workers k).threadJoined).mpr
    ⟨hslot.joined, fun _ _ => rfl⟩

end

theorem census_manager (h : Census s) (st : Stance s) (m : ManagerMove s s') : Census s' := by
  cases m with
  | stay => exact h
  | answer pool freed r same plain => exact h.same same rfl
  | started pool same first attempted => exact h.same same rfl
  | created i at_ room =>
    have hstand := st.standing
    rw [at_] at hstand
    exact census_create h hstand.2.1 room
  | failed i result code at_ => exact h.same (.refl _) rfl
  | enabling stop all attempted => exact h.same (.refl _) rfl
  | enabled r at_ plain => exact { h with }
  | closing mode codes r plain => exact h.same (.refl _) rfl
  | closed mode codes close enabled all ok mode_ => exact h.same (.refl _) rfl
  | stopping why before from_ => exact h.same (.refl _) rfl
  | halted r plain => exact { h with }
  | stopped why before at_ => exact { h with }
  | skipped why before i out at_ skip => exact h.same (.refl _) rfl
  | joined why before i out code at_ here new gone => exact census_join h here new gone
  | reclaimed why before out r at_ return_ => exact h.same (.refl _) rfl

theorem kept_manager (inv : TaskInv s.tasks contents) (st : Stance s) (m : ManagerMove s s') :
    Kept s s' := by
  have hclose : ∀ mode codes, s.tasks.queue.state ≠ .opened →
      (s.tasks.exec (.close mode codes)).queue.state = s.tasks.queue.state :=
    fun mode codes => below_state inv (.inr ⟨.close mode codes, rfl⟩)
  cases m with
  | stay => exact kept_same inv (.inl rfl) (.refl _)
  | answer pool freed r same plain => exact kept_same inv (.inl rfl) same
  | started pool same first attempted => exact kept_same inv (.inl rfl) same
  | created i at_ room =>
    have hstand := st.standing
    rw [at_] at hstand
    -- workers are created before execution is enabled
    have hoff : s.pool.executionEnabled ≠ true := by rw [hstand.1]; simp
    have hslot := (forall_update_iff s.pool.workers (b := { s.pool.workers i with threadCreated := true }) fun k x =>
      x.threadJoined = (s.pool.workers k).threadJoined ∧ x.workerResult = (s.pool.workers k).workerResult).mpr
        ⟨⟨rfl, rfl⟩, fun _ _ => ⟨rfl, rfl⟩⟩
    exact ⟨rfl, id, fun h => absurd h hoff, fun k hk => (hslot k).1.trans hk, fun k _ => (hslot k).2,
      fun _ => rfl⟩
  | failed i result code at_ => exact kept_same inv (.inl rfl) (.refl _)
  | enabling stop all attempted => exact kept_same inv (.inl rfl) (.refl _)
  | enabled r at_ plain =>
    exact ⟨rfl, fun _ => rfl, fun _ => rfl, fun _ => id, fun _ _ => rfl, fun _ => rfl⟩
  | closing mode codes r plain =>
    exact ⟨rfl, id, fun _ => rfl, fun _ => id, fun _ _ => rfl, hclose mode codes⟩
  | closed mode codes close enabled all ok mode_ =>
    exact ⟨rfl, id, fun _ => rfl, fun _ => id, fun _ _ => rfl, hclose mode codes⟩
  | stopping why before from_ => exact kept_same inv (.inl rfl) (.refl _)
  | halted r plain => exact ⟨rfl, id, fun _ => rfl, fun _ => id, fun _ _ => rfl, fun _ => rfl⟩
  | stopped why before at_ =>
    exact ⟨rfl, id, fun _ => rfl, fun _ => id, fun _ _ => rfl, fun _ => rfl⟩
  | skipped why before i out at_ skip => exact kept_same inv (.inl rfl) (.refl _)
  | joined why before i out code at_ here new gone =>
    obtain ⟨hcount, hcreated, -, henabled, -⟩ := joinWorker_flags s.pool i code out
    refine ⟨hcount, fun h => henabled.trans h, fun _ => hcreated, fun k hk => ?_,
      fun k _ => (joinWorker_workers s.pool i code out k).2.1, fun _ => rfl⟩
    rcases (joinWorker_workers s.pool i code out k).2.2 with he | ⟨-, -, he⟩
    · exact he.trans hk
    · exact he
  | reclaimed why before out r at_ return_ => exact kept_same inv (.inl rfl) (.refl _)

omit [DecidableEq α] [DecidableEq τ] in
theorem returns_kept (st : Stance s) (k : Kept s s')
    (h : s'.returns = s.returns ∨ ∃ r : Return, r.Plain ∧ s'.returns = r :: s.returns) :
    ∀ mode report before, .shutdown mode .ok report before ∈ s'.returns → ShutDown s' mode before := by
  intro mode report before hr
  rcases h with he | ⟨r, hplain, he⟩
  · rw [he] at hr
    exact (st.returns mode report before hr).kept k
  · rw [he] at hr
    rcases List.mem_cons.mp hr with hr | hr
    · exact absurd hr.symm (hplain mode report before)
    · exact (st.returns mode report before hr).kept k

omit [DecidableEq α] [DecidableEq τ] in
theorem standing_join {before i code : Nat} (hstand : Standing s (.joining why before i out))
    (k : Kept s { s with
      pool := (s.pool.joinWorker i code out).2
      manager := .joining why before (i + 1) (s.pool.joinWorker i code out).1 })
    (new : (s.pool.workers i).threadJoined = false) :
    Standing { s with
      pool := (s.pool.joinWorker i code out).2
      manager := .joining why before (i + 1) (s.pool.joinWorker i code out).1 }
      (.joining why before (i + 1) (s.pool.joinWorker i code out).1) := by
  intro mode close hwhy
  obtain ⟨hs, hdone, hrest⟩ := hstand mode close hwhy
  obtain ⟨-, hcreated, -⟩ := joinWorker_flags s.pool i code out
  -- an answer that is still OK: the join worked, and the worker had no error
  have hok : (s.pool.joinWorker i code out).1.result = .ok → out.result = .ok ∧
      ((s.pool.joinWorker i code out).2.workers i).threadJoined = true ∧
      (s.pool.workers i).workerResult = .ok := by
    unfold ThreadPool.joinWorker
    split
    · split
      · exact nofun
      · rename_i hne
        exact fun h => absurd h hne
    · dsimp only
      rw [update_self]
      split
      · rename_i hne
        exact fun h => absurd h hne.1
      · rename_i hne
        exact fun h => ⟨h, rfl, not_not.mp fun hr => hne ⟨hr, h⟩⟩
  refine ⟨hs.kept k, fun hres n hn hlt => ?_, fun hb n hn => ?_⟩
  · obtain ⟨hout, hjoined, hfine⟩ := hok hres
    have hlt' : n < s.pool.createdCount := hcreated ▸ hlt
    rcases Nat.lt_succ_iff_lt_or_eq.mp hn with hn | rfl
    · obtain ⟨hj, hf⟩ := hdone hout n hn hlt'
      exact ⟨k.joined n hj, fun hb => (k.result n hj).trans (hf hb)⟩
    · exact ⟨hjoined, fun _ => (joinWorker_workers s.pool n code out n).2.1.trans hfine⟩
  · rcases (joinWorker_workers s.pool i code out n).2.2 with he | ⟨rfl, -, -⟩
    · exact he.trans (hrest hb n (by omega))
    · omega

omit [DecidableEq α] [DecidableEq τ] in
theorem shutDown_of_reclaimed {before : Nat} {mode : QueueState} {close : CloseReport} (c : Census s)
    (st : Stance s) (hat : (s.manager = .stopping why before ∧ s.pool.createdCount = s.pool.joinedCount) ∨
      ∃ i, s.manager = .joining why before i out ∧ s.pool.workerCount ≤ i) (hok : out.result = .ok)
    (hwhy : why = .shutdown mode close) : ShutDown s mode before := by
  have hstand := st.standing
  rcases hat with ⟨hat, hnone⟩ | ⟨i, hat, hend⟩
  · rw [hat] at hstand
    obtain ⟨hs, hb⟩ := hstand mode close hwhy
    refine ⟨hs, fun i hi => joinedAmong_eq (c.count.symm.trans hnone.symm) hi, fun hzero => ?_⟩
    have hpos := c.some
    have hall := hs.all
    omega
  · rw [hat] at hstand
    obtain ⟨hs, hdone, -⟩ := hstand mode close hwhy
    have hbound := c.bound
    refine ⟨hs, fun n hn => (hdone hok n (by omega) hn).1, fun hb n hn => ?_⟩
    exact (hdone hok n (by omega) hn).2 hb

theorem stance_manager (inv : TaskInv s.tasks contents) (c : Census s) (st : Stance s) (m : ManagerMove s s') :
    Stance s' := by
  have k := kept_manager inv st m
  have hstand := st.standing
  cases m with
  | stay => exact st
  | answer pool freed r same plain =>
    refine ⟨fun h => ?_, ?_, trivial, returns_kept st k (.inr ⟨r, plain, rfl⟩)⟩
    · show pool.createdCount = 0
      rw [same.createdCount]
      refine st.fresh (Bool.eq_false_iff.mpr fun ht => ?_)
      exact Bool.false_ne_true (h.symm.trans (same.attempted ht))
    · show pool.executionEnabled = true → pool.createdCount = pool.workerCount
      rw [same.executionEnabled, same.createdCount, same.workerCount]
      exact st.enabled
  | started pool same first attempted =>
    have hnone := st.fresh first
    have hoff : s.pool.executionEnabled = false := by
      refine Bool.eq_false_iff.mpr fun he => ?_
      have hall := st.enabled he
      have hpos := c.some
      omega
    refine ⟨fun h => absurd (attempted.symm.trans h) nofun, ?_, ?_, returns_kept st k (.inl rfl)⟩
    · show pool.executionEnabled = true → pool.createdCount = pool.workerCount
      rw [same.executionEnabled, same.createdCount, same.workerCount]
      exact st.enabled
    · exact ⟨same.executionEnabled.trans hoff, same.createdCount.trans hnone, attempted⟩
  | created i at_ room =>
    rw [at_] at hstand
    refine ⟨fun h => ?_, fun h => ?_, ⟨hstand.1, ?_, hstand.2.2⟩, returns_kept st k (.inl rfl)⟩
    · exact absurd (hstand.2.2.symm.trans h) nofun
    · exact absurd (hstand.1.symm.trans h) nofun
    · exact congrArg (· + 1) hstand.2.1
  | failed i result code at_ =>
    exact ⟨st.fresh, st.enabled, fun mode close => nofun, returns_kept st k (.inl rfl)⟩
  | enabling stop all attempted =>
    exact ⟨st.fresh, st.enabled, ⟨stop, all⟩, returns_kept st k (.inl rfl)⟩
  | enabled r at_ plain =>
    rw [at_] at hstand
    exact ⟨st.fresh, fun _ => hstand.2, trivial, returns_kept st k (.inr ⟨r, plain, rfl⟩)⟩
  | closing mode codes r plain =>
    exact ⟨st.fresh, st.enabled, trivial, returns_kept st k (.inr ⟨r, plain, rfl⟩)⟩
  | closed mode codes close enabled all ok mode_ =>
    refine ⟨st.fresh, st.enabled, ⟨⟨enabled, all, ?_, mode_⟩, rfl⟩, returns_kept st k (.inl rfl)⟩
    exact TaskQueue.close_state (.inl ok)
  | stopping why before from_ =>
    refine ⟨st.fresh, st.enabled, fun mode close hwhy => ?_, returns_kept st k (.inl rfl)⟩
    rcases from_ with ⟨rfl, -⟩ | ⟨mode', close', hat, rfl⟩
    · cases hwhy
    rw [hat] at hstand
    cases hwhy
    exact ⟨hstand.1.kept k, hstand.2⟩
  | halted r plain =>
    exact ⟨st.fresh, st.enabled, trivial, returns_kept st k (.inr ⟨r, plain, rfl⟩)⟩
  | stopped why before at_ =>
    rw [at_] at hstand
    refine ⟨st.fresh, st.enabled, fun mode close hwhy => ?_, returns_kept st k (.inl rfl)⟩
    obtain ⟨hs, hb⟩ := hstand mode close hwhy
    refine ⟨hs.kept k, fun _ n hn => absurd hn (Nat.not_lt_zero n), fun hzero n _ => ?_⟩
    -- nobody is joined: not among the workers that exist, nor beyond them
    refine Bool.eq_false_iff.mpr fun hj => ?_
    have hnone : joinedAmong s.pool.workers s.pool.createdCount = 0 := by
      rw [← c.count, ← hb, hzero]
    have hfalse := joinedAmong_zero hnone (c.joined_lt hj)
    exact Bool.false_ne_true (hfalse.symm.trans hj)
  | skipped why before i out at_ skip =>
    rw [at_] at hstand
    refine ⟨st.fresh, st.enabled, fun mode close hwhy => ?_, returns_kept st k (.inl rfl)⟩
    obtain ⟨hs, hdone, hrest⟩ := hstand mode close hwhy
    refine ⟨hs.kept k, fun hres n hn hlt => ?_, fun hb n hn => hrest hb n (by omega)⟩
    rcases Nat.lt_succ_iff_lt_or_eq.mp hn with hn | rfl
    · exact hdone hres n hn hlt
    have hcreated := (c.created n).mpr hlt
    have hj := skip.resolve_left (by rw [hcreated]; simp)
    refine ⟨hj, fun hb => ?_⟩
    exact absurd ((hrest hb n le_rfl).symm.trans hj) Bool.false_ne_true
  | joined why before i out code at_ here new gone =>
    rw [at_] at hstand
    obtain ⟨hcount, hcreated, -, henabled, hattempted⟩ := joinWorker_flags s.pool i code out
    refine ⟨?_, ?_, standing_join hstand k new, returns_kept st k (.inl rfl)⟩
    · show (s.pool.joinWorker i code out).2.startAttempted = false →
        (s.pool.joinWorker i code out).2.createdCount = 0
      rw [hattempted, hcreated]
      exact st.fresh
    · show (s.pool.joinWorker i code out).2.executionEnabled = true →
        (s.pool.joinWorker i code out).2.createdCount = (s.pool.joinWorker i code out).2.workerCount
      rw [henabled, hcreated, hcount]
      exact st.enabled
  | reclaimed why before out r at_ return_ =>
    refine ⟨st.fresh, st.enabled, trivial, fun mode report b hr => ?_⟩
    rcases List.mem_cons.mp hr with hr | hr
    · obtain ⟨hok, rfl, close, hwhy⟩ := return_ mode report b hr.symm
      exact (shutDown_of_reclaimed c st at_ hok hwhy).kept k
    · exact (st.returns mode report b hr).kept k

end Keeping

end Vireo.Thread
