/-
  File:      Vireo/Thread/ThreadPoolRun.lean
  Subject:   A THREAD POOL AT WORK: callers, workers and one manager on one pool and its queue.

  The management calls of a pool are serialised by their contract, so there is one manager, who is
  inside at most one call. Everybody else acts in any order, between any two of the manager's pieces.
  A submitter is admitted by the pool's fields first and pushes later. Tasks are named once and for all:
  no name is given to two tasks.

  * `PoolSystem` -- the pool, the task system under it, where everybody stands, and the ledger of what
    was executed, destroyed by a worker and handed back;
  * `PoolSystem.exec` -- one step of a caller, a worker or the manager.
-/
import Vireo.Thread.TaskTransfer
import Vireo.Thread.ThreadPool

namespace Vireo.Thread

open Vireo.Lib Function

/-- The call on whose behalf workers are joined: a `start` that could not create its next worker, or
    one of the two stopping calls. -/
inductive Reclaimer where
  | start (result : Result) (error : Nat)
  | stopAndJoin
  | shutdown (mode : QueueState) (close : CloseReport)
deriving DecidableEq

/-- A finished management call; `before` is how many workers were joined when it began. -/
inductive Return where
  | configure (result : Result)
  | start (result : Result) (report : PoolReport)
  | enable (result : Result) (report : PoolReport)
  | stopAndJoin (result : Result) (report : PoolReport) (before : Nat)
  | shutdown (mode : QueueState) (result : Result) (report : ShutdownReport) (before : Nat)
  | destroy (result : Result)
deriving DecidableEq

/-- Where the manager stands. -/
inductive Manager where
  | idle
  | creating (i : Nat)
  | enabling
  | closed (mode : QueueState) (close : CloseReport) (before : Nat)
  | stopping (why : Reclaimer) (before : Nat)
  | joining (why : Reclaimer) (before i : Nat) (out : Reclaim)

/-- The whole system. The callers are of type `α`; worker `i` is the participant `inr i` of the task
    system. -/
structure PoolSystem (α τ : Type) where
  pool : ThreadPool
  tasks : TaskSystem (α ⊕ Nat) τ
  phase : Nat → WorkerPhase
  admitted : α → Bool
  manager : Manager
  returns : List Return
  freed : Bool
  born : List τ
  executed : List τ
  destroyed : List τ
  cancelled : List τ

/-- What a caller can do next. -/
inductive CallerEvent (τ : Type) where
  | supply (t : τ)
  | dispose
  | trySubmit
  | push (codes : SyncCodes)
  | takeCancelled (codes : SyncCodes)
  | close (mode : QueueState) (codes : SyncCodes)
  | prepareWait (init : Nat)

/-- What a worker can meet next. -/
inductive WorkerEvent where
  | enter (cancel lock unlock : Nat)
  | unpark (wait unlock : Nat)
  | waitPop (codes : SyncCodes)
  | wake (wait unlock : Nat)
  | execute (result : Result)
  | destroyTask

/-- What the manager can do, or meet, next. -/
inductive ManagerEvent where
  | configure (codes : SyncCodes)
  | start (codes : SyncCodes) (mutexInit conditionInit : Nat)
  | create (code : Nat)
  | enableCheck (codes : SyncCodes)
  | enable (codes : SyncCodes)
  | shutdown (mode : QueueState) (codes : SyncCodes)
  | stopAndJoin (codes : SyncCodes)
  | stop (codes : SyncCodes)
  | join (code : Nat)
  | destroy (condition mutex : Nat)

inductive PoolEvent (α τ : Type) where
  | caller (a : α) (e : CallerEvent τ)
  | worker (i : Nat) (e : WorkerEvent)
  | manager (e : ManagerEvent)

namespace PoolSystem

variable {α τ : Type} [DecidableEq α] [DecidableEq τ]

/-! ## 1. Callers and workers -/

variable (s : PoolSystem α τ)

/-- A step of a caller. An admitted submitter can only push. -/
def callerStep (a : α) : CallerEvent τ → PoolSystem α τ
  | .supply t =>
    if s.admitted a ∨ t ∈ s.born ∨ (s.tasks.owner (.inl a)).isSome then s
    else { s with tasks := s.tasks.exec (.supply (.inl a) t), born := t :: s.born }
  | .dispose =>
    if s.admitted a then s else { s with tasks := s.tasks.exec (.dispose (.inl a)) }
  | .trySubmit =>
    if s.freed ∨ (s.pool.submitCheck (s.tasks.owner (.inl a))).isSome then s
    else { s with admitted := update s.admitted a true }
  | .push codes =>
    if s.admitted a then
      { s with
        tasks := s.tasks.exec (.push (.inl a) codes)
        admitted := update s.admitted a false }
    else s
  | .takeCancelled codes =>
    if s.admitted a then s
    else
      let x := s.tasks.queue.transfer (s.tasks.owner (.inl a)) .takeCancelled codes
      { s with
        tasks := s.tasks.exec (.takeCancelled (.inl a) codes)
        cancelled := s.cancelled ++ if x.report.transferred then x.owner.toList else [] }
  | .close mode codes => { s with tasks := s.tasks.exec (.close mode codes) }
  | .prepareWait init => { s with tasks := s.tasks.exec (.prepareWait init) }

/-- Worker `i` has a new slot and stands somewhere else. -/
def moved (i : Nat) (x : WorkerSlot × WorkerPhase) : PoolSystem α τ :=
  { s with
    pool := { s.pool with workers := update s.pool.workers i x.1 }
    phase := update s.phase i x.2 }

/-- A section of `wait_pop` of worker `i` has ended. -/
def took (i : Nat) (e : QueueEvent (α ⊕ Nat) τ) :
    WaitOutcome τ (TaskQueue τ) → PoolSystem α τ
  | .blocked => { s with tasks := s.tasks.exec e, phase := update s.phase i .waiting }
  | .returned x => { s with tasks := s.tasks.exec e }.moved i ((s.pool.workers i).received x)

/-- A step of worker `i`. -/
def workerStep (i : Nat) : WorkerEvent → PoolSystem α τ
  | .enter cancel lock unlock =>
    if s.phase i = .entering then s.moved i (s.pool.enter (s.pool.workers i) cancel lock unlock) else s
  | .unpark wait unlock =>
    if s.phase i = .parked then s.moved i (s.pool.unpark (s.pool.workers i) wait unlock) else s
  | .waitPop codes =>
    if s.phase i = .taking then
      s.took i (.waitPop (.inr i) codes) (s.tasks.queue.waitPop (s.tasks.owner (.inr i)) codes)
    else s
  | .wake wait unlock =>
    if s.phase i = .waiting then
      s.took i (.wake (.inr i) wait unlock) (s.tasks.queue.waitPopWake wait unlock)
    else s
  | .execute result =>
    if s.phase i = .holding then
      { s.moved i ((s.pool.workers i).ran result, .spent) with
        executed := s.executed ++ (s.tasks.owner (.inr i)).toList }
    else s
  | .destroyTask =>
    if s.phase i = .spent ∨ s.phase i = .discarding then
      { s with
        tasks := s.tasks.exec (.dispose (.inr i))
        phase := update s.phase i (if s.phase i = .spent then .taking else .broken)
        destroyed := s.destroyed ++ (s.tasks.owner (.inr i)).toList }
    else s

/-! ## 2. The manager -/

/-- A management call returns. -/
def back (r : Return) : PoolSystem α τ :=
  { s with manager := .idle, returns := r :: s.returns }

variable (why : Reclaimer)

/-- The call on whose behalf the workers were joined returns. -/
def reclaimed (before : Nat) (out : Reclaim) :
    PoolSystem α τ :=
  let report := { s.pool.report out.stage out.pthreadError with queueReport := out.queueReport }
  match why with
  | .start result error =>
    s.back (.start result { s.pool.report .createWorker error with
      cleanupResult := out.result
      cleanupStage := out.stage
      cleanupPthreadError := out.pthreadError
      queueReport := out.queueReport })
  | .stopAndJoin => s.back (.stopAndJoin out.result report before)
  | .shutdown mode close =>
    s.back (.shutdown mode out.result
      ⟨if out.result = .ok then .none else .joinWorkers, true, close, true, report⟩ before)

/-- A stopping call is turned down by the checks of `stop_and_join`. -/
def refused (before : Nat) (x : Result × PoolStage) :
    PoolSystem α τ :=
  s.reclaimed why before ⟨x.1, x.2, 0, .zero⟩

/-- `vireo_thread_pool_stop_and_join` up to the first use of the pool's mutex. -/
def stopAndJoin (before : Nat) (codes : SyncCodes) :
    PoolSystem α τ :=
  match s.pool.stopAndJoinCheck s.tasks.queue codes with
  | some x => s.refused why before x
  | none => { s with manager := .stopping why before }

/-- `stop_and_join_workers` up to its joining loop. -/
def stop (before : Nat) (codes : SyncCodes) : PoolSystem α τ :=
  match s.pool.stopWorkers codes with
  | (some out, pool) => { s with pool := pool }.reclaimed why before out
  | (none, pool) =>
    { s with pool := pool, manager := .joining why before 0 ⟨.ok, .none, 0, .zero⟩ }

/-- One turn of the joining loop; a join waits until the worker has returned. -/
def joinTurn (before i : Nat) (out : Reclaim) (code : Nat) :
    PoolSystem α τ :=
  if i < s.pool.workerCount then
    if (s.pool.workers i).threadCreated = false ∨ (s.pool.workers i).threadJoined = true then
      { s with manager := .joining why before (i + 1) out }
    else if code = 0 ∧ ¬ (s.phase i).Over then s
    else
      { s with
        pool := (s.pool.joinWorker i code out).2
        manager := .joining why before (i + 1) (s.pool.joinWorker i code out).1 }
  else s.reclaimed why before out

/-- `vireo_thread_pool_shutdown_and_join_with_closer` up to the call of `stop_and_join`. -/
def shutdown (mode : QueueState) (codes : SyncCodes) : PoolSystem α τ :=
  match s.pool.shutdownCheck mode with
  | some x => s.back (.shutdown mode x.1 ⟨x.2, false, .zero, false, .zero⟩ s.pool.joinedCount)
  | none =>
    let s' := { s with tasks := s.tasks.exec (.close mode codes) }
    let answer := s.tasks.queue.close mode codes
    if answer.1 ≠ .ok then
      s'.back (.shutdown mode answer.1 ⟨.closeQueue, true, answer.2.1, false, .zero⟩
        s.pool.joinedCount)
    else { s' with manager := .closed mode answer.2.1 s.pool.joinedCount }

/-- One turn of the creating loop of `start`. -/
def createTurn (i code : Nat) : PoolSystem α τ :=
  if i < s.pool.workerCount then
    if code ≠ 0 then { s with manager := .stopping (.start (ThreadPool.createFailed code) code) 0 }
    else
      { s with
        pool := s.pool.createWorker i
        phase := update s.phase i .entering
        manager := .creating (i + 1) }
  else s.back (.start .ok (s.pool.report .none 0))

/-- A step of the manager. -/
def managerStep (e : ManagerEvent) : PoolSystem α τ :=
  if s.freed then s
  else
    match s.manager, e with
    | .idle, .configure codes =>
      let x := s.pool.configure s.tasks.queue codes
      { s with pool := x.2.2 }.back (.configure x.1)
    | .idle, .start codes mutexInit conditionInit =>
      match s.pool.start s.tasks.queue codes mutexInit conditionInit with
      | (some x, pool) => { s with pool := pool }.back (.start x.1 (pool.report x.2.1 x.2.2))
      | (none, pool) => { s with pool := pool, manager := .creating 0 }
    | .creating i, .create code => s.createTurn i code
    | .idle, .enableCheck codes =>
      match s.pool.enableCheck s.tasks.queue codes with
      | some x => s.back (.enable x.1 (s.pool.report x.2 0))
      | none => { s with manager := .enabling }
    | .enabling, .enable codes =>
      let x := s.pool.enableSection codes
      { s with pool := x.2.2.2 }.back (.enable x.1 (x.2.2.2.report x.2.1 x.2.2.1))
    | .idle, .shutdown mode codes => s.shutdown mode codes
    | .closed mode close before, .stopAndJoin codes =>
      s.stopAndJoin (.shutdown mode close) before codes
    | .idle, .stopAndJoin codes => s.stopAndJoin .stopAndJoin s.pool.joinedCount codes
    | .stopping why before, .stop codes => s.stop why before codes
    | .joining why before i out, .join code => s.joinTurn why before i out code
    | .idle, .destroy condition mutex =>
      let x := s.pool.destroy condition mutex
      { s with pool := x.2, freed := decide (x.1 = Result.ok) }.back (.destroy x.1)
    | _, _ => s

/-- One step. -/
def exec : PoolEvent α τ → PoolSystem α τ
  | .caller a e => s.callerStep a e
  | .worker i e => s.workerStep i e
  | .manager e => s.managerStep e

/-- A fresh pool over a fresh queue. -/
def begin (pool : ThreadPool) (q : TaskQueue τ) : PoolSystem α τ where
  pool := pool
  tasks := ⟨q, fun _ => none, fun _ => false, [], [], []⟩
  phase := fun _ => .unborn
  admitted := fun _ => false
  manager := .idle
  returns := []
  freed := false
  born := []
  executed := []
  destroyed := []
  cancelled := []

end PoolSystem

/-- The states reached from a created pool and a created queue. -/
inductive PoolRun {α τ : Type} [DecidableEq α] [DecidableEq τ] : PoolSystem α τ → Prop
  | create {workerCount poolBytes capacity queueBytes : UInt64} {memory memory' : Bool} {init : Nat}
      {pool : ThreadPool} {q : TaskQueue τ}
      (hpool : ThreadPool.create workerCount poolBytes memory = .ok pool)
      (hqueue : TaskQueue.create capacity queueBytes memory' init = .ok q) :
      PoolRun (.begin pool q)
  | step {s : PoolSystem α τ} (h : PoolRun s) (e : PoolEvent α τ) : PoolRun (s.exec e)

/-! ## 3. The task system below -/

section Below

variable {α τ : Type} [DecidableEq α] [DecidableEq τ] {s : PoolSystem α τ}

/-- The tasks stay as they are, or make one step of their own. -/
def Below (t t' : TaskSystem (α ⊕ Nat) τ) : Prop := t' = t ∨ ∃ e, t' = t.exec e

theorem below_took {i : Nat} {e : QueueEvent (α ⊕ Nat) τ} (o : WaitOutcome τ (TaskQueue τ)) :
    (s.took i e o).tasks = s.tasks.exec e := by
  cases o <;> rfl

omit [DecidableEq α] [DecidableEq τ] in
theorem reclaimed_tasks (why : Reclaimer) (before : Nat) (out : Reclaim) :
    (s.reclaimed why before out).tasks = s.tasks := by
  cases why <;> rfl

omit [DecidableEq α] [DecidableEq τ] in
theorem stopAndJoin_tasks (why : Reclaimer) (before : Nat) (codes : SyncCodes) :
    (s.stopAndJoin why before codes).tasks = s.tasks := by
  unfold PoolSystem.stopAndJoin
  split
  · exact reclaimed_tasks ..
  · rfl

/-- The steps of a caller, with what the code has checked before each. -/
inductive CallerMove (s : PoolSystem α τ) (a : α) : PoolSystem α τ → Prop
  | stay : CallerMove s a s
  | supply (t : τ) (new : t ∉ s.born) (empty : s.tasks.owner (.inl a) = none) :
      CallerMove s a { s with tasks := s.tasks.exec (.supply (.inl a) t), born := t :: s.born }
  | dispose : CallerMove s a { s with tasks := s.tasks.exec (.dispose (.inl a)) }
  | admitted : CallerMove s a { s with admitted := update s.admitted a true }
  | push (codes : SyncCodes) : CallerMove s a { s with
      tasks := s.tasks.exec (.push (.inl a) codes)
      admitted := update s.admitted a false }
  | takeCancelled (codes : SyncCodes) (x : Exchange τ (TaskQueue τ))
      (answer : x = s.tasks.queue.transfer (s.tasks.owner (.inl a)) .takeCancelled codes) : CallerMove s a { s with
        tasks := s.tasks.exec (.takeCancelled (.inl a) codes)
        cancelled := s.cancelled ++ if x.report.transferred then x.owner.toList else [] }
  | close (mode : QueueState) (codes : SyncCodes) :
      CallerMove s a { s with tasks := s.tasks.exec (.close mode codes) }
  | prepareWait (init : Nat) : CallerMove s a { s with tasks := s.tasks.exec (.prepareWait init) }

theorem callerMove (a : α) (e : CallerEvent τ) : CallerMove s a (s.callerStep a e) := by
  cases e with
  | supply t =>
    rw [PoolSystem.callerStep]
    split
    · exact .stay
    rename_i hguard
    rw [not_or, not_or, Option.not_isSome_iff_eq_none] at hguard
    exact .supply t hguard.2.1 hguard.2.2
  | dispose =>
    rw [PoolSystem.callerStep]
    split
    · exact .stay
    · exact .dispose
  | trySubmit =>
    rw [PoolSystem.callerStep]
    split
    · exact .stay
    · exact .admitted
  | push codes =>
    rw [PoolSystem.callerStep]
    split
    · exact .push codes
    · exact .stay
  | takeCancelled codes =>
    rw [PoolSystem.callerStep]
    split
    · exact .stay
    · exact .takeCancelled codes _ rfl
  | close mode codes => exact .close mode codes
  | prepareWait init => exact .prepareWait init

theorem below_caller {a : α} {s' : PoolSystem α τ} (h : CallerMove s a s') : Below s.tasks s'.tasks := by
  cases h with
  | stay | admitted => exact .inl rfl
  | supply t => exact .inr ⟨.supply (.inl a) t, rfl⟩
  | dispose => exact .inr ⟨.dispose (.inl a), rfl⟩
  | push codes => exact .inr ⟨.push (.inl a) codes, rfl⟩
  | takeCancelled codes => exact .inr ⟨.takeCancelled (.inl a) codes, rfl⟩
  | close mode codes => exact .inr ⟨.close mode codes, rfl⟩
  | prepareWait init => exact .inr ⟨.prepareWait init, rfl⟩

theorem below_worker (i : Nat) (e : WorkerEvent) : Below s.tasks (s.workerStep i e).tasks := by
  cases e with
  | enter cancel lock unlock =>
    rw [PoolSystem.workerStep]
    split <;> exact .inl rfl
  | unpark wait unlock =>
    rw [PoolSystem.workerStep]
    split <;> exact .inl rfl
  | waitPop codes =>
    rw [PoolSystem.workerStep]
    split
    · exact .inr ⟨_, below_took _⟩
    · exact .inl rfl
  | wake wait unlock =>
    rw [PoolSystem.workerStep]
    split
    · exact .inr ⟨_, below_took _⟩
    · exact .inl rfl
  | execute result =>
    rw [PoolSystem.workerStep]
    split <;> exact .inl rfl
  | destroyTask =>
    rw [PoolSystem.workerStep]
    split
    · exact .inr ⟨.dispose (.inr i), rfl⟩
    · exact .inl rfl

theorem below_manager (e : ManagerEvent) : (s.managerStep e).tasks = s.tasks ∨
    ∃ mode codes, (s.managerStep e).tasks = s.tasks.exec (.close mode codes) := by
  unfold PoolSystem.managerStep
  split
  · exact .inl rfl
  split
  · exact .inl rfl
  · split <;> exact .inl rfl
  · unfold PoolSystem.createTurn
    split
    · split <;> exact .inl rfl
    · exact .inl rfl
  · split <;> exact .inl rfl
  · exact .inl rfl
  · unfold PoolSystem.shutdown
    split
    · exact .inl rfl
    · dsimp only
      split <;> exact .inr ⟨_, _, rfl⟩
  · exact .inl (stopAndJoin_tasks ..)
  · exact .inl (stopAndJoin_tasks ..)
  · unfold PoolSystem.stop
    split
    · exact .inl (reclaimed_tasks ..)
    · exact .inl rfl
  · unfold PoolSystem.joinTurn
    split
    · split
      · exact .inl rfl
      · split <;> exact .inl rfl
    · exact .inl (reclaimed_tasks ..)
  · exact .inl rfl
  · exact .inl rfl

/-- **A step of the pool is at most one step of the task system below.** -/
theorem below_exec (e : PoolEvent α τ) : Below s.tasks (s.exec e).tasks := by
  cases e with
  | caller a e => exact below_caller (callerMove a e)
  | worker i e => exact below_worker i e
  | manager e => exact (below_manager e).imp id fun ⟨_, _, h⟩ => ⟨_, h⟩

end Below

end Vireo.Thread
