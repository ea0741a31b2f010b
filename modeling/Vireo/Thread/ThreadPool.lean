/-
  File:      Vireo/Thread/ThreadPool.lean
  Subject:   THE THREAD POOL (`src/thread/thread_pool.c`): fixed workers over one borrowed task queue.

  A management call and a worker's body are cut where another thread can act in between: at a mutex, at a
  wait, at the creation or the joining of a thread, at a queue operation. Each piece is a function of
  the pool, with the codes that the pthread operations return passed in.

  Null arguments and the operation tables do not exist here; `errno` is restored by every entry.
-/
import Vireo.Thread.TaskQueue

namespace Vireo.Thread

/-- `vireo_thread_pool_stage_t`. -/
inductive PoolStage where
  | none
  | checkQueue
  | initMutex
  | initCondition
  | createWorker
  | lock
  | wake
  | unlock
  | joinWorker
  | setCancelState
  | wait
  | takeTask
  | executeTask
deriving DecidableEq

/-- `vireo_thread_pool_submit_stage_t`. -/
inductive SubmitStage where
  | none
  | checkPool
  | submitQueue
deriving DecidableEq

/-- `vireo_thread_pool_shutdown_stage_t`. -/
inductive ShutdownStage where
  | none
  | checkPool
  | closeQueue
  | joinWorkers
deriving DecidableEq

/-- `vireo_thread_pool_worker_slot_t`: the management's two flags and the worker's first error. -/
structure WorkerSlot where
  threadCreated : Bool
  threadJoined : Bool
  workerStage : PoolStage
  workerPthreadError : Nat
  workerResult : Result
  workerQueueReport : TransferReport

/-- `struct vireo_thread_pool` without its operation tables and its configuration. -/
structure ThreadPool where
  workerCount : Nat
  allocatedBytes : UInt64
  maxMemoryBytes : UInt64
  configured : Bool
  mutexInitialized : Bool
  conditionInitialized : Bool
  retiring : Bool
  startAttempted : Bool
  stopRequested : Bool
  executionEnabled : Bool
  createdCount : Nat
  joinedCount : Nat
  workers : Nat → WorkerSlot

/-- `vireo_thread_pool_report_t`. -/
structure PoolReport where
  stage : PoolStage
  pthreadError : Nat
  startAttempted : Bool
  stopRequested : Bool
  createdCount : Nat
  joinedCount : Nat
  cleanupResult : Result
  cleanupStage : PoolStage
  cleanupPthreadError : Nat
  executionEnabled : Bool
  queueReport : TransferReport
deriving DecidableEq

/-- `vireo_thread_pool_submit_report_t`. -/
structure SubmitReport where
  stage : SubmitStage
  queueCalled : Bool
  queueReport : TransferReport
deriving DecidableEq

/-- `vireo_thread_pool_shutdown_report_t`. -/
structure ShutdownReport where
  stage : ShutdownStage
  closeCalled : Bool
  closeReport : CloseReport
  joinCalled : Bool
  poolReport : PoolReport
deriving DecidableEq

/-- What `stop_and_join_workers` returns. -/
structure Reclaim where
  result : Result
  stage : PoolStage
  pthreadError : Nat
  queueReport : TransferReport

/-- Where a worker stands. `ended` is the normal return, `broken` the return after an error of a
    pthread operation or of the queue. -/
inductive WorkerPhase where
  | unborn
  | entering
  | parked
  | taking
  | waiting
  | holding
  | spent
  | discarding
  | ended
  | broken
deriving DecidableEq

/-- The thread has returned and can be joined. -/
def WorkerPhase.Over (p : WorkerPhase) : Prop := p = .ended ∨ p = .broken

instance (p : WorkerPhase) : Decidable p.Over := inferInstanceAs (Decidable (_ ∨ _))

/-- The report with every field zero. -/
def TransferReport.zero : TransferReport := ⟨.none, false, 0⟩
def CloseReport.zero : CloseReport := ⟨.none, false, 0⟩
def PoolReport.zero : PoolReport := ⟨.none, 0, false, false, 0, 0, .ok, .none, 0, false, .zero⟩

/-- A slot as the creation of the pool leaves it. -/
def WorkerSlot.fresh : WorkerSlot := ⟨false, false, .none, 0, .ok, .zero⟩

namespace WorkerSlot

/-! ## 1. A worker -/

/-- `record_worker_error`. -/
def recordWorkerError (slot : WorkerSlot) (stage : PoolStage) (error : Nat) : WorkerSlot :=
  if slot.workerResult = .ok then
    { slot with workerResult := .internal, workerStage := stage, workerPthreadError := error }
  else slot

/-- The part of `execute_tasks` after `wait_pop`: the end, the record of a failed call with its task, or a
    task to run. -/
def received {τ : Type} (slot : WorkerSlot) (x : Exchange τ (TaskQueue τ)) :
    WorkerSlot × WorkerPhase :=
  if x.result = .cancelled ∧ x.owner.isNone then (slot, .ended)
  else if x.result ≠ .ok then
    (if slot.workerResult = .ok then
      { slot with
        workerResult := x.result
        workerStage := .takeTask
        workerPthreadError := x.report.pthreadError
        workerQueueReport := x.report }
      else slot, .discarding)
  else (slot, .holding)

/-- The part of `execute_tasks` after the callback has returned `result`. -/
def ran (slot : WorkerSlot) (result : Result) : WorkerSlot :=
  if result ≠ .ok ∧ slot.workerResult = .ok then
    { slot with workerResult := result, workerStage := .executeTask }
  else slot

end WorkerSlot

namespace ThreadPool

/-- `VIREO_THREAD_POOL_MAX_WORKERS`. -/
def maxWorkers : UInt64 := 256

/-- `VIREO_THREAD_POOL_MAX_ALLOCATION_BYTES`. -/
def maxAllocationBytes : UInt64 := 67108864

/-- `sizeof(vireo_thread_pool_t)` and `sizeof(vireo_thread_pool_worker_slot_t)` on LP64. -/
def controlBytes : UInt64 := 304
def slotBytes : UInt64 := 48

/-- The pool that `create_with_allocator` publishes. -/
def fresh (workerCount maxMemoryBytes bytes : UInt64) : ThreadPool where
  workerCount := workerCount.toNat
  allocatedBytes := bytes
  maxMemoryBytes := maxMemoryBytes
  configured := false
  mutexInitialized := false
  conditionInitialized := false
  retiring := false
  startAttempted := false
  stopRequested := false
  executionEnabled := false
  createdCount := 0
  joinedCount := 0
  workers := fun _ => .fresh

/-- `vireo_thread_pool_create_with_allocator`; `memory` says whether the block was allocated. -/
def create (workerCount maxMemoryBytes : UInt64) (memory : Bool) : Except Result ThreadPool :=
  if workerCount = 0 ∨ maxMemoryBytes = 0 then .error .invalidArgument
  else
    match checkedU64Mul workerCount slotBytes with
    | .error e => .error e
    | .ok slots =>
      match checkedU64Add controlBytes slots with
      | .error e => .error e
      | .ok bytes =>
        if workerCount > maxWorkers ∨ maxMemoryBytes > maxAllocationBytes ∨ bytes > maxMemoryBytes then
          .error .range
        else if memory = false then .error .noMemory
        else .ok (fresh workerCount maxMemoryBytes bytes)

variable (pool : ThreadPool) (slot : WorkerSlot)

/-- The section of `parked_worker` from its loop to its unlock; the worker goes on when execution is enabled
    and it has no error. -/
def parkFinish (unlock : Nat) : WorkerSlot × WorkerPhase :=
  let execute := pool.executionEnabled && decide (slot.workerResult = .ok)
  if unlock ≠ 0 then (slot.recordWorkerError .unlock unlock, .broken)
  else if execute then (slot, .taking)
  else (slot, if slot.workerResult = .ok then .ended else .broken)

/-- The loop test of `parked_worker` with the mutex held. -/
def parkTest (unlock : Nat) : WorkerSlot × WorkerPhase :=
  if pool.stopRequested = false ∧ pool.executionEnabled = false then (slot, .parked)
  else pool.parkFinish slot unlock

/-- `parked_worker` up to its first wait. -/
def enter (cancel lock unlock : Nat) :
    WorkerSlot × WorkerPhase :=
  if cancel ≠ 0 then (slot.recordWorkerError .setCancelState cancel, .broken)
  else if lock ≠ 0 then (slot.recordWorkerError .lock lock, .broken)
  else pool.parkTest slot unlock

/-- `parked_worker` after a wait: a failed wait leaves the loop, else the test is made again. -/
def unpark (wait unlock : Nat) : WorkerSlot × WorkerPhase :=
  if wait ≠ 0 then pool.parkFinish (slot.recordWorkerError .wait wait) unlock
  else pool.parkTest slot unlock

/-! ## 2. Management -/

/-- `report_progress`. -/
def reportProgress (report : PoolReport) : PoolReport :=
  { report with
    startAttempted := pool.startAttempted
    stopRequested := pool.stopRequested
    createdCount := pool.createdCount
    joinedCount := pool.joinedCount
    executionEnabled := pool.executionEnabled }

/-- The report of a call that ends with this stage and this pthread error. -/
def report (stage : PoolStage) (error : Nat) : PoolReport :=
  pool.reportProgress { PoolReport.zero with stage := stage, pthreadError := error }

/-- `vireo_thread_pool_configure_with_inspector`; the flag of the stage is true for CHECK_QUEUE. -/
def configure {τ : Type} (q : TaskQueue τ) (codes : SyncCodes) :
    Result × Bool × ThreadPool :=
  if pool.retiring then (.cancelled, false, pool)
  else if pool.configured then (.busy, false, pool)
  else
    match q.inspect codes with
    | .error e => (e, true, pool)
    | .ok info =>
      if info.state ≠ .opened then (.cancelled, true, pool)
      else if info.waitPrepared = false then (.notFound, true, pool)
      else if info.count ≠ 0 then (.busy, true, pool)
      else (.ok, false, { pool with configured := true })

/-- `vireo_thread_pool_start_with_runtime` up to the creation of the workers: a return, or `none` to
    go on. -/
def start {τ : Type} (q : TaskQueue τ) (codes : SyncCodes) (mutexInit conditionInit : Nat) :
    Option (Result × PoolStage × Nat) × ThreadPool :=
  if pool.retiring then (some (.cancelled, .none, 0), pool)
  else if pool.configured = false then (some (.notFound, .none, 0), pool)
  else if pool.startAttempted then (some (.busy, .none, 0), pool)
  else
    match q.inspect codes with
    | .error e => (some (e, .checkQueue, 0), pool)
    | .ok info =>
      if info.state ≠ .opened then (some (.cancelled, .checkQueue, 0), pool)
      else if info.waitPrepared = false then (some (.notFound, .checkQueue, 0), pool)
      else
        let pool := { pool with startAttempted := true }
        if mutexInit ≠ 0 then
          (some (if mutexInit = enomem then .noMemory else .internal, .initMutex, mutexInit), pool)
        else
          let pool := { pool with mutexInitialized := true }
          if conditionInit ≠ 0 then
            (some (if conditionInit = enomem then .noMemory else .internal, .initCondition,
              conditionInit), pool)
          else (none, { pool with conditionInitialized := true })

/-- A successful creation of worker `i` in the loop of `start`. -/
def createWorker (i : Nat) : ThreadPool :=
  { pool with
    workers := Function.update pool.workers i { pool.workers i with threadCreated := true }
    createdCount := pool.createdCount + 1 }

/-- What `start` answers when a thread could not be created. -/
def createFailed (code : Nat) : Result := if code = eagain then .noMemory else .internal

/-- `stop_and_join_workers` up to the joining loop: a return, or `none` to go on. -/
def stopWorkers (codes : SyncCodes) : Option Reclaim × ThreadPool :=
  if pool.createdCount = pool.joinedCount then (some ⟨.ok, .none, 0, .zero⟩, pool)
  else if codes.lock ≠ 0 then (some ⟨.internal, .lock, codes.lock, .zero⟩, pool)
  else
    let pool := { pool with stopRequested := true }
    if codes.signal ≠ 0 then (some ⟨.internal, .wake, codes.signal, .zero⟩, pool)
    else if codes.unlock ≠ 0 then (some ⟨.internal, .unlock, codes.unlock, .zero⟩, pool)
    else (none, pool)

/-- The body of the joining loop at a created worker that was not joined; `code` is what the join
    returned. -/
def joinWorker (i code : Nat) (out : Reclaim) : Reclaim × ThreadPool :=
  if code ≠ 0 then
    (if out.result = .ok then
      { out with result := .internal, stage := .joinWorker, pthreadError := code } else out, pool)
  else
    let slot := pool.workers i
    (if slot.workerResult ≠ .ok ∧ out.result = .ok then
      ⟨slot.workerResult, slot.workerStage, slot.workerPthreadError, slot.workerQueueReport⟩ else out,
      { pool with
        workers := Function.update pool.workers i { slot with threadJoined := true }
        joinedCount := pool.joinedCount + 1 })

/-- The checks of `vireo_thread_pool_stop_and_join`; `none` is to go on. -/
def stopAndJoinCheck {τ : Type} (q : TaskQueue τ) (codes : SyncCodes) :
    Option (Result × PoolStage) :=
  if pool.retiring then some (.cancelled, .none)
  else if pool.startAttempted = false then some (.notFound, .none)
  else if pool.executionEnabled ∧ pool.createdCount ≠ pool.joinedCount then
    match q.inspect codes with
    | .error e => some (e, .checkQueue)
    | .ok info => if info.state = .opened then some (.busy, .checkQueue) else none
  else none

/-- The checks of `vireo_thread_pool_enable_execution`; `none` is to go on. -/
def enableCheck {τ : Type} (q : TaskQueue τ) (codes : SyncCodes) :
    Option (Result × PoolStage) :=
  if pool.retiring then some (.cancelled, .none)
  else if pool.startAttempted = false then some (.notFound, .none)
  else if pool.stopRequested then some (.cancelled, .none)
  else if pool.executionEnabled ∨ pool.createdCount ≠ pool.workerCount ∨ pool.joinedCount ≠ 0 then
    some (.busy, .none)
  else
    match q.inspect codes with
    | .error e => some (e, .checkQueue)
    | .ok info =>
      if info.state ≠ .opened then some (.cancelled, .checkQueue)
      else if info.waitPrepared = false then some (.notFound, .checkQueue)
      else none

/-- The section of `enable_execution`. -/
def enableSection (codes : SyncCodes) : Result × PoolStage × Nat × ThreadPool :=
  if codes.lock ≠ 0 then (.internal, .lock, codes.lock, pool)
  else
    let pool := { pool with executionEnabled := true }
    if codes.signal ≠ 0 then (.internal, .wake, codes.signal, pool)
    else if codes.unlock ≠ 0 then (.internal, .unlock, codes.unlock, pool)
    else (.ok, .none, 0, pool)

/-- The checks of `vireo_thread_pool_try_submit_with_submitter`; `none` is to call the queue. -/
def submitCheck {τ : Type} (owner : Option τ) : Option (Result × SubmitStage) :=
  if owner.isNone then some (.notFound, .none)
  else if pool.retiring ∨ pool.stopRequested then some (.cancelled, .checkPool)
  else if pool.configured = false ∨ pool.startAttempted = false then some (.notFound, .checkPool)
  else if pool.createdCount ≠ pool.workerCount ∨ pool.executionEnabled = false ∨
      pool.joinedCount ≠ 0 then some (.busy, .checkPool)
  else none

/-- The checks of `vireo_thread_pool_shutdown_and_join_with_closer`; `none` is to close the queue. -/
def shutdownCheck (mode : QueueState) : Option (Result × ShutdownStage) :=
  if mode = .opened then some (.invalidArgument, .none)
  else if pool.retiring then some (.cancelled, .checkPool)
  else if pool.configured = false ∨ pool.startAttempted = false then some (.notFound, .checkPool)
  else if pool.createdCount ≠ pool.workerCount ∨ pool.executionEnabled = false then
    some (.busy, .checkPool)
  else none

/-- `vireo_thread_pool_destroy`; the codes are those of the two destructions. -/
def destroy (condition mutex : Nat) : Result × ThreadPool :=
  if pool.joinedCount ≠ pool.createdCount then (.busy, pool)
  else if pool.conditionInitialized ∧ condition ≠ 0 then
    (if condition = ebusy then .busy else .internal, pool)
  else
    let pool :=
      if pool.conditionInitialized then { pool with conditionInitialized := false, retiring := true }
      else pool
    if pool.mutexInitialized ∧ mutex ≠ 0 then (if mutex = ebusy then .busy else .internal, pool)
    else (.ok, { pool with mutexInitialized := false })

end ThreadPool

/-! ## 3. What a worker writes -/

/-- Of a slot, a worker writes its first error only. -/
structure SlotMove (w w' : WorkerSlot) : Prop where
  created : w'.threadCreated = w.threadCreated
  joined : w'.threadJoined = w.threadJoined

section

variable (w : WorkerSlot)

theorem SlotMove.refl : SlotMove w w := ⟨rfl, rfl⟩

theorem slotMove_record (stage : PoolStage) (error : Nat) :
    SlotMove w (w.recordWorkerError stage error) := by
  unfold WorkerSlot.recordWorkerError
  split <;> exact ⟨rfl, rfl⟩

theorem slotMove_received {τ : Type} (x : Exchange τ (TaskQueue τ)) : SlotMove w (w.received x).1 := by
  unfold WorkerSlot.received
  split
  · exact .refl w
  split
  · dsimp only
    split <;> exact ⟨rfl, rfl⟩
  · exact .refl w

theorem slotMove_ran (result : Result) : SlotMove w (w.ran result) := by
  unfold WorkerSlot.ran
  split <;> exact ⟨rfl, rfl⟩

end

section

variable (pool : ThreadPool)

theorem slotMove_parkFinish (w : WorkerSlot) (unlock : Nat) :
    SlotMove w (pool.parkFinish w unlock).1 ∧ (pool.parkFinish w unlock).2 ≠ .unborn := by
  rw [ThreadPool.parkFinish]
  split
  · exact ⟨slotMove_record .., nofun⟩
  split
  · exact ⟨.refl w, nofun⟩
  refine ⟨.refl w, ?_⟩
  dsimp only
  split <;> nofun

theorem slotMove_parkTest (w : WorkerSlot) (unlock : Nat) :
    SlotMove w (pool.parkTest w unlock).1 ∧ (pool.parkTest w unlock).2 ≠ .unborn := by
  unfold ThreadPool.parkTest
  split
  · exact ⟨.refl w, nofun⟩
  · exact slotMove_parkFinish ..

theorem slotMove_enter (w : WorkerSlot) (cancel lock unlock : Nat) :
    SlotMove w (pool.enter w cancel lock unlock).1 ∧ (pool.enter w cancel lock unlock).2 ≠ .unborn := by
  unfold ThreadPool.enter
  split
  · exact ⟨slotMove_record .., nofun⟩
  split
  · exact ⟨slotMove_record .., nofun⟩
  · exact slotMove_parkTest ..

theorem slotMove_unpark (w : WorkerSlot) (wait unlock : Nat) :
    SlotMove w (pool.unpark w wait unlock).1 ∧ (pool.unpark w wait unlock).2 ≠ .unborn := by
  unfold ThreadPool.unpark
  split
  · obtain ⟨h, hp⟩ := slotMove_parkFinish pool (w.recordWorkerError .wait wait) unlock
    have h0 := slotMove_record w .wait wait
    exact ⟨⟨h.created.trans h0.created, h.joined.trans h0.joined⟩, hp⟩
  · exact slotMove_parkTest ..

end

theorem received_phase {τ : Type} (w : WorkerSlot) (x : Exchange τ (TaskQueue τ)) :
    (w.received x).2 ≠ .unborn := by
  unfold WorkerSlot.received
  split
  · nofun
  · split <;> nofun

/-! ## 4. What the checks let through -/

section Checks

variable {τ : Type} {q : TaskQueue τ} {codes : SyncCodes} {pool : ThreadPool}

/-- Everything about the workers and the two requests stays. -/
structure PoolSame (p p' : ThreadPool) : Prop where
  workerCount : p'.workerCount = p.workerCount
  stopRequested : p'.stopRequested = p.stopRequested
  executionEnabled : p'.executionEnabled = p.executionEnabled
  createdCount : p'.createdCount = p.createdCount
  joinedCount : p'.joinedCount = p.joinedCount
  workers : p'.workers = p.workers
  attempted : p.startAttempted = true → p'.startAttempted = true

theorem PoolSame.refl (p : ThreadPool) : PoolSame p p := ⟨rfl, rfl, rfl, rfl, rfl, rfl, id⟩

theorem inspect_ne_ok {e : Result} (h : q.inspect codes = .error e) : e ≠ .ok := by
  unfold TaskQueue.inspect at h
  split at h
  · rw [← Except.error.inj h]
    nofun
  · split at h
    · rw [← Except.error.inj h]
      split <;> nofun
    · split at h
      · rw [← Except.error.inj h]
        nofun
      · cases h

theorem stopAndJoinCheck_ne_ok {x : Result × PoolStage} (h : pool.stopAndJoinCheck q codes = some x) :
    x.1 ≠ .ok := by
  unfold ThreadPool.stopAndJoinCheck at h
  split at h
  · rw [← Option.some.inj h]
    nofun
  · split at h
    · rw [← Option.some.inj h]
      nofun
    · split at h
      · split at h
        · rename_i e he
          rw [← Option.some.inj h]
          exact inspect_ne_ok he
        · split at h
          · rw [← Option.some.inj h]
            nofun
          · cases h
      · cases h

section

variable (pool : ThreadPool)

theorem shutdownCheck_cases (mode : QueueState) : (∃ x, pool.shutdownCheck mode = some x ∧ x.1 ≠ .ok) ∨
    (pool.shutdownCheck mode = none ∧ mode ≠ .opened ∧ pool.executionEnabled = true ∧
      pool.createdCount = pool.workerCount) := by
  unfold ThreadPool.shutdownCheck
  split
  · exact .inl ⟨_, rfl, nofun⟩
  rename_i hmode
  split
  · exact .inl ⟨_, rfl, nofun⟩
  split
  · exact .inl ⟨_, rfl, nofun⟩
  split
  · exact .inl ⟨_, rfl, nofun⟩
  rename_i h
  rw [not_or, not_not, Bool.not_eq_false] at h
  exact .inr ⟨rfl, hmode, h.2, h.1⟩

theorem configure_same (q : TaskQueue τ) (codes : SyncCodes) :
    PoolSame pool (pool.configure q codes).2.2 := by
  unfold ThreadPool.configure
  split
  · exact .refl pool
  split
  · exact .refl pool
  split
  · exact .refl pool
  split
  · exact .refl pool
  split
  · exact .refl pool
  split
  · exact .refl pool
  · exact ⟨rfl, rfl, rfl, rfl, rfl, rfl, id⟩

theorem start_same (q : TaskQueue τ) (codes : SyncCodes) (mutexInit conditionInit : Nat) :
    PoolSame pool (pool.start q codes mutexInit conditionInit).2 ∧
      ((pool.start q codes mutexInit conditionInit).1 = none → pool.startAttempted = false ∧
        (pool.start q codes mutexInit conditionInit).2.startAttempted = true) := by
  unfold ThreadPool.start
  split
  · exact ⟨.refl pool, nofun⟩
  split
  · exact ⟨.refl pool, nofun⟩
  split
  · exact ⟨.refl pool, nofun⟩
  rename_i hfirst
  split
  · exact ⟨.refl pool, nofun⟩
  split
  · exact ⟨.refl pool, nofun⟩
  split
  · exact ⟨.refl pool, nofun⟩
  dsimp only
  split
  · exact ⟨⟨rfl, rfl, rfl, rfl, rfl, rfl, fun _ => rfl⟩, nofun⟩
  split
  · exact ⟨⟨rfl, rfl, rfl, rfl, rfl, rfl, fun _ => rfl⟩, nofun⟩
  · exact ⟨⟨rfl, rfl, rfl, rfl, rfl, rfl, fun _ => rfl⟩, fun _ => ⟨Bool.eq_false_iff.mpr hfirst, rfl⟩⟩

theorem destroy_same (condition mutex : Nat) : PoolSame pool (pool.destroy condition mutex).2 := by
  unfold ThreadPool.destroy
  split
  · exact .refl pool
  split
  · exact .refl pool
  dsimp only
  split
  · split <;> exact ⟨rfl, rfl, rfl, rfl, rfl, rfl, id⟩
  · split <;> exact ⟨rfl, rfl, rfl, rfl, rfl, rfl, id⟩

end

theorem enableCheck_none (h : pool.enableCheck q codes = none) : pool.stopRequested = false ∧
      pool.createdCount = pool.workerCount ∧ pool.startAttempted = true := by
  unfold ThreadPool.enableCheck at h
  split at h
  · cases h
  split at h
  · cases h
  rename_i hstart
  split at h
  · cases h
  rename_i hstop
  split at h
  · cases h
  rename_i hall
  rw [not_or, not_or, not_not] at hall
  exact ⟨Bool.eq_false_iff.mpr hstop, hall.2.1, Bool.not_eq_false _ ▸ hstart⟩

/-- `stop_and_join_workers` finds nobody to join, fails before or after the stop is committed, or goes
    on to join. -/
inductive StopOutcome (pool : ThreadPool) : Option Reclaim × ThreadPool → Prop
  | nobody (none_left : pool.createdCount = pool.joinedCount) :
      StopOutcome pool (some ⟨.ok, .none, 0, .zero⟩, pool)
  | locked (out : Reclaim) (failed : out.result ≠ .ok) : StopOutcome pool (some out, pool)
  | halted (out : Reclaim) (failed : out.result ≠ .ok) :
      StopOutcome pool (some out, { pool with stopRequested := true })
  | stopped : StopOutcome pool (none, { pool with stopRequested := true })

theorem stopWorkers_outcome (pool : ThreadPool) (codes : SyncCodes) :
    StopOutcome pool (pool.stopWorkers codes) := by
  unfold ThreadPool.stopWorkers
  split
  · rename_i h
    exact .nobody h
  · split
    · exact .locked _ nofun
    · dsimp only
      split
      · exact .halted _ nofun
      split
      · exact .halted _ nofun
      · exact .stopped

theorem enableSection_cases (pool : ThreadPool) (codes : SyncCodes) :
    (pool.enableSection codes).2.2.2 = pool ∨
      (pool.enableSection codes).2.2.2 = { pool with executionEnabled := true } := by
  unfold ThreadPool.enableSection
  split
  · exact .inl rfl
  dsimp only
  split
  · exact .inr rfl
  · split <;> exact .inr rfl

end Checks

end Vireo.Thread
