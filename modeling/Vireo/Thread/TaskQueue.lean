/-
  File:      Vireo/Thread/TaskQueue.lean
  Subject:   THE TASK QUEUE (`src/thread/task_queue.c`): one mutex, a ring of owned tasks, three states.

  A call is modelled by its critical section: what it does between taking the mutex and giving it back,
  with the codes the pthread operations return passed in. The caller's owner variable goes in and comes
  out. `wait_pop` has two kinds of section, before and after each wait on the condition.

  Null arguments do not exist here; `errno` is restored by every entry and is left out.
-/
import Vireo.Base.Result
import Vireo.Lib.RingBuffer

namespace Vireo.Thread

open Vireo.Lib

/-- The pthread error codes that the queues look at. -/
def ebusy : Nat := 16
def enomem : Nat := 12

/-- `EAGAIN`, also `EWOULDBLOCK`: a refused thread creation, a counter that is full or empty. -/
def eagain : Nat := 11

/-- `vireo_task_queue_state_t`. -/
inductive QueueState where
  | opened
  | drain
  | cancelPending
deriving DecidableEq

/-- `vireo_task_queue_stage_t`, with the same values in the completion queue. -/
inductive QueueStage where
  | none
  | lock
  | unlock
  | wait
  | wake
deriving DecidableEq

/-- `vireo_task_queue_transfer_report_t`. -/
structure TransferReport where
  stage : QueueStage
  transferred : Bool
  pthreadError : Nat
deriving DecidableEq

/-- `vireo_task_queue_close_report_t`. -/
structure CloseReport where
  stage : QueueStage
  changed : Bool
  pthreadError : Nat
deriving DecidableEq

/-- What the pthread operations of one section return; zero is success. -/
structure SyncCodes where
  lock : Nat
  signal : Nat
  unlock : Nat

/-- `struct vireo_task_queue` without its operation tables; the tasks are opaque. -/
structure TaskQueue (τ : Type) where
  ring : RingBuffer τ
  highWatermark : Nat
  fullRejections : UInt64
  closedRejections : UInt64
  rejectionCountSaturated : Bool
  allocatedBytes : UInt64
  maxMemoryBytes : UInt64
  state : QueueState
  waitPrepared : Bool
  retiring : Bool

/-- `transfer_kind_t`. -/
inductive TransferKind where
  | push
  | pop
  | takeCancelled
deriving DecidableEq

/-- What a call returns: its result and report, the caller's owner variable and the queue. -/
structure Exchange (τ Q : Type) where
  result : Result
  report : TransferReport
  owner : Option τ
  queue : Q

/-- A section that ends in a wait on the condition, or a call that returns. -/
inductive WaitOutcome (τ Q : Type) where
  | blocked
  | returned (x : Exchange τ Q)

/-- `count_rejection`, also `record_rejection`: a saturating counter and its sticky flag. -/
def countRejection (counter : UInt64) (saturated : Bool) : UInt64 × Bool :=
  if counter < u64Max then (counter + 1, saturated) else (counter, true)

/-- A failed unlock replaces the result and the stage, not what was transferred. -/
def reportUnlock (result : Result) (report : TransferReport) (unlock : Nat) :
    Result × TransferReport :=
  if unlock ≠ 0 then (.internal, { report with stage := .unlock, pthreadError := unlock })
  else (result, report)

@[simp]
theorem reportUnlock_transferred (result : Result) (report : TransferReport) (unlock : Nat) :
    (reportUnlock result report unlock).2.transferred = report.transferred := by
  unfold reportUnlock
  split <;> rfl

namespace TaskQueue

variable {τ : Type} {q : TaskQueue τ} {unlock : Nat}

/-- `VIREO_TASK_QUEUE_MAX_CAPACITY`. -/
def maxCapacity : UInt64 := 65536

/-- `VIREO_TASK_QUEUE_MAX_ALLOCATION_BYTES`. -/
def maxAllocationBytes : UInt64 := 67108864

/-- `sizeof(vireo_task_queue_t)` on LP64. -/
def controlBytes : UInt64 := 304

/-- The queue that `create_with_ops` publishes. -/
def fresh (capacity maxMemoryBytes bytes : UInt64) : TaskQueue τ where
  ring := .empty capacity.toNat
  highWatermark := 0
  fullRejections := 0
  closedRejections := 0
  rejectionCountSaturated := false
  allocatedBytes := bytes
  maxMemoryBytes := maxMemoryBytes
  state := .opened
  waitPrepared := false
  retiring := false

/-- `vireo_task_queue_create_with_ops`; `memory` says whether the block was allocated and `init` is
    the code of the mutex initialisation. -/
def create (capacity maxMemoryBytes : UInt64) (memory : Bool) (init : Nat) :
    Except Result (TaskQueue τ) :=
  if capacity = 0 ∨ maxMemoryBytes = 0 then .error .invalidArgument
  else
    match checkedU64Mul capacity 8 with
    | .error e => .error e
    | .ok slotsBytes =>
      match checkedU64Add controlBytes slotsBytes with
      | .error e => .error e
      | .ok bytes =>
        if capacity > maxCapacity ∨ maxMemoryBytes > maxAllocationBytes ∨ bytes > maxMemoryBytes then
          .error .range
        else if memory = false then .error .noMemory
        else if init ≠ 0 then .error (if init = enomem then .noMemory else .internal)
        else .ok (fresh capacity maxMemoryBytes bytes)

/-! ## 1. Transfers -/

/-- The push part of the section of `transfer`. -/
def pushSection (q : TaskQueue τ) (t : τ) : Result × Bool × Option τ × TaskQueue τ :=
  if q.state ≠ .opened then
    let (count, saturated) := countRejection q.closedRejections q.rejectionCountSaturated
    (.cancelled, false, some t, { q with closedRejections := count, rejectionCountSaturated := saturated })
  else if q.ring.count = q.ring.capacity then
    let (count, saturated) := countRejection q.fullRejections q.rejectionCountSaturated
    (.busy, false, some t, { q with fullRejections := count, rejectionCountSaturated := saturated })
  else
    let ring := q.ring.put t
    (.ok, true, none, { q with
      ring := ring
      highWatermark := if ring.count > q.highWatermark then ring.count else q.highWatermark })

/-- The two taking parts of the section of `transfer`. -/
def takeSection (q : TaskQueue τ) (kind : TransferKind) : Result × Bool × Option τ × TaskQueue τ :=
  if kind = .takeCancelled ∧ q.state ≠ .cancelPending then (.busy, false, none, q)
  else if kind = .pop ∧ q.state = .cancelPending then (.cancelled, false, none, q)
  else if q.ring.count = 0 then
    (if kind = .pop ∧ q.state = .drain then .cancelled else .notFound, false, none, q)
  else (.ok, true, q.ring.slots q.ring.head, { q with ring := q.ring.drop })

/-- `transfer`. -/
def transfer (q : TaskQueue τ) (owner : Option τ) (kind : TransferKind) (codes : SyncCodes) :
    Exchange τ (TaskQueue τ) :=
  match kind, owner with
  | .pop, some t | .takeCancelled, some t =>
    ⟨.invalidArgument, ⟨.none, false, 0⟩, some t, q⟩
  | .push, none => ⟨.notFound, ⟨.none, false, 0⟩, none, q⟩
  | kind, owner =>
    if q.retiring then ⟨.cancelled, ⟨.none, false, 0⟩, owner, q⟩
    else if codes.lock ≠ 0 then
      ⟨if codes.lock = ebusy then .busy else .internal, ⟨.lock, false, codes.lock⟩, owner, q⟩
    else
      let (result, transferred, owner', q') :=
        match owner with
        | some t => q.pushSection t
        | none => q.takeSection kind
      let (result, report) : Result × TransferReport :=
        if kind = .push ∧ transferred ∧ q.waitPrepared ∧ codes.signal ≠ 0 then
          (.internal, ⟨.wake, transferred, codes.signal⟩)
        else (result, ⟨.none, transferred, 0⟩)
      let (result, report) := reportUnlock result report codes.unlock
      ⟨result, report, owner', q'⟩

/-! ## 2. Waiting for a task -/

/-- The end of `wait_pop`, from the mutex held to the return. -/
def waitPopFinish (q : TaskQueue τ) (unlock : Nat) : Exchange τ (TaskQueue τ) :=
  if q.state = .cancelPending ∨ q.ring.count = 0 then
    let (result, report) := reportUnlock .cancelled ⟨.none, false, 0⟩ unlock
    ⟨result, report, none, q⟩
  else
    let (result, report) := reportUnlock .ok ⟨.none, true, 0⟩ unlock
    ⟨result, report, q.ring.slots q.ring.head, { q with ring := q.ring.drop }⟩

/-- The loop test of `wait_pop` with the mutex held. -/
def waitPopTest (q : TaskQueue τ) (unlock : Nat) : WaitOutcome τ (TaskQueue τ) :=
  if q.ring.count = 0 ∧ q.state = .opened then .blocked else .returned (q.waitPopFinish unlock)

/-- `vireo_task_queue_wait_pop` up to its first wait. -/
def waitPop (q : TaskQueue τ) (owner : Option τ) (codes : SyncCodes) :
    WaitOutcome τ (TaskQueue τ) :=
  match owner with
  | some t => .returned ⟨.invalidArgument, ⟨.none, false, 0⟩, some t, q⟩
  | none =>
    if q.retiring then .returned ⟨.cancelled, ⟨.none, false, 0⟩, none, q⟩
    else if q.waitPrepared = false then .returned ⟨.notFound, ⟨.none, false, 0⟩, none, q⟩
    else if codes.lock ≠ 0 then .returned ⟨.internal, ⟨.lock, false, codes.lock⟩, none, q⟩
    else q.waitPopTest codes.unlock

/-- `wait_pop` after a wait: a failed wait ends the call, else the test is made again. -/
def waitPopWake (q : TaskQueue τ) (wait unlock : Nat) : WaitOutcome τ (TaskQueue τ) :=
  if wait ≠ 0 then
    let (result, report) := reportUnlock .internal ⟨.wait, false, wait⟩ unlock
    .returned ⟨result, report, none, q⟩
  else q.waitPopTest unlock

/-! ## 3. Closing -/

/-- `vireo_task_queue_close`; the signal code is that of the broadcast. -/
def close (q : TaskQueue τ) (mode : QueueState) (codes : SyncCodes) :
    Result × CloseReport × TaskQueue τ :=
  if mode = .opened then (.invalidArgument, ⟨.none, false, 0⟩, q)
  else if q.retiring then (.cancelled, ⟨.none, false, 0⟩, q)
  else if codes.lock ≠ 0 then
    (if codes.lock = ebusy then .busy else .internal, ⟨.lock, false, codes.lock⟩, q)
  else
    let (result, changed, q') : Result × Bool × TaskQueue τ :=
      if q.state = .opened then (.ok, true, { q with state := mode })
      else (if q.state = mode then .ok else .busy, false, q)
    let (result, report) : Result × CloseReport :=
      if result = .ok ∧ q.waitPrepared ∧ codes.signal ≠ 0 then
        (.internal, ⟨.wake, changed, codes.signal⟩)
      else (result, ⟨.none, changed, 0⟩)
    if codes.unlock ≠ 0 then (.internal, ⟨.unlock, changed, codes.unlock⟩, q')
    else (result, report, q')

/-- `vireo_task_queue_prepare_wait_with_ops`; `init` is the code of the condition's
    initialisation. -/
def prepareWait (q : TaskQueue τ) (init : Nat) : Result × TaskQueue τ :=
  if q.retiring then (.cancelled, q)
  else if q.ring.count ≠ 0 ∨ q.state ≠ .opened then (.busy, q)
  else if q.waitPrepared then (.ok, q)
  else if init ≠ 0 then (if init = enomem then .noMemory else .internal, q)
  else (.ok, { q with waitPrepared := true })

/-- `vireo_task_queue_info_t`. -/
structure Info where
  capacity : Nat
  count : Nat
  allocatedBytes : UInt64
  maxMemoryBytes : UInt64
  state : QueueState
  waitPrepared : Bool

/-- `vireo_task_queue_inspect`. -/
def inspect (q : TaskQueue τ) (codes : SyncCodes) : Except Result Info :=
  if q.retiring then .error .cancelled
  else if codes.lock ≠ 0 then .error (if codes.lock = ebusy then .busy else .internal)
  else if codes.unlock ≠ 0 then .error .internal
  else .ok ⟨q.ring.capacity, q.ring.count, q.allocatedBytes, q.maxMemoryBytes, q.state, q.waitPrepared⟩

/-! ## 4. What a section does to the ring -/

/-- The state and the two flags, which a transfer only reads. -/
structure SameMode (q q' : TaskQueue τ) : Prop where
  state : q'.state = q.state
  waitPrepared : q'.waitPrepared = q.waitPrepared
  retiring : q'.retiring = q.retiring

theorem SameMode.refl (q : TaskQueue τ) : SameMode q q := ⟨rfl, rfl, rfl⟩

/-- A push has moved the caller's task to the end of the ring of an open queue, if it says so, or nothing. -/
inductive Pushed (q : TaskQueue τ) (owner : Option τ) (x : Exchange τ (TaskQueue τ)) : Prop
  | moved (t : τ) (told : x.report.transferred = true) (had : owner = some t)
      (gave : x.owner = none) (ring : x.queue.ring = q.ring.put t) (opened : q.state = .opened)
      (room : q.ring.count ≠ q.ring.capacity)
  | kept (told : x.report.transferred = false) (owner : x.owner = owner)
      (ring : x.queue.ring = q.ring)

/-- A taking call has moved the first task of the ring to the caller, if it says so, or nothing. -/
inductive Popped (q : TaskQueue τ) (owner : Option τ) (allowed : QueueState → Prop)
    (x : Exchange τ (TaskQueue τ)) : Prop
  | moved (told : x.report.transferred = true) (had : owner = none)
      (got : x.owner = q.ring.slots q.ring.head) (ring : x.queue.ring = q.ring.drop)
      (full : q.ring.count ≠ 0) (state : allowed q.state)
  | kept (told : x.report.transferred = false) (owner : x.owner = owner)
      (ring : x.queue.ring = q.ring)

theorem pushed_spec (q : TaskQueue τ) (owner : Option τ) (codes : SyncCodes) :
    Pushed q owner (q.transfer owner .push codes) ∧ SameMode q (q.transfer owner .push codes).queue := by
  cases owner with
  | none => exact ⟨.kept rfl rfl rfl, .refl q⟩
  | some t =>
    unfold transfer
    dsimp only
    split
    · exact ⟨.kept rfl rfl rfl, .refl q⟩
    split
    · exact ⟨.kept rfl rfl rfl, .refl q⟩
    unfold pushSection
    split
    · refine ⟨.kept ?_ rfl rfl, ⟨rfl, rfl, rfl⟩⟩
      simp
    · rename_i hopen
      split
      · refine ⟨.kept ?_ rfl rfl, ⟨rfl, rfl, rfl⟩⟩
        simp
      · rename_i hroom
        refine ⟨.moved t ?_ rfl rfl rfl (not_not.mp hopen) hroom, ⟨rfl, rfl, rfl⟩⟩
        rw [reportUnlock_transferred]
        split <;> rfl

/-- The states in which a taking call may take. -/
def Takes : TransferKind → QueueState → Prop
  | .push, _ => False
  | .pop, s => s ≠ .cancelPending
  | .takeCancelled, s => s = .cancelPending

variable {kind : TransferKind}

theorem popped_spec (q : TaskQueue τ) (owner : Option τ) (hk : kind ≠ .push) (codes : SyncCodes) :
    Popped q owner (Takes kind) (q.transfer owner kind codes) ∧
      SameMode q (q.transfer owner kind codes).queue := by
  cases owner with
  | some t =>
    cases kind with
    | push => exact absurd rfl hk
    | pop => exact ⟨.kept rfl rfl rfl, .refl q⟩
    | takeCancelled => exact ⟨.kept rfl rfl rfl, .refl q⟩
  | none =>
    have hunfold : q.transfer none kind codes =
        if q.retiring then ⟨.cancelled, ⟨.none, false, 0⟩, none, q⟩
        else if codes.lock ≠ 0 then
          ⟨if codes.lock = ebusy then .busy else .internal, ⟨.lock, false, codes.lock⟩, none, q⟩
        else
          let x := q.takeSection kind
          let y := reportUnlock x.1 ⟨.none, x.2.1, 0⟩ codes.unlock
          ⟨y.1, y.2, x.2.2.1, x.2.2.2⟩ := by
      cases kind with
      | push => exact absurd rfl hk
      | pop => rfl
      | takeCancelled => rfl
    rw [hunfold]
    split
    · exact ⟨.kept rfl rfl rfl, .refl q⟩
    split
    · exact ⟨.kept rfl rfl rfl, .refl q⟩
    unfold takeSection
    split
    · exact ⟨.kept (by simp) rfl rfl, .refl q⟩
    rename_i hcancel
    split
    · exact ⟨.kept (by simp) rfl rfl, .refl q⟩
    rename_i hpop
    split
    · exact ⟨.kept (by simp) rfl rfl, .refl q⟩
    rename_i hcount
    refine ⟨.moved (by simp) rfl rfl rfl hcount ?_, ⟨rfl, rfl, rfl⟩⟩
    cases kind with
    | push => exact absurd rfl hk
    | pop => exact fun h => hpop ⟨rfl, h⟩
    | takeCancelled => exact not_not.mp fun h => hcancel ⟨rfl, h⟩

theorem waitPopFinish_spec (q : TaskQueue τ) (unlock : Nat) :
    Popped q none (Takes .pop) (q.waitPopFinish unlock) ∧ SameMode q (q.waitPopFinish unlock).queue := by
  unfold waitPopFinish
  split
  · exact ⟨.kept (by simp) rfl rfl, .refl q⟩
  rename_i h
  rw [not_or] at h
  exact ⟨.moved (by simp) rfl rfl rfl h.2 h.1, ⟨rfl, rfl, rfl⟩⟩

/-- What a section of `wait_pop` may end in. -/
def WaitPopped (q : TaskQueue τ) (owner : Option τ) : WaitOutcome τ (TaskQueue τ) → Prop
  | .blocked => owner = none ∧ q.ring.count = 0 ∧ q.state = .opened
  | .returned x => Popped q owner (Takes .pop) x ∧ SameMode q x.queue

theorem waitPopTest_spec (q : TaskQueue τ) (unlock : Nat) : WaitPopped q none (q.waitPopTest unlock) := by
  unfold waitPopTest
  split
  · rename_i h
    exact ⟨rfl, h.1, h.2⟩
  · exact waitPopFinish_spec q unlock

theorem waitPop_spec (q : TaskQueue τ) (owner : Option τ) (codes : SyncCodes) :
    WaitPopped q owner (q.waitPop owner codes) := by
  unfold waitPop
  split
  · exact ⟨.kept rfl rfl rfl, .refl q⟩
  split
  · exact ⟨.kept rfl rfl rfl, .refl q⟩
  split
  · exact ⟨.kept rfl rfl rfl, .refl q⟩
  split
  · exact ⟨.kept rfl rfl rfl, .refl q⟩
  · exact waitPopTest_spec q codes.unlock

theorem waitPopWake_spec (q : TaskQueue τ) (wait unlock : Nat) :
    WaitPopped q none (q.waitPopWake wait unlock) := by
  unfold waitPopWake
  split
  · exact ⟨.kept (reportUnlock_transferred ..) rfl rfl, .refl q⟩
  · exact waitPopTest_spec q unlock

/-- A queue that will give nothing more to a waiting consumer. -/
def Finished (q : TaskQueue τ) : Prop :=
  q.state = .cancelPending ∨ (q.state = .drain ∧ q.ring.count = 0)

/-- What the result of a returned `wait_pop` says about the queue. -/
structure Truthful (q : TaskQueue τ) (x : Exchange τ (TaskQueue τ)) : Prop where
  ok : x.result = .ok → x.report.transferred = true
  cancelled : x.result = .cancelled → x.report.transferred = false ∧ q.Finished

theorem reportUnlock_result {result : Result} {report : TransferReport} {r : Result}
    (h : (reportUnlock result report unlock).1 = r) (hr : r ≠ .internal) : result = r := by
  unfold reportUnlock at h
  split at h
  · exact absurd h.symm hr
  · exact h

theorem waitPopFinish_truthful (h : ¬ (q.ring.count = 0 ∧ q.state = .opened)) :
    Truthful q (q.waitPopFinish unlock) := by
  unfold waitPopFinish
  split
  · rename_i hend
    refine ⟨fun hok => ?_, fun _ => ⟨by simp, ?_⟩⟩
    · exact nomatch reportUnlock_result hok (by simp)
    rcases hend with hcancel | hempty
    · exact .inl hcancel
    have hopen : q.state ≠ .opened := fun e => h ⟨hempty, e⟩
    cases hs : q.state with
    | opened => exact absurd hs hopen
    | drain => exact .inr ⟨hs, hempty⟩
    | cancelPending => exact .inl hs
  · refine ⟨fun _ => by simp, fun hcancel => ?_⟩
    exact nomatch reportUnlock_result hcancel (by simp)

variable {x : Exchange τ (TaskQueue τ)}

theorem waitPopTest_truthful (h : q.waitPopTest unlock = .returned x) : Truthful q x := by
  unfold waitPopTest at h
  split at h
  · cases h
  rename_i hne
  rw [← WaitOutcome.returned.inj h]
  exact waitPopFinish_truthful hne

variable {codes : SyncCodes}

theorem waitPop_truthful (halive : q.retiring = false)
    (h : q.waitPop none codes = .returned x) : Truthful q x := by
  unfold waitPop at h
  simp only [halive, Bool.false_eq_true, if_false] at h
  split at h
  · rw [← WaitOutcome.returned.inj h]
    exact ⟨nofun, nofun⟩
  · split at h
    · rw [← WaitOutcome.returned.inj h]
      exact ⟨nofun, nofun⟩
    · exact waitPopTest_truthful h

theorem waitPopWake_truthful {wait : Nat} (h : q.waitPopWake wait unlock = .returned x) : Truthful q x := by
  unfold waitPopWake at h
  split at h
  · have hres : x.result = .internal := by
      have hx : x.result = (reportUnlock .internal ⟨.wait, false, wait⟩ unlock).1 :=
        congrArg Exchange.result (WaitOutcome.returned.inj h).symm
      rw [hx]
      unfold reportUnlock
      split <;> rfl
    refine ⟨fun e => ?_, fun e => ?_⟩
    · exact nomatch hres.symm.trans e
    · exact nomatch hres.symm.trans e
  · exact waitPopTest_truthful h

theorem close_spec (q : TaskQueue τ) (mode : QueueState) (codes : SyncCodes) :
    (q.close mode codes).2.2.ring = q.ring ∧
    (q.close mode codes).2.2.waitPrepared = q.waitPrepared ∧
    (q.close mode codes).2.2.retiring = q.retiring ∧
    ((q.close mode codes).2.2.state = q.state ∨
      (q.state = .opened ∧ mode ≠ .opened ∧ (q.close mode codes).2.2.state = mode)) := by
  unfold close
  split
  · exact ⟨rfl, rfl, rfl, .inl rfl⟩
  rename_i hmode
  split
  · exact ⟨rfl, rfl, rfl, .inl rfl⟩
  split
  · exact ⟨rfl, rfl, rfl, .inl rfl⟩
  by_cases hopen : q.state = .opened
  · simp only [hopen, if_true]
    split
    · exact ⟨rfl, rfl, rfl, .inr ⟨trivial, hmode, rfl⟩⟩
    · exact ⟨rfl, rfl, rfl, .inr ⟨trivial, hmode, rfl⟩⟩
  · simp only [hopen, if_false]
    split
    · exact ⟨rfl, rfl, rfl, .inl rfl⟩
    · exact ⟨rfl, rfl, rfl, .inl rfl⟩

theorem prepareWait_spec (q : TaskQueue τ) (init : Nat) :
    (q.prepareWait init).2.ring = q.ring ∧ (q.prepareWait init).2.state = q.state ∧
      (q.prepareWait init).2.retiring = q.retiring ∧
      (q.waitPrepared = true → (q.prepareWait init).2.waitPrepared = true) := by
  unfold prepareWait
  split
  · exact ⟨rfl, rfl, rfl, id⟩
  split
  · exact ⟨rfl, rfl, rfl, id⟩
  split
  · exact ⟨rfl, rfl, rfl, id⟩
  split
  · exact ⟨rfl, rfl, rfl, id⟩
  · exact ⟨rfl, rfl, rfl, fun _ => rfl⟩

theorem create_fresh {capacity maxMemoryBytes : UInt64} {memory : Bool} {init : Nat}
    (h : create capacity maxMemoryBytes memory init = .ok q) :
    0 < capacity.toNat ∧ ∃ bytes, q = fresh capacity maxMemoryBytes bytes := by
  unfold create at h
  split at h
  · cases h
  rename_i hpos
  split at h
  · cases h
  split at h
  · cases h
  rename_i bytes _
  split at h
  · cases h
  split at h
  · cases h
  split at h
  · cases h
  · refine ⟨Nat.pos_of_ne_zero fun hz => hpos (.inl ?_), bytes, (Except.ok.inj h).symm⟩
    rw [← UInt64.toNat_inj, hz, UInt64.toNat_zero]

/-- A taking call in a state that allows it, with the mutex free, takes the first task. -/
theorem transfer_takes {t : τ} {rest : List τ}
    (hr : q.ring.Holds (t :: rest)) (halive : q.retiring = false) (hlock : codes.lock = 0) (hk : kind ≠ .push)
    (hstate : Takes kind q.state) :
    (q.transfer none kind codes).report.transferred = true ∧ (q.transfer none kind codes).owner = some t := by
  have hcount : q.ring.count ≠ 0 := by
    rw [hr.count_eq]
    simp
  have hsection : q.takeSection kind = (.ok, true, some t, { q with ring := q.ring.drop }) := by
    unfold takeSection
    rw [if_neg, if_neg, if_neg hcount, hr.head_full]
    · rintro ⟨rfl, h⟩
      exact hstate h
    · rintro ⟨rfl, h⟩
      exact h hstate
  cases kind with
  | push => exact absurd rfl hk
  | pop =>
    unfold transfer
    simp [halive, hlock, hsection]
  | takeCancelled =>
    unfold transfer
    simp [halive, hlock, hsection]

theorem close_state {mode : QueueState}
    (h : (q.close mode codes).1 = .ok ∨ (q.close mode codes).2.1.changed = true) :
    (q.close mode codes).2.2.state = mode := by
  unfold close at h ⊢
  split at h
  · simp at h
  rename_i hmode
  rw [if_neg hmode]
  split at h
  · simp at h
  rename_i hret
  rw [if_neg hret]
  split at h
  · rename_i hlock
    simp only [Bool.false_eq_true, or_false] at h
    split at h <;> cases h
  · rename_i hlock
    rw [if_neg hlock]
    by_cases hopen : q.state = .opened
    · simp only [hopen, if_true] at h ⊢
      split <;> rfl
    · simp only [hopen, if_false] at h ⊢
      by_cases hsame : q.state = mode
      · split <;> exact hsame
      simp only [hsame, if_false] at h
      split at h
      · simp at h
      · simp at h

end TaskQueue

end Vireo.Thread
