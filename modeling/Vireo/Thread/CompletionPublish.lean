/-
  File:      Vireo/Thread/CompletionPublish.lean
  Subject:   A WORKER HANDS OVER A COMPLETION (`src/thread/notifier.c`, `completion_publish.c`).

  The counter is that of `eventfd`: a write of one that would take it past its maximum fails with
  `EAGAIN`, and so does a read of zero; nothing else fails so.
-/
import Vireo.Thread.CompletionQueue
import Vireo.Thread.TaskMetadata

namespace Vireo.Thread

/-! ## 1. The counter -/

/-- The largest value of an event counter. -/
def EventFd.max : Nat := 0xFFFFFFFFFFFFFFFE

/-- An open descriptor of `eventfd`. -/
structure EventFd where
  counter : Nat
  le_max : counter ≤ EventFd.max

/-- A failure of a call on the descriptor that says nothing about its counter. -/
inductive SysFault where
  | errno (cause : Nat) (h : cause ≠ eagain)
  | size (n : Nat) (h : n ≠ 8)

/-- The size that a call returns, and the errno behind it. -/
structure SysAnswer where
  size : Int
  errno : Nat

namespace EventFd

/-- As `eventfd(0, …)` opens it. -/
def opened : EventFd := ⟨0, Nat.zero_le _⟩

/-- A write of one. -/
def write (e : EventFd) : Option SysFault → SysAnswer × EventFd
  | some (.errno cause _) => (⟨-1, cause⟩, e)
  | some (.size n _) => (⟨n, 0⟩, e)
  | none => if h : e.counter < max then (⟨8, 0⟩, ⟨e.counter + 1, h⟩) else (⟨-1, eagain⟩, e)

/-- A read, and the value that it reads. -/
def read (e : EventFd) : Option SysFault → SysAnswer × Nat × EventFd
  | some (.errno cause _) => (⟨-1, cause⟩, 0, e)
  | some (.size n _) => (⟨n, 0⟩, 0, e)
  | none => if e.counter = 0 then (⟨-1, eagain⟩, 0, e) else (⟨8, 0⟩, e.counter, opened)

end EventFd

/-! ## 2. The notifier -/

/-- `vireo_notifier_notify_outcome_t`. -/
inductive NotifyOutcome where
  | incremented
  | alreadyPending
deriving DecidableEq

/-- `vireo_notifier_stage_t`, as far as a notify and a consume go. -/
inductive NotifierStage where
  | none
  | notify
  | consume

/-- `vireo_notifier_error_t`. -/
structure NotifierError where
  stage : NotifierStage
  cause : Nat

def NotifierError.none : NotifierError := ⟨.none, 0⟩

/-- What a notify returns, and the descriptor after it. -/
structure Notified where
  result : Result
  outcome : Option NotifyOutcome
  error : NotifierError
  fd : EventFd

/-- `vireo_notifier_notify`. -/
def notify (fd : EventFd) (fault : Option SysFault) : Notified :=
  let (answer, fd) := fd.write fault
  if answer.size = 8 then ⟨.ok, some .incremented, .none, fd⟩
  else if answer.size = -1 then
    if answer.errno = eagain then ⟨.ok, some .alreadyPending, .none, fd⟩
    else ⟨.io, none, ⟨.notify, answer.errno⟩, fd⟩
  else ⟨.internal, none, ⟨.notify, 0⟩, fd⟩

/-- What a consume returns, and the descriptor after it. -/
structure HintConsumed where
  result : Result
  count : Nat
  error : NotifierError
  fd : EventFd

/-- `vireo_notifier_consume`. -/
def consume (fd : EventFd) (fault : Option SysFault) : HintConsumed :=
  let (answer, candidate, fd) := fd.read fault
  if answer.size = 8 ∧ candidate ≠ 0 then ⟨.ok, candidate, .none, fd⟩
  else if answer.size = -1 then
    if answer.errno = eagain then ⟨.ok, 0, .none, fd⟩ else ⟨.io, 0, ⟨.consume, answer.errno⟩, fd⟩
  else ⟨.internal, 0, ⟨.consume, 0⟩, fd⟩

/-- **Behind a notify that succeeds a hint is pending**, whether it was this one or an earlier one. -/
theorem notify_ok {fd : EventFd} {fault : Option SysFault} (h : (notify fd fault).result = .ok) :
    0 < (notify fd fault).fd.counter := by
  unfold notify EventFd.write at h ⊢
  cases fault with
  | some fault =>
    cases fault with
    | errno cause hcause => simp [hcause] at h
    | size n hsize =>
      have hneg : (n : Int) ≠ -1 := by omega
      have height : (n : Int) ≠ 8 := by omega
      simp [hneg, height] at h
  | none =>
    by_cases hroom : fd.counter < EventFd.max
    · simp [hroom]
    have hpos : 0 < EventFd.max := by decide
    simp only [hroom, dite_false]
    exact lt_of_lt_of_le hpos (Nat.not_lt.mp hroom)

/-! ## 3. Publishing -/

/-- `vireo_completion_publish_stage_t`. -/
inductive PublishStage where
  | none
  | inspectTask
  | makeMetadata
  | createCompletion
  | pushQueue
  | notify
deriving DecidableEq

/-- `vireo_completion_publish_report_t`. -/
structure PublishReport where
  stage : PublishStage
  requestMetadata : Option TaskMetadata
  completionCreated : Bool
  pushCalled : Bool
  pushResult : Result
  queueReport : TransferReport
  completionTransferred : Bool
  completionRetained : Bool
  notifyCalled : Bool
  notifyResult : Result
  notifyOutcome : Option NotifyOutcome
  notifyError : NotifierError

/-- The report of a publish before it began. -/
def PublishReport.zero : PublishReport :=
  ⟨.none, none, false, false, .ok, ⟨.none, false, 0⟩, false, false, false, .ok, none, .none⟩

/-- `vireo_completion_publish_with_ops` up to the push: the report and the completion, or the end of the call;
    `copy` is what the copy of the payload comes to. -/
def publishBegin (task : TaskMetadata) (result : Result) (suggestedStatus : UInt16)
    (allocationBudget : Nat) (copy : Result) :
    Except (Result × PublishReport) (PublishReport × CompletionMetadata) :=
  if allocationBudget = 0 then .error (.invalidArgument, .zero)
  else
    let progress := { PublishReport.zero with requestMetadata := some task, stage := .makeMetadata }
    match CompletionMetadata.make task result suggestedStatus with
    | .error e => .error (e, progress)
    | .ok metadata =>
      let progress := { progress with stage := .createCompletion }
      if copy ≠ .ok then .error (copy, progress)
      else .ok ({ progress with completionCreated := true, stage := .pushQueue, pushCalled := true }, metadata)

/-- The publish behind its push: a completion that was not handed over ends it, one that was asks for a
    notify. -/
def publishPushed {Q : Type} (progress : PublishReport) (x : Exchange CompletionMetadata Q) :
    Except (Result × PublishReport) PublishReport :=
  let progress := { progress with
    pushResult := x.result
    queueReport := x.report
    completionTransferred := x.report.transferred }
  if progress.completionTransferred = false then
    .error (progress.pushResult, { progress with completionRetained := true })
  else .ok { progress with notifyCalled := true }

/-- The end of a publish, behind its notify. -/
def publishNotified (progress : PublishReport) (n : Notified) : Result × PublishReport :=
  let progress := { progress with
    notifyResult := n.result
    notifyOutcome := n.outcome
    notifyError := n.error }
  if progress.pushResult ≠ .ok then (progress.pushResult, progress)
  else if progress.notifyResult ≠ .ok then (progress.notifyResult, { progress with stage := .notify })
  else (.ok, { progress with stage := .none })

theorem publishBegin_ok {task : TaskMetadata} {result : Result} {suggestedStatus : UInt16}
    {allocationBudget : Nat} {copy : Result} {progress : PublishReport} {completion : CompletionMetadata}
    (h : publishBegin task result suggestedStatus allocationBudget copy = .ok (progress, completion)) :
    completion = ⟨task, result, suggestedStatus⟩ ∧ completion.hasValidShape = true := by
  unfold publishBegin at h
  split at h
  · cases h
  dsimp only at h
  rw [CompletionMetadata.make_eq ⟨task, result, suggestedStatus⟩] at h
  cases hshape : (⟨task, result, suggestedStatus⟩ : CompletionMetadata).hasValidShape with
  | false =>
    rw [hshape, if_pos rfl] at h
    cases h
  | true =>
    rw [hshape, if_neg (by simp)] at h
    dsimp only at h
    split at h
    · cases h
    · cases h
      exact ⟨rfl, hshape⟩

/-- **A publish notifies where it handed its completion over**, and only there. -/
theorem publishPushed_ok_iff {Q : Type} (progress : PublishReport) (x : Exchange CompletionMetadata Q) :
    (∃ next, publishPushed progress x = .ok next) ↔ x.report.transferred = true := by
  unfold publishPushed
  cases x.report.transferred with
  | true => simp
  | false => simp

end Vireo.Thread
