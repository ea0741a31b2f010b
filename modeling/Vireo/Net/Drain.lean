/-
  File:      Vireo/Net/Drain.lean
  Subject:   THE REACTOR DRAINS ITS COMPLETIONS (`src/net/inflight_completion_drain.c`,
             `notifier_completion.c`).

  What the consume of an item comes to is passed in: it does not touch the queue or the hint.
-/
import Mathlib.Logic.Function.Basic
import Vireo.Net.Inflight
import Vireo.Thread.CompletionPublish

namespace Vireo.Net

open Thread Function

/-! ## 1. The drain -/

/-- `VIREO_INFLIGHT_COMPLETION_DRAIN_MAX_ITEMS`. -/
def drainMaxItems : Nat := 65536

/-- `vireo_inflight_completion_drain_stage_t`. -/
inductive DrainStage where
  | none
  | pop
  | consume
deriving DecidableEq

/-- `vireo_inflight_completion_drain_stop_t`. -/
inductive DrainStop where
  | notStarted
  | empty
  | budget
  | error
deriving DecidableEq

/-- `vireo_inflight_completion_drain_report_t`. -/
structure DrainReport where
  stage : DrainStage
  stopReason : DrainStop
  popCalls : Nat
  received : Nat
  finished : Nat
  delivered : Nat
  lateCleaned : Nat
  lastItemConsumeCalled : Bool
  queueReport : TransferReport
  consumeReport : ConsumeReport

/-- The report of a drain before it began. -/
def DrainReport.zero : DrainReport := ⟨.none, .notStarted, 0, 0, 0, 0, 0, false, ⟨.none, false, 0⟩, .zero⟩

/-- An item of `vireo_inflight_completion_drain_with_ops` up to its consume: the report, or how the drain
    ends here. -/
def drainPop {Q : Type} (value : DrainReport) (x : Exchange CompletionMetadata Q) :
    Except (Result × DrainReport) DrainReport :=
  let value := { value with
    lastItemConsumeCalled := false
    queueReport := x.report
    consumeReport := .zero
    popCalls := value.popCalls + 1
    received := value.received + x.report.transferred.toNat }
  if x.result ≠ .ok then
    if x.result = .notFound ∧ x.report.transferred = false then
      .error (.ok, { value with stage := .none, stopReason := .empty })
    else .error (x.result, { value with stage := .pop, stopReason := .error })
  else .ok { value with lastItemConsumeCalled := true }

/-- The rest of the item. -/
def drainConsume (value : DrainReport) (o : ConsumeOutcome) : Except (Result × DrainReport) DrainReport :=
  let delivered : Bool := o.report.deliveryCalled && o.report.deliveryResult = .ok
  let late : Bool := o.report.disposition = .clientGone || o.report.disposition = .requestGone
  let value := { value with
    consumeReport := o.report
    delivered := value.delivered + delivered.toNat }
  if o.result ≠ .ok then .error (o.result, { value with stage := .consume, stopReason := .error })
  else .ok { value with finished := value.finished + 1, lateCleaned := value.lateCleaned + late.toNat }

/-- The end of a drain whose budget is used up. -/
def drainBudget (value : DrainReport) : Result × DrainReport :=
  (.ok, { value with stage := .none, stopReason := .budget })

/-! ## 2. The round -/

/-- `vireo_notifier_completion_stage_t`. -/
inductive RoundStage where
  | none
  | consumeHint
  | drain
  | renotify
deriving DecidableEq

/-- `vireo_notifier_completion_report_t`. -/
structure RoundReport where
  stage : RoundStage
  consumeCalled : Bool
  notificationCount : Nat
  consumeError : NotifierError
  drainCalled : Bool
  drainResult : Result
  drainReport : DrainReport
  renotifyNeeded : Bool
  renotifyCalled : Bool
  renotifyResult : Result
  renotifyOutcome : Option NotifyOutcome
  renotifyError : NotifierError

/-- The report of a round before it began. -/
def RoundReport.zero : RoundReport :=
  ⟨.none, false, 0, .none, false, .ok, .zero, false, false, .ok, none, .none⟩

/-- `vireo_notifier_completion_with_ops` up to its drain: the report, or the end of the round, and the
    descriptor. -/
def roundBegin (fd : EventFd) (remaining : Option CompletionMetadata) (maxItems : Nat)
    (fault : Option SysFault) : Except (Result × RoundReport) RoundReport × EventFd :=
  if maxItems = 0 ∨ remaining ≠ none then (.error (.invalidArgument, .zero), fd)
  else if maxItems > drainMaxItems then (.error (.range, .zero), fd)
  else
    let hint := consume fd fault
    let value := { RoundReport.zero with
      consumeCalled := true
      notificationCount := hint.count
      consumeError := hint.error }
    if hint.result ≠ .ok then (.error (hint.result, { value with stage := .consumeHint }), hint.fd)
    else (.ok { value with drainCalled := true }, hint.fd)

/-- The round behind its drain: whether it needs a hint of its own. -/
def roundDrained (value : RoundReport) (result : Result) (drain : DrainReport) : RoundReport :=
  let needed := (result = .ok ∧ drain.stopReason = .budget) ∨
    (result = .busy ∧ drain.stage = .pop ∧ drain.queueReport.transferred = false)
  { value with
    drainResult := result
    drainReport := drain
    renotifyNeeded := needed
    renotifyCalled := needed }

/-- The hint that the round gave. -/
def roundRenotified (value : RoundReport) (n : Notified) : RoundReport :=
  { value with
    renotifyResult := n.result
    renotifyOutcome := n.outcome
    renotifyError := n.error }

/-- The end of a round. -/
def roundFinish (value : RoundReport) : Result × RoundReport :=
  if value.drainResult ≠ .ok then (value.drainResult, { value with stage := .drain })
  else if value.renotifyCalled ∧ value.renotifyResult ≠ .ok then
    (value.renotifyResult, { value with stage := .renotify })
  else (.ok, { value with stage := .none })

/-! ## 3. The path of a completion -/

/-- Where a worker is: not publishing, in front of a full queue, or between its push and its notify. -/
inductive Publishing where
  | idle
  | waiting (progress : PublishReport) (completion : CompletionMetadata)
  | notifying (progress : PublishReport)

/-- Where the reactor is: `left` items are left of the budget when it pops, and when it consumes. -/
inductive Round where
  | idle
  | popping (value : RoundReport) (drain : DrainReport) (left : Nat)
  | consuming (value : RoundReport) (drain : DrainReport) (left : Nat)
  | renotifying (value : RoundReport)

/-- The queue and the notifier between workers and reactor; `remaining` is the completion in the reactor's hand,
    `notifies` and `rounds` are what was returned so far. -/
structure CompletionPath where
  queue : CompletionQueue CompletionMetadata
  hint : EventFd
  workers : Nat → Publishing
  round : Round
  remaining : Option CompletionMetadata
  notifies : List Result
  rounds : List Result

/-- What can happen next. -/
inductive PathEvent where
  | publish (w : Nat) (task : TaskMetadata) (result : Result) (suggestedStatus : UInt16)
      (allocationBudget : Nat) (copy : Result) (codes : SyncCodes)
  | wake (w wait unlock : Nat)
  | notify (w : Nat) (fault : Option SysFault)
  | round (maxItems : Nat) (fault : Option SysFault)
  | pop (codes : SyncCodes)
  | consumed (o : ConsumeOutcome)
  | renotify (fault : Option SysFault)
  | recover
  | close (codes : SyncCodes)

namespace CompletionPath

variable (s : CompletionPath)

/-- A section of a worker's push has ended. -/
def pushed (w : Nat) (progress : PublishReport) (completion : CompletionMetadata) :
    WaitOutcome CompletionMetadata (CompletionQueue CompletionMetadata) → CompletionPath
  | .blocked => { s with workers := update s.workers w (.waiting progress completion) }
  | .returned x =>
    match publishPushed progress x with
    | .error _ => { s with queue := x.queue, workers := update s.workers w .idle }
    | .ok next => { s with queue := x.queue, workers := update s.workers w (.notifying next) }

/-- The round has ended. -/
def finished (result : Result) : CompletionPath :=
  { s with round := .idle, rounds := s.rounds ++ [result] }

/-- The drain of the round has ended. -/
def drained (value : RoundReport) (result : Result) (drain : DrainReport) :
    CompletionPath :=
  let value := roundDrained value result drain
  if value.renotifyCalled then { s with round := .renotifying value } else s.finished (roundFinish value).1

/-- A worker publishes, up to its push. A worker or a reactor that is elsewhere does not take a step. -/
def publish (w : Nat) (task : TaskMetadata) (result : Result) (suggestedStatus : UInt16)
    (allocationBudget : Nat) (copy : Result) (codes : SyncCodes) : CompletionPath :=
  match s.workers w, publishBegin task result suggestedStatus allocationBudget copy with
  | .idle, .ok (progress, completion) =>
    s.pushed w progress completion (s.queue.waitPush (some completion) codes)
  | _, _ => s

/-- A worker that waits for room is woken. -/
def wake (w wait unlock : Nat) : CompletionPath :=
  match s.workers w with
  | .waiting progress completion =>
    s.pushed w progress completion (s.queue.waitPushWake completion wait unlock)
  | _ => s

/-- A worker notifies. -/
def notify (w : Nat) (fault : Option SysFault) : CompletionPath :=
  match s.workers w with
  | .notifying _ =>
    let n := Thread.notify s.hint fault
    { s with
      hint := n.fd
      workers := update s.workers w .idle
      notifies := s.notifies ++ [n.result] }
  | _ => s

/-- The reactor begins a round. -/
def beginRound (maxItems : Nat) (fault : Option SysFault) : CompletionPath :=
  match s.round, roundBegin s.hint s.remaining maxItems fault with
  | .idle, (.error (result, _), fd) => { s with hint := fd }.finished result
  | .idle, (.ok value, fd) => { s with hint := fd, round := .popping value .zero maxItems }
  | _, _ => s

/-- The reactor pops. -/
def pop (codes : SyncCodes) : CompletionPath :=
  match s.round with
  | .popping value drain left =>
    let x := s.queue.tryPop s.remaining codes
    let s := { s with queue := x.queue, remaining := x.owner }
    match drainPop drain x with
    | .error (result, drain) => s.drained value result drain
    | .ok drain => { s with round := .consuming value drain left }
  | _ => s

/-- The reactor has consumed what it popped. -/
def consumed (o : ConsumeOutcome) : CompletionPath :=
  match s.round with
  | .consuming value drain left =>
    let s := { s with remaining := o.owner }
    match drainConsume drain o with
    | .error (result, drain) => s.drained value result drain
    | .ok drain =>
      if left ≤ 1 then s.drained value (drainBudget drain).1 (drainBudget drain).2
      else { s with round := .popping value drain (left - 1) }
  | _ => s

/-- The reactor gives the hint that its round needs. -/
def renotify (fault : Option SysFault) : CompletionPath :=
  match s.round with
  | .renotifying value =>
    let n := Thread.notify s.hint fault
    { s with hint := n.fd }.finished (roundFinish (roundRenotified value n)).1
  | _ => s

/-- Between two rounds the reactor disposes of a completion that it was left with. -/
def recover : CompletionPath :=
  match s.round with
  | .idle => { s with remaining := none }
  | _ => s

/-- One step of a worker or of the reactor. -/
def exec : PathEvent → CompletionPath
  | .publish w task result suggestedStatus allocationBudget copy codes =>
    s.publish w task result suggestedStatus allocationBudget copy codes
  | .wake w wait unlock => s.wake w wait unlock
  | .notify w fault => s.notify w fault
  | .round maxItems fault => s.beginRound maxItems fault
  | .pop codes => s.pop codes
  | .consumed o => s.consumed o
  | .renotify fault => s.renotify fault
  | .recover => s.recover
  | .close codes => { s with queue := (s.queue.close codes).2.2 }

/-- The path before anything happened. -/
def start (queue : CompletionQueue CompletionMetadata) : CompletionPath :=
  ⟨queue, .opened, fun _ => .idle, .idle, none, [], []⟩

end CompletionPath

/-- The states that are reached from a created queue, prepared for waiting or not. -/
inductive PathRun : CompletionPath → Prop
  | start {capacity budget : UInt64} {memory : Bool} {init prepare : Nat}
      {q : CompletionQueue CompletionMetadata}
      (h : CompletionQueue.create capacity budget memory init = .ok q) :
      PathRun (.start (q.prepareWait prepare).2)
  | step {s : CompletionPath} (h : PathRun s) (e : PathEvent) : PathRun (s.exec e)

end Vireo.Net
