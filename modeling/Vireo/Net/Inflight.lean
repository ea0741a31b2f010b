/-
  File:      Vireo/Net/Inflight.lean
  Subject:   THE REQUESTS IN FLIGHT (`src/net/inflight*.c`): the table of the reactor, and what is done
             with it.

  Null pointers do not exist here. What the server answers to a query, what a retain, a release, a
  cancel request or a callback comes to is passed in. A reference is the number of the retain that gave
  it out.
-/
import Vireo.Base.Pool
import Vireo.Net.Connection
import Vireo.Thread.TaskMetadata
import Vireo.Thread.ThreadPool

namespace Vireo.Net

open Base Thread

/-! ## 1. The table -/

/-- `vireo_inflight_stage_t`. -/
inductive InflightStage where
  | none
  | checkClient
  | makeRoute
  | makeMetadata
  | checkMetadata
  | checkServer
  | checkRecord
  | issueInstance
  | retainCancel
  | releaseCancel
  | checkCompletion
  | matchRecord
deriving DecidableEq

/-- `vireo_inflight_store_slot_t`. -/
structure InflightSlot where
  occupied : Bool
  metadata : TaskMetadata
  cancel : Option Nat
deriving DecidableEq

/-- A slot as it is created and as it is left. -/
def InflightSlot.empty : InflightSlot := ⟨false, ⟨⟨0, 0, 0, 0⟩, 0, 0, 0⟩, none⟩

/-- The references to cancel states that were taken for the table: how many, and which were given back. -/
structure Cancels where
  retained : Nat
  released : List Nat
deriving DecidableEq

/-- `struct vireo_inflight_store`; `cancels` is what became of the references it took. -/
structure InflightStore where
  capacity : Nat
  count : Nat
  slots : List InflightSlot
  cancels : Cancels
deriving DecidableEq

namespace InflightStore

/-- `VIREO_INFLIGHT_STORE_MAX_CAPACITY`. -/
def maxCapacity : Nat := 65536

/-- `VIREO_INFLIGHT_STORE_MAX_ALLOCATION_BYTES`. -/
def maxAllocationBytes : Nat := 67108864

/-- `sizeof(vireo_inflight_store_t)` and `sizeof(vireo_inflight_store_slot_t)` on LP64. -/
def controlBytes : Nat := 56
def slotBytes : Nat := 72

/-- `vireo_inflight_store_create_with_allocator`; `memory` says whether the block was allocated. -/
def create (capacity maxMemoryBytes : Nat) (memory : Bool) : Except Result InflightStore :=
  if capacity = 0 ∨ maxMemoryBytes = 0 then .error .invalidArgument
  else if capacity * slotBytes > sizeMax then .error .overflow
  else
    match checkedSizeAdd controlBytes (capacity * slotBytes) with
    | .error e => .error e
    | .ok allocatedBytes =>
      if capacity > maxCapacity ∨ maxMemoryBytes > maxAllocationBytes ∨ allocatedBytes > maxMemoryBytes then
        .error .range
      else if memory = false then .error .noMemory
      else .ok ⟨capacity, 0, List.replicate capacity .empty, ⟨0, []⟩⟩

/-- `vireo_inflight_store_destroy`: only an empty table goes. -/
def destroy (s : InflightStore) : Result := if s.count ≠ 0 then .busy else .ok

end InflightStore

/-! ## 2. The client of a request -/

/-- What the server answers: the close state of a client, and whether it is asked to stop. -/
structure ServerView where
  clientInspect : Lease → Except Failure CloseState
  stopRequested : Except Failure Bool

/-- The client that a task is for. -/
def client (metadata : TaskMetadata) : Lease :=
  ⟨metadata.route.clientOwnerId, metadata.route.clientSlotIndex, metadata.route.clientGeneration⟩

/-- `validate`. -/
def validate (metadata : TaskMetadata) : Except Result TaskMetadata :=
  TaskMetadata.make metadata.route metadata.requestInstanceId metadata.operation metadata.deadlineNs

/-- `vireo_inflight_check_client`. A close state is one of three here. -/
def checkClient (server : ServerView) (metadata : TaskMetadata) : Except (Result × InflightStage) CloseState :=
  match validate metadata with
  | .error e => .error (e, .checkMetadata)
  | .ok validated =>
    match server.clientInspect (client validated) with
    | .error e => .error (e.val, .checkClient)
    | .ok state => .ok state

/-- `vireo_inflight_metadata_make`. -/
def metadataMake (server : ServerView) (lease : Lease) (requestSequence : UInt32) (requestInstanceId : UInt64)
    (operation : UInt32) (deadlineNs : UInt64) : Except (Result × InflightStage) TaskMetadata :=
  let empty := lease.poolId = 0 ∧ lease.slotIndex = 0 ∧ lease.generation = 0
  if requestSequence = 0 ∨ requestInstanceId = 0 ∨ operation = 0 ∨
      (¬ empty ∧ (lease.poolId = 0 ∨ lease.generation = 0)) then .error (.invalidArgument, .none)
  else
    match server.clientInspect lease with
    | .error e => .error (e.val, .checkClient)
    | .ok _ =>
      match TaskRoute.make lease.poolId lease.slotIndex lease.generation requestSequence with
      | .error e => .error (e, .makeRoute)
      | .ok route =>
        match TaskMetadata.make route requestInstanceId operation deadlineNs with
        | .error e => .error (e, .makeMetadata)
        | .ok value => .ok value

/-- `vireo_inflight_metadata_make_next_with_issuer`: the metadata and the counter behind it; `exchanged`
    says whether the one exchange of the counter succeeds. -/
def metadataMakeNext (lastIssued : UInt64) (exchanged : Bool) (server : ServerView) (lease : Lease)
    (requestSequence operation : UInt32) (deadlineNs : UInt64) :
    Except (Result × InflightStage) TaskMetadata × UInt64 :=
  match metadataMake server lease requestSequence 1 operation deadlineNs with
  | .error e => (.error e, lastIssued)
  | .ok value =>
    match checkedU64Add lastIssued 1 with
    | .error e => (.error (e, .issueInstance), lastIssued)
    | .ok next =>
      if exchanged = false then (.error (.busy, .issueInstance), lastIssued)
      else (.ok { value with requestInstanceId := next }, next)

/-! ## 3. Registering -/

/-- What a call on the table returns, its stage, and the table after it. -/
structure StoreOutcome where
  result : Result
  stage : InflightStage
  store : InflightStore

variable (s : InflightStore)

/-- `finish` of a call that leaves the table as it is. -/
def InflightStore.finish (result : Result) (stage : InflightStage) : StoreOutcome :=
  ⟨result, stage, s⟩

/-- `same_client`. -/
def sameClient (left right : TaskRoute) : Bool :=
  left.clientOwnerId = right.clientOwnerId && left.clientSlotIndex = right.clientSlotIndex &&
    left.clientGeneration = right.clientGeneration

/-- The loop of `register_impl` over the slots from `i` on: the first free one, and how many records the
    client has. -/
def registerScan (metadata : TaskMetadata) (limited : Bool) (capacity : Nat) :
    List InflightSlot → Nat → Nat → Nat → Except Result (Nat × Nat)
  | [], _, empty, clientCount => .ok (empty, clientCount)
  | slot :: slots, i, empty, clientCount =>
    if slot.occupied = false then
      registerScan metadata limited capacity slots (i + 1) (if empty = capacity then i else empty) clientCount
    else if sameClient metadata.route slot.metadata.route then
      if metadata.route.requestSequence = slot.metadata.route.requestSequence ∨
          metadata.requestInstanceId = slot.metadata.requestInstanceId then .error .busy
      else if limited then
        match checkedSizeAdd clientCount 1 with
        | .error e => .error e
        | .ok clientCount => registerScan metadata limited capacity slots (i + 1) empty clientCount
      else registerScan metadata limited capacity slots (i + 1) empty clientCount
    else registerScan metadata limited capacity slots (i + 1) empty clientCount

/-- A free slot is filled, with a reference if one was taken. -/
def InflightStore.enter (index : Nat) (metadata : TaskMetadata) (nextCount : Nat) (retained : Bool) :
    InflightStore :=
  { s with
    slots := s.slots.set index ⟨true, metadata, if retained then some s.cancels.retained else none⟩
    count := nextCount
    cancels := { s.cancels with retained := s.cancels.retained + if retained then 1 else 0 } }

variable (server : ServerView)

/-- `register_impl`; `retain` is none without a task, else what the retain of its cancel state comes to. -/
def InflightStore.registerImpl (metadata : TaskMetadata) (limited : Bool) (maxClientRequests : Nat)
    (retain : Option Result) : StoreOutcome :=
  if limited ∧ maxClientRequests = 0 then s.finish .invalidArgument .none
  else
    match validate metadata with
    | .error e => s.finish e .checkMetadata
    | .ok _ =>
      if limited ∧ maxClientRequests > s.capacity then s.finish .range .checkRecord
      else
        match checkClient server metadata with
        | .error e => s.finish e.1 e.2
        | .ok state =>
          match server.stopRequested with
          | .error e => s.finish e.val .checkServer
          | .ok stopRequested =>
            if stopRequested then s.finish .cancelled .checkServer
            else if state ≠ .open then s.finish .busy .checkClient
            else
              match registerScan metadata limited s.capacity s.slots 0 s.capacity 0 with
              | .error e => s.finish e .checkRecord
              | .ok (empty, clientCount) =>
                if limited ∧ clientCount ≥ maxClientRequests then s.finish .busy .checkRecord
                else if empty = s.capacity then s.finish .busy .checkRecord
                else
                  match checkedSizeAdd s.count 1 with
                  | .error e => s.finish e .checkRecord
                  | .ok nextCount =>
                    if nextCount > s.capacity then s.finish .internal .checkRecord
                    else if retain ≠ none ∧ retain ≠ some .ok ∧ retain ≠ some .notFound then
                      s.finish (retain.getD .ok) .retainCancel
                    else (s.enter empty metadata nextCount (retain = some .ok)).finish .ok .none

/-- `vireo_inflight_store_register`. -/
def InflightStore.register (metadata : TaskMetadata) : StoreOutcome :=
  s.registerImpl server metadata false 0 none

/-- `vireo_inflight_store_register_limited`. -/
def InflightStore.registerLimited (metadata : TaskMetadata) (maxClientRequests : Nat) :
    StoreOutcome :=
  s.registerImpl server metadata true maxClientRequests none

/-- `vireo_inflight_store_register_task_limited_with_operations` on a task with this metadata. -/
def InflightStore.registerTaskLimited (metadata : TaskMetadata) (maxClientRequests : Nat) (retain : Result) :
    StoreOutcome :=
  if maxClientRequests = 0 then s.finish .invalidArgument .none
  else s.registerImpl server metadata true maxClientRequests (some retain)

/-! ## 4. Looking up and taking out -/

/-- `find_record`, over the slots from `i` on. -/
def findRecord (key : TaskMetadata) : List InflightSlot → Nat → Except Result Nat
  | [], _ => .error .notFound
  | slot :: slots, i =>
    if slot.occupied = false then findRecord key slots (i + 1)
    else
      match key.sameRequest slot.metadata with
      | .error e => .error e
      | .ok same => if same then .ok i else findRecord key slots (i + 1)

/-- The slot of an index. -/
def InflightStore.slot (i : Nat) : InflightSlot := s.slots.getD i .empty

/-- `vireo_inflight_store_get`. -/
def InflightStore.get (key : TaskMetadata) : Except (Result × InflightStage) TaskMetadata :=
  match validate key with
  | .error e => .error (e, .checkMetadata)
  | .ok _ =>
    match findRecord key s.slots 0 with
    | .error e => .error (e, .checkRecord)
    | .ok index => .ok (s.slot index).metadata

/-- A slot is left: its record goes, its reference was given back. -/
def InflightStore.leave (index : Nat) : InflightStore :=
  { s with
    slots := s.slots.set index .empty
    count := s.count - 1
    cancels := { s.cancels with released := s.cancels.released ++ (s.slot index).cancel.toList } }

/-- `vireo_inflight_store_take`; `release` is what the destroy of the reference comes to. -/
def InflightStore.take (key : TaskMetadata) (release : Result) :
    StoreOutcome × Option TaskMetadata :=
  match validate key with
  | .error e => (s.finish e .checkMetadata, none)
  | .ok _ =>
    match findRecord key s.slots 0 with
    | .error e => (s.finish e .checkRecord, none)
    | .ok index =>
      if s.count = 0 ∨ s.count > s.capacity then (s.finish .internal .checkRecord, none)
      else if release ≠ .ok then (s.finish release .releaseCancel, none)
      else ((s.leave index).finish .ok .none, some (s.slot index).metadata)

/-! ## 5. The cleanup of a client -/

/-- `vireo_inflight_client_cleanup_stage_t`. -/
inductive CleanupStage where
  | none
  | checkRecord
  | requestCancel
  | releaseCancel
deriving DecidableEq

/-- `vireo_inflight_client_cleanup_stop_t`. -/
inductive CleanupStop where
  | none
  | complete
  | budget
  | error
deriving DecidableEq

/-- `vireo_inflight_client_cleanup_report_t`. -/
structure CleanupReport where
  stage : CleanupStage
  stopReason : CleanupStop
  nextIndex : Nat
  scannedSlots : Nat
  matchedRecords : Nat
  cancelRequests : Nat
  withoutCancel : Nat
  removedRecords : Nat
  lastMetadata : TaskMetadata
  lastCancelRequested : Bool

/-- The report of a cleanup before it began. -/
def CleanupReport.zero : CleanupReport := ⟨.none, .none, 0, 0, 0, 0, 0, 0, ⟨⟨0, 0, 0, 0⟩, 0, 0, 0⟩, false⟩

/-- `belongs`. -/
def belongs (metadata : TaskMetadata) (lease : Lease) : Bool :=
  metadata.route.clientOwnerId = lease.poolId && metadata.route.clientSlotIndex = lease.slotIndex &&
    metadata.route.clientGeneration = lease.generation

/-- The loop of `vireo_inflight_client_cleanup_with_ops`; `left` slots are left of the budget. -/
def cleanupLoop (lease : Lease) (request release : Nat → Result) :
    Nat → CleanupReport → InflightStore → Result × CleanupReport × InflightStore
  | left, value, s =>
    let done : Result × CleanupReport × InflightStore :=
      (.ok, { value with
        stage := .none
        stopReason := if value.nextIndex = s.capacity then .complete else .budget }, s)
    match left with
    | 0 => done
    | left + 1 =>
      if value.nextIndex < s.capacity then
        let slot := s.slot value.nextIndex
        let value := { value with scannedSlots := value.scannedSlots + 1 }
        if slot.occupied && belongs slot.metadata lease then
          let value := { value with
            matchedRecords := value.matchedRecords + 1
            lastMetadata := slot.metadata
            lastCancelRequested := false
            stopReason := .error
            stage := .checkRecord }
          if s.count = 0 then (.internal, value, s)
          else if slot.cancel ≠ none ∧ request value.nextIndex ≠ .ok then
            (request value.nextIndex, { value with stage := .requestCancel }, s)
          else
            let value :=
              if slot.cancel ≠ none then
                { value with cancelRequests := value.cancelRequests + 1, lastCancelRequested := true }
              else { value with withoutCancel := value.withoutCancel + 1 }
            let value := { value with stage := .releaseCancel }
            if release value.nextIndex ≠ .ok then (release value.nextIndex, value, s)
            else
              cleanupLoop lease request release left
                { value with
                  removedRecords := value.removedRecords + 1, nextIndex := value.nextIndex + 1 }
                (s.leave value.nextIndex)
        else cleanupLoop lease request release left { value with nextIndex := value.nextIndex + 1 } s
      else done

/-- `vireo_inflight_client_cleanup_with_ops`. -/
def InflightStore.cancelClientBatch (lease : Lease) (beginIndex maxSlots : Nat) (request release : Nat → Result) :
    Result × CleanupReport × InflightStore :=
  if maxSlots = 0 then (.invalidArgument, .zero, s)
  else if maxSlots > maxCapacity ∨ beginIndex > s.capacity then (.range, .zero, s)
  else if lease.poolId = 0 ∧ lease.slotIndex = 0 ∧ lease.generation = 0 then (.notFound, .zero, s)
  else if lease.poolId = 0 ∨ lease.generation = 0 then (.invalidArgument, .zero, s)
  else
    let value := { CleanupReport.zero with nextIndex := beginIndex }
    if s.count > s.capacity then (.internal, { value with stage := .checkRecord, stopReason := .error }, s)
    else cleanupLoop lease request release maxSlots value s

/-! ## 6. Completions -/

/-- `vireo_inflight_completion_match_t`. -/
structure CompletionMatch where
  metadata : TaskMetadata
  closeState : CloseState
deriving DecidableEq

/-- `vireo_inflight_store_check_completion`. -/
def InflightStore.checkCompletion (server : ServerView) (completion : CompletionMetadata) :
    Except (Result × InflightStage) CompletionMatch :=
  match CompletionMetadata.make completion.request completion.result completion.suggestedStatus with
  | .error e => .error (e, .checkCompletion)
  | .ok validated =>
    match checkClient server validated.request with
    | .error e => .error e
    | .ok closeState =>
      match s.get validated.request with
      | .error e => .error e
      | .ok metadata =>
        if validated.request.operation ≠ metadata.operation ∨
            validated.request.deadlineNs ≠ metadata.deadlineNs then .error (.invalidArgument, .matchRecord)
        else .ok ⟨metadata, closeState⟩

/-- `vireo_inflight_consume_stage_t`. -/
inductive ConsumeStage where
  | none
  | inspect
  | checkMatch
  | checkRecord
  | takeRecord
  | deliver
  | destroy
deriving DecidableEq

/-- `vireo_inflight_completion_disposition_t`. -/
inductive Disposition where
  | none
  | matched
  | clientGone
  | requestGone
deriving DecidableEq

/-- `vireo_inflight_completion_consume_report_t`; the match of one that was delivered or was about to
    be. -/
structure ConsumeReport where
  stage : ConsumeStage
  disposition : Disposition
  completionMetadata : Option CompletionMetadata
  found : Option CompletionMatch
  recordConsumed : Bool
  deliveryCalled : Bool
  deliveryResult : Result
  destroyCalled : Bool
  completionConsumed : Bool
  inflightStage : InflightStage
  destroyResult : Result

/-- The report of a consume before it began. -/
def ConsumeReport.zero : ConsumeReport :=
  ⟨.none, .none, none, none, false, false, .ok, false, false, .none, .ok⟩

/-- What a consume returns, its report, the owner of the completion and the table after it. -/
structure ConsumeOutcome where
  result : Result
  report : ConsumeReport
  owner : Option CompletionMetadata
  store : InflightStore

/-- The end of `vireo_inflight_store_consume_completion`: the record goes, the completion is delivered if it
    matched, and destroyed. -/
def InflightStore.settleCompletion (completion : CompletionMetadata) (value : ConsumeReport)
    (record : Option TaskMetadata) (release deliver : Result) : ConsumeOutcome :=
  let taken := match record with
    | none => s.finish .ok .none
    | some key => (s.take key release).1
  if taken.result ≠ .ok then
    ⟨taken.result, { value with inflightStage := taken.stage, stage := .takeRecord }, some completion, taken.store⟩
  else
    let value := { value with recordConsumed := record.isSome }
    let value :=
      if value.disposition = .matched then { value with deliveryCalled := true, deliveryResult := deliver }
      else value
    if value.disposition = .matched ∧ deliver ≠ .ok then
      ⟨deliver, { value with stage := .deliver }, some completion, taken.store⟩
    else
      ⟨.ok, { value with destroyCalled := true, destroyResult := .ok, completionConsumed := true, stage := .none },
        none, taken.store⟩

/-- `vireo_inflight_store_consume_completion`; `deliver` is what the callback returns, whose own calls on
    other records come after it. -/
def InflightStore.consumeCompletion (server : ServerView) (owner : Option CompletionMetadata)
    (release deliver : Result) : ConsumeOutcome :=
  match owner with
  | none => ⟨.notFound, .zero, none, s⟩
  | some completion =>
    let value := { ConsumeReport.zero with completionMetadata := some completion }
    match s.checkCompletion server completion with
    | .ok found =>
      s.settleCompletion completion { value with disposition := .matched, found := some found }
        (some found.metadata) release deliver
    | .error (e, stage) =>
      let value := { value with inflightStage := stage }
      if e = .notFound ∧ stage = .checkClient then
        let value := { value with disposition := .clientGone }
        match s.get completion.request with
        | .ok record =>
          if record.operation ≠ completion.request.operation ∨
              record.deadlineNs ≠ completion.request.deadlineNs then
            ⟨.invalidArgument, { value with inflightStage := .matchRecord, stage := .checkRecord }, owner, s⟩
          else s.settleCompletion completion value (some record) release deliver
        | .error (e', detail) =>
          if e' ≠ .notFound then
            ⟨e', { value with inflightStage := detail, stage := .checkRecord }, owner, s⟩
          else s.settleCompletion completion value none release deliver
      else if e = .notFound ∧ stage = .checkRecord then
        s.settleCompletion completion { value with disposition := .requestGone } none release deliver
      else ⟨e, { value with stage := .checkMatch }, owner, s⟩

/-! ## 7. Submitting -/

/-- `vireo_inflight_submit_stage_t`. -/
inductive InflightSubmitStage where
  | none
  | inspectTask
  | registerRequest
  | submitTask

/-- `vireo_inflight_submit_report_t`. -/
structure InflightSubmitReport where
  stage : InflightSubmitStage
  metadata : Option TaskMetadata
  registrationCommitted : Bool
  recordRetained : Bool
  submitCalled : Bool
  poolReport : Option SubmitReport
  rollbackCalled : Bool
  rollbackResult : Result
  inflightStage : InflightStage

/-- What a submit returns, its report, the owner of the task and the table after it. -/
structure SubmitOutcome where
  result : Result
  report : InflightSubmitReport
  owner : Option TaskMetadata
  store : InflightStore

/-- What the thread pool answers to a task: its result, its report and whose the task is then. -/
structure PoolAnswer where
  result : Result
  report : SubmitReport

/-- `vireo_inflight_store_try_submit_with_operations`; `release` is what the destroy of the reference comes to. -/
def InflightStore.trySubmit (server : ServerView) (maxClientRequests : Nat) (owner : Option TaskMetadata)
    (retain : Result) (pool : PoolAnswer) (release : Result) : SubmitOutcome :=
  let value : InflightSubmitReport := ⟨.none, none, false, false, false, none, false, .ok, .none⟩
  if maxClientRequests = 0 then ⟨.invalidArgument, value, owner, s⟩
  else
    match owner with
    | none => ⟨.notFound, value, none, s⟩
    | some task =>
      let value := { value with metadata := some task, stage := .registerRequest }
      let registered := s.registerTaskLimited server task maxClientRequests retain
      let value := { value with inflightStage := registered.stage }
      if registered.result ≠ .ok then ⟨registered.result, value, owner, registered.store⟩
      else
        let value := { value with
          registrationCommitted := true
          recordRetained := true
          submitCalled := true
          stage := .submitTask
          poolReport := some pool.report }
        let owner := if pool.report.queueReport.transferred then none else owner
        if pool.result = .ok then ⟨.ok, { value with stage := .none }, owner, registered.store⟩
        else if pool.report.queueReport.transferred = false then
          let taken := registered.store.take task release
          let value := { value with
            rollbackCalled := true
            rollbackResult := taken.1.result
            inflightStage := taken.1.stage
            recordRetained := if taken.1.result = .ok then false else true }
          ⟨pool.result, value, owner, taken.1.store⟩
        else ⟨pool.result, value, owner, registered.store⟩

end Vireo.Net
