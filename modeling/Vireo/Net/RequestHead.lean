/-
  File:      Vireo/Net/RequestHead.lean
  Subject:   A REQUEST IS HANDED OVER FROM THE HEAD OF THE READ STREAM (`src/net/async_request.c`,
             `async_request_head.c`).

  The NULL checks are left out, and so are the copies of the diagnostics of the calls below. What the
  calls below answer is passed in: a call on a client that fails at the server does nothing, and one that
  does not is the call on the connection.
-/
import Vireo.Net.Framing
import Vireo.Net.RequestsOnce

namespace Vireo.Net

open Base Protocol Thread

/-! ## 1. One frame is submitted -/

/-- `VIREO_ASYNC_REQUEST_MAX_FRAME_BYTES`. -/
def requestMaxFrameBytes : Nat := headerSize + maxBodySize

/-- `vireo_async_request_stage_t`. -/
inductive RequestStage where
  | none
  | checkFrame
  | makeMetadata
  | createTask
  | submit
deriving DecidableEq

/-- `vireo_async_request_report_t`, without the report of the submit below. -/
structure RequestReport where
  stage : RequestStage
  frameBytes : Nat
  inputValidated : Bool
  metadata : TaskMetadata
  metadataCreated : Bool
  taskCreated : Bool
  submitCalled : Bool
  taskTransferred : Bool
  taskRetained : Bool
  codecIssue : CodecIssue

/-- A record of zeros. -/
def metadataZero : TaskMetadata := ⟨⟨0, 0, 0, 0⟩, 0, 0, 0⟩

def RequestReport.zero : RequestReport :=
  ⟨.none, 0, false, metadataZero, false, false, false, false, false, .none⟩

/-- What the calls below answer: the issuer of the metadata, the copy, and the submit, with what it says of the
    task. -/
structure RequestOps where
  server : ServerView
  lastIssued : UInt64
  exchanged : Bool
  copy : Result
  submit : Result
  transferred : Bool
  retained : Bool

/-- The limits and labels that the caller passes on. -/
structure RequestOptions where
  maxFrameBytes : Nat
  taskAllocationBudget : Nat
  maxClientRequests : Nat
  operation : UInt32
  deadlineNs : UInt64

/-- What a submit returns, its report, and the task that the pool took. -/
structure RequestOutcome where
  result : Result
  report : RequestReport
  taken : Option (TaskMetadata × Bytes)

/-- `finish` of a submit that handed no task over. -/
def RequestReport.finish (value : RequestReport) (result : Result) (stage : RequestStage)
    (codecIssue : CodecIssue) : RequestOutcome :=
  ⟨result, { value with stage := stage, codecIssue := codecIssue }, none⟩

/-- `vireo_async_request_with_ops`; `occupied` says that the caller still holds a task of an earlier
    call. -/
def copyTrySubmit (ops : RequestOps) (lease : Lease) (data : Bytes) (options : RequestOptions)
    (occupied : Bool) : RequestOutcome :=
  let value := RequestReport.zero
  if options.operation = 0 ∨ options.taskAllocationBudget = 0 ∨ options.maxClientRequests = 0 ∨ occupied = true
  then value.finish .invalidArgument .none .none
  else if options.maxFrameBytes < headerSize ∨ options.maxFrameBytes > requestMaxFrameBytes ∨
      data.length < headerSize ∨ data.length > options.maxFrameBytes then value.finish .range .none .none
  else
    match headerDecode data with
    | .error e => value.finish e.1 .checkFrame e.2
    | .ok header =>
      match requestHeaderValidate header with
      | .error e => value.finish e.1 .checkFrame e.2
      | .ok _ =>
        match checkedSizeAdd headerSize header.bodyLen.toNat with
        | .error e => value.finish e .checkFrame .none
        | .ok frameBytes =>
          let value := { value with frameBytes := frameBytes }
          if frameBytes ≠ data.length then value.finish .protocol .checkFrame .bodyLengthMismatch
          else
            let verified := frameCrc32cVerify (data.take headerSize)
              ((data.drop headerSize).take header.bodyLen.toNat)
            if verified.1 ≠ .ok then value.finish verified.1 .checkFrame verified.2
            else
              let value := { value with inputValidated := true }
              match (metadataMakeNext ops.lastIssued ops.exchanged ops.server lease header.sequence
                  options.operation options.deadlineNs).1 with
              | .error e => value.finish e.1 .makeMetadata .none
              | .ok metadata =>
                let value := { value with metadata := metadata, metadataCreated := true }
                if ops.copy ≠ .ok then value.finish ops.copy .createTask .none
                else
                  let value := { value with
                    taskCreated := true
                    submitCalled := true
                    taskTransferred := ops.transferred
                    taskRetained := ops.retained
                    stage := if ops.submit = .ok then .none else .submit }
                  ⟨ops.submit, value, if ops.transferred then some (metadata, data) else none⟩

/-! ## 2. The head of the stream -/

/-- `vireo_async_request_pending_t`. -/
structure RequestPending where
  metadata : TaskMetadata
  frameBytes : Nat
deriving DecidableEq

/-- The empty record. -/
def RequestPending.zero : RequestPending := ⟨metadataZero, 0⟩

/-- `vireo_async_request_head_stage_t`. -/
inductive HeadStage where
  | none
  | checkPending
  | peekFrame
  | peekBytes
  | submit
  | consume
deriving DecidableEq

/-- `vireo_async_request_head_report_t`, without the diagnostics of the calls below. -/
structure HeadReport where
  stage : HeadStage
  framePeekCalled : Bool
  frameInfo : Option FrameInfo
  frameFound : Bool
  frameBytes : Nat
  readPeekCalled : Bool
  submitCalled : Bool
  submitResult : Result
  submitReport : RequestReport
  pendingCommitted : Bool
  pendingRetained : Bool
  consumeCalled : Bool
  consumeResult : Result
  pendingSnapshot : RequestPending

def HeadReport.zero : HeadReport :=
  ⟨.none, false, none, false, 0, false, false, .ok, .zero, false, false, false, .ok, .zero⟩

/-- `pending_shape`: whether the record is empty, if it is one. -/
def pendingShape (pending : RequestPending) : Except Result Bool :=
  let m := pending.metadata
  if pending.frameBytes = 0 ∧ m.route.clientOwnerId = 0 ∧ m.route.clientSlotIndex = 0 ∧
      m.route.clientGeneration = 0 ∧ m.route.requestSequence = 0 ∧ m.requestInstanceId = 0 ∧
      m.operation = 0 ∧ m.deadlineNs = 0 then .ok true
  else if pending.frameBytes < headerSize ∨ pending.frameBytes > requestMaxFrameBytes then .error .invalidArgument
  else
    match TaskMetadata.make m.route m.requestInstanceId m.operation m.deadlineNs with
    | .error e => .error e
    | .ok _ => .ok false

/-- What the server says to the calls on a client: a failure, or that the connection decides. -/
structure HeadOps where
  frames : Except Failure Unit
  read : Except Failure Unit
  request : RequestOps
  consume : Except Failure Unit

/-- What a call on the head returns, its report, what it leaves, and the task that the pool took. -/
structure HeadOutcome where
  result : Result
  report : HeadReport
  pending : RequestPending
  connection : Connection
  taken : Option (TaskMetadata × Bytes)

/-- `finish` of a call that handed no task over and consumed nothing. -/
def HeadReport.finish (value : HeadReport) (result : Result) (stage : HeadStage) (pending : RequestPending)
    (c : Connection) : HeadOutcome := ⟨result, { value with stage := stage }, pending, c, none⟩

variable (consume : Except Failure Unit)

/-- `vireo_tcp_server_client_read_consume` on the client of a lease. The consume of another client does
    not touch this connection. -/
def clientReadConsume (own lease : Lease) (c : Connection) (size : Nat) :
    Result × Connection :=
  match consume with
  | .error e => (e.val, c)
  | .ok _ => if lease = own then c.readConsume size else (.ok, c)

/-- `consume_pending`. -/
def consumePending (own : Lease) (c : Connection) (pending : RequestPending) (value : HeadReport) :
    HeadOutcome :=
  let consumed := clientReadConsume consume own (client pending.metadata) c pending.frameBytes
  let value := { value with
    pendingSnapshot := pending
    frameBytes := pending.frameBytes
    consumeCalled := true
    consumeResult := consumed.1
    pendingRetained := consumed.1 ≠ .ok
    stage := if consumed.1 = .ok then .none else .consume }
  ⟨consumed.1, value, if consumed.1 = .ok then .zero else pending, consumed.2, none⟩

/-- The end of `vireo_async_request_head_with_ops`, from the submit on. -/
def submitFrame (ops : HeadOps) (own : Lease) (c : Connection) (pending : RequestPending)
    (options : RequestOptions) (occupied : Bool) (value : HeadReport) (data : Bytes) : HeadOutcome :=
  let submitted := copyTrySubmit ops.request own data options occupied
  let value := { value with submitCalled := true, submitResult := submitted.result, submitReport := submitted.report }
  if submitted.report.taskTransferred = false then
    value.finish submitted.result (if submitted.result = .ok then .none else .submit) pending c
  else
    let o := consumePending ops.consume own c ⟨submitted.report.metadata, value.frameBytes⟩
      { value with pendingCommitted := true }
    if submitted.result ≠ .ok then
      { o with result := submitted.result, report := { o.report with stage := .submit }, taken := submitted.taken }
    else { o with taken := submitted.taken }

/-- `vireo_async_request_head_with_ops`, for the client that the connection is of. -/
def submitReadHead (ops : HeadOps) (own : Lease) (c : Connection) (pending : RequestPending)
    (options : RequestOptions) (occupied : Bool) : HeadOutcome :=
  let value := HeadReport.zero
  if options.taskAllocationBudget = 0 ∨ options.maxClientRequests = 0 ∨ options.operation = 0 ∨ occupied = true
  then value.finish .invalidArgument .none pending c
  else if options.maxFrameBytes < headerSize ∨ options.maxFrameBytes > requestMaxFrameBytes then
    value.finish .range .none pending c
  else
    match pendingShape pending with
    | .error e => value.finish e .checkPending pending c
    | .ok false =>
      { value with pendingRetained := true, pendingSnapshot := pending }.finish .busy .checkPending pending c
    | .ok true =>
      let value := { value with framePeekCalled := true }
      match ops.frames with
      | .error e => value.finish e.val .peekFrame pending c
      | .ok _ =>
        let peeked := c.framesPeek ⟨.request, options.maxFrameBytes⟩ ⟨1, options.maxFrameBytes⟩ 1
        let value := { value with frameInfo := peeked.info }
        if peeked.result ≠ .ok then value.finish peeked.result .peekFrame pending c
        else
          let frameCount := (peeked.info.map FrameInfo.frameCount).getD 0
          let wireSize := (peeked.views.head?.map FrameView.wireSize).getD 0
          if frameCount = 0 then value.finish .ok .none pending c
          else
            let value := { value with frameFound := true, frameBytes := wireSize }
            if frameCount ≠ 1 ∨ wireSize < headerSize ∨ wireSize > options.maxFrameBytes then
              value.finish .internal .peekFrame pending c
            else
              let value := { value with readPeekCalled := true }
              match ops.read with
              | .error e => value.finish e.val .peekBytes pending c
              | .ok _ =>
                match c.readBuffer.peek with
                | (none, _) => value.finish .internal .peekBytes pending c
                | (some data, size) =>
                  if size.toNat < wireSize then value.finish .internal .peekBytes pending c
                  else submitFrame ops own c pending options occupied value (data.take wireSize)

/-- `vireo_async_request_resume_with_ops`. -/
def resumeConsume (own : Lease) (c : Connection) (pending : RequestPending) :
    HeadOutcome :=
  let value := HeadReport.zero
  match pendingShape pending with
  | .error e => value.finish e .checkPending pending c
  | .ok true => value.finish .notFound .checkPending pending c
  | .ok false => consumePending consume own c pending value

/-! ## 3. The runs -/

/-- A client's connection, its record, and the frames that the thread pool took, with their metadata. -/
structure HeadSystem where
  lease : Lease
  connection : Connection
  pending : RequestPending
  transferred : List (TaskMetadata × Bytes)

namespace HeadSystem

/-- The head of the stream is submitted. -/
def submitReadHead (s : HeadSystem) (ops : HeadOps) (options : RequestOptions) (occupied : Bool) : HeadSystem :=
  let o := Net.submitReadHead ops s.lease s.connection s.pending options occupied
  { s with connection := o.connection, pending := o.pending, transferred := s.transferred ++ o.taken.toList }

def resumeConsume (s : HeadSystem) (consume : Except Failure Unit) : HeadSystem :=
  let o := Net.resumeConsume consume s.lease s.connection s.pending
  { s with connection := o.connection, pending := o.pending }

end HeadSystem

/-- The runs of the two calls on one connection. Between them there are other calls on it, but nobody else
    consumes. -/
inductive HeadRun : HeadSystem → Prop
  | create {c : Connection} (lease : Lease) (h : Created c) : HeadRun ⟨lease, c, .zero, []⟩
  | call {s : HeadSystem} (run : HeadRun s) (k : ConnectionCall) (other : ∀ size, k ≠ .readConsume size) :
      HeadRun { s with connection := (s.connection.exec k).2 }
  | submit {s : HeadSystem} (run : HeadRun s) (ops : HeadOps) (options : RequestOptions) (occupied : Bool) :
      HeadRun (s.submitReadHead ops options occupied)
  | resume {s : HeadSystem} (run : HeadRun s) (consume : Except Failure Unit) : HeadRun (s.resumeConsume consume)

end Vireo.Net
