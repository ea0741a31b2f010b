/-
  File:      Vireo/Net/AuthConsumer.lean
  Subject:   ANSWERING AN AUTHENTICATION (`src/net/auth_response_consumer.c`): from a completion to the frame
             of its response and the session that is bound by it.

  Null pointers do not exist here. What the server says of itself and of the TLS of a client, the random
  bytes, the enqueue, the refresh and the destroy of a cancellation are passed in. The reports of other
  calls that the source's report carries along are left out, and so are the copies that are wiped.
-/
import Vireo.Lib.Prog
import Vireo.Net.AuthSession
import Vireo.Net.Inflight
import Vireo.Net.TlsIo
import Vireo.Service.AuthTask

namespace Vireo.Net

open Base Lib Thread Protocol Service

/-! ## 1. Receipts and reports -/

/-- `vireo_auth_response_consumer_state_t`. -/
inductive ReceiptState where
  | empty
  | needsEnqueue
  | needsBind
  | needsRefresh
  | ready
deriving DecidableEq

/-- `vireo_auth_response_consumer_receipt_t`. -/
structure Receipt where
  state : ReceiptState
  metadata : CompletionMetadata
  found : CompletionMatch
  command : UInt16
  wireStatus : UInt16
  ticket : SessionTicket
  ticketPending : Bool
  effectApplied : Bool
  effectMetadata : CompletionMetadata
  effectTarget : LogoutIdentity
deriving DecidableEq

/-- A metadata of zeros. -/
def noMetadata : CompletionMetadata := ⟨⟨⟨0, 0, 0, 0⟩, 0, 0, 0⟩, .ok, 0⟩

/-- A receipt of zeros. -/
def Receipt.zero : Receipt :=
  ⟨.empty, noMetadata, ⟨noMetadata.request, .open⟩, 0, 0, .zero, false, false, noMetadata, ⟨0, 0⟩⟩

/-- `vireo_auth_response_consumer_stage_t`. -/
inductive ConsumerStage where
  | none
  | decode
  | find
  | transport
  | reserve
  | encode
  | enqueue
  | bind
  | refresh
  | destroy

/-- `vireo_auth_response_consumer_report_t`. -/
structure ConsumerReport where
  stage : ConsumerStage
  consumeCalled : Bool
  consumption : ConsumeReport
  frameEncoded : Bool
  enqueueCalled : Bool
  enqueued : Bool
  bound : Bool
  refreshCalled : Bool
  frameBytes : Nat

/-- A report of zeros. -/
def ConsumerReport.zero : ConsumerReport := ⟨.none, false, .zero, false, false, false, false, false, 0⟩

/-- `vireo_auth_response_consumer_options_t`. -/
structure ConsumerOptions where
  registerOperation : UInt32
  loginOperation : UInt32
  logoutOperation : UInt32
  resumeOperation : UInt32
deriving DecidableEq

/-- The operations are there and differ. -/
def ConsumerOptions.distinct (o : ConsumerOptions) : Bool :=
  o.registerOperation ≠ 0 && o.loginOperation ≠ 0 && o.logoutOperation ≠ 0 && o.resumeOperation ≠ 0 &&
    o.registerOperation ≠ o.loginOperation && o.registerOperation ≠ o.logoutOperation &&
    o.registerOperation ≠ o.resumeOperation && o.loginOperation ≠ o.logoutOperation &&
    o.loginOperation ≠ o.resumeOperation && o.logoutOperation ≠ o.resumeOperation

/-- `registry` of `vireo_auth_response_consumer_with`. -/
def ConsumerOptions.registry (o : ConsumerOptions) : AuthTaskOptions where
  registerOperation := o.registerOperation
  loginOperation := o.loginOperation
  logoutOperation := o.logoutOperation
  resumeOperation := o.resumeOperation
  poolTimeoutMs := 0

/-- `metadata_same`. -/
def metadataSame (a b : TaskMetadata) : Bool :=
  a.sameRequest b = .ok true && a.operation = b.operation && a.deadlineNs = b.deadlineNs

/-- The statuses that the consumer knows. -/
def statusAuthenticationFailed : UInt16 := 1104
def statusSessionExpired : UInt16 := 1105
def statusBusy : UInt16 := 1901

/-! ## 2. What the outside answers -/

/-- `vireo_tcp_server_info_t`, as far as it is looked at; whether a stop was requested is in the table. -/
structure ServerActivity where
  processing : Bool
  driving : Bool
  scheduling : Bool
  serving : Bool
  shutdown : Bool
  closing : Bool
deriving DecidableEq

/-- One of the rounds of the server is going on. -/
def ServerActivity.any (a : ServerActivity) : Bool :=
  a.processing || a.driving || a.scheduling || a.serving || a.shutdown || a.closing

/-- What is said of the TLS of a client: the borrow, and the three inspections of what was borrowed. -/
structure Transport where
  borrow : Result
  handshake : Except Failure Tls.HandshakeState
  io : Except Failure Tls.IoState
  close : Except Failure Tls.CloseState

/-- The client is open for a response. -/
def Transport.Open (t : Transport) : Prop :=
  t.handshake = .ok .established ∧ t.io = .ok .opened ∧ t.close = .ok .none

/-- What a call is answered: by the server, of the client, the random bytes, the enqueue, the refresh, the
    destroy of a cancellation. -/
structure ConsumerAnswers where
  activity : Except Failure ServerActivity
  transport : Transport
  random : Option (UInt8 × UInt8 × UInt8 × UInt8)
  enqueue : Result
  activityAfter : Except Failure ServerActivity
  transportAfter : Transport
  refresh : Result
  release : Result

/-! ## 3. A call -/

/-- What happened; a job is the way of one completion through one receipt. -/
inductive ConsumerEvent where
  | offered (job : Nat) (completion : AuthCompletion)
  | applied (job : Nat) (sessionId : UInt64)
  | reserved (job : Nat) (ticket : SessionTicket)
  | enqueued (job : Nat) (client : Lease) (wire : Bytes) (now : UInt64)
  | committed (job : Nat) (ticket : SessionTicket)
  | finished (job : Nat)
  | abandoned (job : Nat)
deriving DecidableEq

/-- What a call works on. The log, oldest first, is for the statements only. -/
structure Turn where
  base : SessionSystem
  store : InflightStore
  owner : Option AuthCompletion
  receipt : Receipt
  report : ConsumerReport
  log : List ConsumerEvent

/-- A call, or a part of one. -/
abbrev Call := Prog Result Turn Unit

namespace Call

/-- Go on with what the state says. -/
def look (f : Turn → Call) : Call := fun t => f t t

/-- Give up with a result that is no success. -/
def check (result : Result) : Call := if result = .ok then pure () else Prog.fail result

/-- The stage of the report. -/
def stage (s : ConsumerStage) : Call := Prog.modify fun t => { t with report := { t.report with stage := s } }

/-- Change the receipt. -/
def onReceipt (f : Receipt → Receipt) : Call := Prog.modify fun t => { t with receipt := f t.receipt }

/-- Only in this case. -/
def only (c : Prop) [Decidable c] (p : Call) : Call := if c then p else pure ()

/-- Only in this state of the receipt. -/
def whenState (s : ReceiptState) (p : Call) : Call := look fun t => only (t.receipt.state = s) p

end Call

open Call
open Prog (modify)

/-- `ready`. -/
def ready (clients : ClientTable Nat) (client : Lease) (beforeEnqueue : Bool)
    (activity : Except Failure ServerActivity) (transport : Transport) : Result :=
  match activity with
  | .error e => e.val
  | .ok root =>
    if root.any then .busy
    else if beforeEnqueue ∧ clients.stopRequested then .cancelled
    else
      match clients.findClient client, clients.clientInspect client with
      | .error e, _ => e.val
      | _, .error e => e.val
      | .ok connection, .ok _ =>
        if (clients.connections connection).loopAttached = false then .notFound
        else if transport.borrow ≠ .ok then transport.borrow
        else if beforeEnqueue = false then .ok
        else
          match transport.handshake with
          | .error e => e.val
          | .ok handshake =>
            match transport.io with
            | .error e => e.val
            | .ok io =>
              match transport.close with
              | .error e => e.val
              | .ok close =>
                if handshake = .established ∧ io = .opened ∧ close = .none then .ok else .busy

variable (o : AuthOutcome)

/-- `effects`. -/
def effects (job : Nat) : Call :=
  look fun t =>
    let r := t.receipt
    if r.effectApplied then
      check (if metadataSame r.effectMetadata.request o.metadata.request ∧
          r.effectMetadata.result = o.metadata.result ∧
          r.effectMetadata.suggestedStatus = o.metadata.suggestedStatus ∧ r.effectTarget = o.logoutTarget
        then .ok else .invalidArgument)
    else if o.revokes = false then pure ()
    else do
      let id := o.logoutTarget.sessionId
      modify fun t => { t with base := t.base.exec (.applyLogout id) }
      check (t.base.sessions.applyLogout id).1
      modify fun t => { t with
        receipt := { t.receipt with
          effectApplied := true, effectMetadata := o.metadata, effectTarget := o.logoutTarget }
        log := t.log ++ [.applied job id] }

/-- The ticket of the receipt is given back. -/
def abortTicket : Call :=
  look fun t => do
    modify fun t => { t with base := t.base.exec (.abort t.receipt.ticket) }
    check (t.base.sessions.abort t.receipt.ticket).1
    onReceipt fun r => { r with ticketPending := false, ticket := .zero }

/-- The checks of a resume in front of its first enqueue. -/
def checkResume (now : UInt64) : Call :=
  look fun t =>
    if o.resumed = true ∧ t.receipt.wireStatus = 0 then
      let rc := t.base.sessions.checkResume o.metadata.request.requestInstanceId
      if rc ≠ .ok ∧ rc ≠ .busy then Prog.fail rc
      else
        onReceipt fun r => { r with
          wireStatus :=
            if now < o.issuedAtMs ∨ now ≥ o.expiresAtMs then statusAuthenticationFailed
            else if rc = .busy then statusBusy else r.wireStatus }
    else pure ()

/-- A resume that is refused gives its ticket back. -/
def dropResume : Call :=
  look fun t => only (o.resumed = true ∧ t.receipt.wireStatus ≠ 0 ∧ t.receipt.ticketPending = true) abortTicket

/-- A login that has expired gives its ticket back and is refused. -/
def expireLogin (now : UInt64) : Call :=
  look fun t =>
    only (o.grants = true ∧ o.resumed = false ∧ now ≥ o.expiresAtMs) do
      only (t.receipt.ticketPending = true) abortTicket
      onReceipt fun r => { r with wireStatus := statusSessionExpired }

/-- A handle is reserved for a session that is about to be answered. -/
def reserveTicket (client : Lease) (random : Option (UInt8 × UInt8 × UInt8 × UInt8)) (job : Nat) : Call :=
  look fun t =>
    only (o.grants = true ∧ t.receipt.wireStatus = 0 ∧ t.receipt.ticketPending = false) do
      stage .reserve
      let identity : SessionIdentity := ⟨o.userId, o.sessionId, o.issuedAtMs, o.expiresAtMs, false⟩
      modify fun t => { t with base := t.base.exec (.reserve client identity random) }
      match (t.base.sessions.reserve t.base.clients.clientInspect client identity random).1 with
      | .error e => Prog.fail e
      | .ok ticket =>
        modify fun t => { t with
          receipt := { t.receipt with ticket := ticket, ticketPending := true }
          log := t.log ++ [.reserved job ticket] }

/-- The response that is sent. -/
def responseOf (r : Receipt) : AuthResponse where
  command := o.command
  status := r.wireStatus
  sequence := o.metadata.request.route.requestSequence
  sessionHandle := if r.wireStatus = 0 ∧ o.grants = true then r.ticket.handle else 0
  userId := if r.wireStatus = 0 then o.userId else 0
  rootNodeId := if r.wireStatus = 0 then o.rootNodeId else 0
  issuedAtMs := if r.wireStatus = 0 ∧ o.grants = true then o.issuedAtMs else 0
  expiresAtMs := if r.wireStatus = 0 ∧ o.grants = true then o.expiresAtMs else 0
  token := if r.wireStatus = 0 ∧ o.grants = true ∧ o.resumed = false then o.token else .fill 32 0

/-- The response is encoded and enqueued. -/
def putFrame (client : Lease) (now : UInt64) (enqueue : Result) (job : Nat) : Call :=
  look fun t => do
    stage .encode
    match authResponseEncode (responseOf o t.receipt) 104 with
    | .error e => Prog.fail e
    | .ok wire => do
      modify fun t => { t with
        report := { t.report with
          frameBytes := wire.length, frameEncoded := true, enqueueCalled := true, stage := .enqueue } }
      check enqueue
      modify fun t => { t with
        report := { t.report with enqueued := true }
        receipt := { t.receipt with
          state := if t.receipt.ticketPending = true then .needsBind else .needsRefresh }
        log := t.log ++ [.enqueued job client wire now] }

/-- `send_result` in front of the enqueue. -/
def enqueuePart (client : Lease) (now : UInt64) (a : ConsumerAnswers) (job : Nat) : Call := do
  stage .transport
  look fun t => check (ready t.base.clients client true a.activity a.transport)
  checkResume o now
  dropResume o
  expireLogin o now
  reserveTicket o client a.random job
  putFrame o client now a.enqueue job

/-- `send_result` behind it: the session is bound. -/
def bindPart (job : Nat) : Call := do
  stage .bind
  look fun t => do
    modify fun t => { t with base := t.base.exec (.commit t.receipt.ticket) }
    check (t.base.sessions.commit t.receipt.ticket).1
    modify fun t => { t with
      report := { t.report with bound := true }
      receipt := { t.receipt with ticketPending := false, state := .needsRefresh }
      log := t.log ++ [.committed job t.receipt.ticket] }

/-- And the flow is refreshed. -/
def refreshPart (client : Lease) (a : ConsumerAnswers) : Call := do
  stage .transport
  look fun t => check (ready t.base.clients client false a.activityAfter a.transportAfter)
  modify fun t => { t with report := { t.report with refreshCalled := true, stage := .refresh } }
  check a.refresh
  onReceipt fun r => { r with state := .ready }

/-- `send_result`. -/
def sendResult (now : UInt64) (a : ConsumerAnswers) (job : Nat) : Call :=
  look fun t => do
    let client := Net.client t.receipt.metadata.request
    whenState .needsEnqueue (enqueuePart o client now a job)
    whenState .needsBind (bindPart job)
    whenState .needsRefresh (refreshPart client a)
    stage .none

/-- `deliver`. -/
def deliver (found : CompletionMatch) (now : UInt64) (a : ConsumerAnswers) (job : Nat) : Call := do
  onReceipt fun r => { r with
    found := found
    metadata := o.metadata
    command := o.command
    wireStatus := o.metadata.suggestedStatus
    state := .needsEnqueue }
  sendResult o now a job

/-- A receipt that nothing was delivered with. -/
def Receipt.untouched (r : Receipt) : Bool :=
  r.command = 0 && !r.ticketPending && r.ticket.serial = 0 && r.metadata.request.requestInstanceId = 0

/-- What the server answers here. -/
def Turn.view (t : Turn) : ServerView := ⟨t.base.clients.clientInspect, .ok t.base.clients.stopRequested⟩

/-- The end of a consume: its report, the table and the owner after it. -/
def consumed (outcome : ConsumeOutcome) : Call :=
  modify fun t => { t with
    report := { t.report with consumption := outcome.report }
    store := outcome.store
    owner := if outcome.owner = none then none else t.owner }

/-- `vireo_auth_response_consumer_with` with an empty receipt; the callback's result is that of the consume.
    -/
def stepEmpty (completion : AuthCompletion) (o : AuthOutcome) (now : UInt64) (a : ConsumerAnswers)
    (job : Nat) : Call :=
  look fun t =>
    if t.receipt.untouched = false then Prog.fail .invalidArgument
    else do
      modify fun t => { t with report := { t.report with consumeCalled := true, stage := .find } }
      let attempt := fun delivered =>
        t.store.consumeCompletion t.view (some completion.metadata) a.release delivered
      match (attempt .ok).report.deliveryCalled, (attempt .ok).report.found with
      | true, some found =>
        fun t =>
          match deliver o found now a job t with
          | (.ok _, t) => (consumed (attempt .ok)) t
          | (.error e, t) => (consumed (attempt e) >>= fun _ => Prog.fail e) t
      | _, _ => do
        consumed (attempt .ok)
        check (attempt .ok).result
        stage .none
        only ((attempt .ok).report.disposition = .clientGone)
          (modify fun t => { t with base := t.base.exec (.forget (Net.client o.metadata.request)) })
        only ((attempt .ok).owner = none) (onReceipt fun _ => .zero)

/-- What a receipt must agree with when it is taken up again. -/
def Receipt.matches (r : Receipt) (o : AuthOutcome) : Bool :=
  metadataSame r.metadata.request o.metadata.request && metadataSame r.found.metadata o.metadata.request &&
    r.command = o.command && r.metadata.result = o.metadata.result &&
    r.metadata.suggestedStatus = o.metadata.suggestedStatus &&
    (r.wireStatus = o.metadata.suggestedStatus ||
      o.command = commandLogin && r.wireStatus = statusSessionExpired ||
      o.resumed && (r.wireStatus = statusBusy || r.wireStatus = statusAuthenticationFailed))

/-- `vireo_auth_response_consumer_with` with a receipt that is not. -/
def stepAgain (o : AuthOutcome) (now : UInt64) (a : ConsumerAnswers) (job : Nat) : Call :=
  look fun t =>
    if t.receipt.matches o = false then Prog.fail .invalidArgument
    else do
      sendResult o now a job
      modify fun t => { t with owner := none }
      stage .none

/-- `vireo_auth_response_consumer_with`. -/
def step (options : ConsumerOptions) (now : UInt64) (a : ConsumerAnswers) (job : Nat) : Call :=
  look fun t =>
    if options.distinct = false then Prog.fail .invalidArgument
    else if t.receipt.state = .ready then check (if t.owner = none then .ok else .busy)
    else
      match t.owner with
      | none => Prog.fail .notFound
      | some completion => do
        stage .decode
        match authCompletionDecode completion with
        | .error e => Prog.fail e
        | .ok o =>
          if authTaskCommand options.registry o.metadata.request.operation ≠ o.command then Prog.fail .invalidArgument
          else do
            effects o job
            if t.receipt.state = .empty then stepEmpty completion o now a job else stepAgain o now a job

/-- `vireo_auth_response_consumer_acknowledge`. -/
def acknowledge : Call :=
  look fun t =>
    if t.owner ≠ none ∨ t.receipt.state ≠ .ready then Prog.fail .busy else onReceipt fun _ => .zero

/-- The completion of an abandon is the one of its receipt. -/
def Receipt.owns (r : Receipt) (m : CompletionMetadata) : Bool :=
  r.state = .empty || metadataSame m.request r.metadata.request && m.result = r.metadata.result &&
    m.suggestedStatus = r.metadata.suggestedStatus

/-- The effects of a completion that is abandoned. -/
def abandonEffects (job : Nat) : Call :=
  look fun t =>
    match t.owner with
    | none => pure ()
    | some completion =>
      if t.receipt.owns completion.metadata = false then Prog.fail .invalidArgument
      else
        match authCompletionDecode completion with
        | .error e => Prog.fail e
        | .ok o => if t.receipt.owns o.metadata = false then Prog.fail .invalidArgument else effects o job

/-- The ticket of a receipt that is abandoned; one that is not found is none. -/
def abandonTicket : Call :=
  look fun t =>
    only (t.receipt.ticketPending = true) do
      modify fun t => { t with base := t.base.exec (.abort t.receipt.ticket) }
      check (if (t.base.sessions.abort t.receipt.ticket).1 = .notFound then .ok
        else (t.base.sessions.abort t.receipt.ticket).1)
      onReceipt fun r => { r with ticketPending := false }

/-- `vireo_auth_response_consumer_abandon`. -/
def abandon (job : Nat) : Call :=
  look fun t =>
    if t.receipt.state = .empty ∧ t.owner = none then Prog.fail .notFound
    else do
      abandonEffects job
      abandonTicket
      modify fun t => { t with owner := none, receipt := .zero }

/-! ## 4. Runs -/

/-- One who takes completions, with the receipt of the one he has. -/
structure Consumer where
  owner : Option AuthCompletion
  receipt : Receipt
  job : Nat

/-- A server with its sessions, requests and consumers; `closed` are the clients that are closed or gone. -/
structure ConsumerSystem where
  base : SessionSystem
  store : InflightStore
  consumers : Nat → Consumer
  closed : List Lease
  jobs : Nat
  log : List ConsumerEvent

/-- What can happen next. -/
inductive ConsumerStep where
  | server (e : SessionStep)
  | requests (store : InflightStore)
  | close (client : Lease)
  | offer (k : Nat) (completion : AuthCompletion)
  | step (k : Nat) (options : ConsumerOptions) (now : UInt64) (answers : ConsumerAnswers)
  | acknowledge (k : Nat)
  | abandon (k : Nat)

namespace ConsumerSystem

variable (s : ConsumerSystem)

/-- What a call of a consumer works on. -/
def turn (k : Nat) : Turn :=
  ⟨s.base, s.store, (s.consumers k).owner, (s.consumers k).receipt, .zero, s.log⟩

/-- The system after a call. -/
def after (k : Nat) (t : Turn) (ending : List ConsumerEvent) : ConsumerSystem :=
  { s with
    base := t.base
    store := t.store
    consumers := Function.update s.consumers k ⟨t.owner, t.receipt, (s.consumers k).job⟩
    log := t.log ++ ending }

/-- One event. A completion is taken by a consumer that has none and has a receipt of zeros. -/
def exec : ConsumerStep → ConsumerSystem
  | .server e => { s with base := s.base.exec e }
  | .requests store => { s with store := store }
  | .close client => { s with closed := client :: s.closed }
  | .offer k completion =>
    if (s.consumers k).owner = none ∧ (s.consumers k).receipt = .zero then
      { s with
        consumers := Function.update s.consumers k ⟨some completion, .zero, s.jobs⟩
        jobs := s.jobs + 1
        log := s.log ++ [.offered s.jobs completion] }
    else s
  | .step k options now a =>
    let job := (s.consumers k).job
    let done := Net.step options now a job (s.turn k)
    s.after k done.2 (if done.1.isOk ∧ (s.consumers k).owner ≠ none then [.finished job] else [])
  | .acknowledge k => s.after k (Net.acknowledge (s.turn k)).2 []
  | .abandon k =>
    let job := (s.consumers k).job
    let done := Net.abandon job (s.turn k)
    s.after k done.2 (if done.1.isOk then [.abandoned job] else [])

/-- What the surroundings may do: sessions are forgotten for clients that are closed or gone, no more. -/
def Allowed : ConsumerStep → Prop
  | .server (.forget client) => client ∈ s.closed ∨ ∀ state, s.base.clients.clientInspect client ≠ .ok state
  | .server (.reserve ..) => False
  | .server (.commit _) => False
  | .server (.abort _) => False
  | .server (.revoke _) => False
  | .server (.applyLogout _) => False
  | .step k _ _ a =>
    ∀ completion, (s.consumers k).owner = some completion →
      Net.client completion.metadata.request ∈ s.closed → ¬ a.transport.Open
  | _ => True

end ConsumerSystem

/-- The states that are reached before a session was reserved and a completion taken, and from these. -/
inductive ConsumerRun : ConsumerSystem → Prop
  | start {base : SessionSystem} (run : SessionRun base) (fresh : base.log = []) (store : InflightStore) :
      ConsumerRun ⟨base, store, fun _ => ⟨none, .zero, 0⟩, [], 0, []⟩
  | step {s : ConsumerSystem} (run : ConsumerRun s) (e : ConsumerStep) (allowed : s.Allowed e) :
      ConsumerRun (s.exec e)

end Vireo.Net
