/-
  File:      Vireo/Net/Requests.lean
  Subject:   A REQUEST FROM ITS SUBMIT TO ITS COMPLETION: the reactor, its clients, the table of the
             requests in flight, and the way of the completions back.

  More may happen here than in the program: a task may be submitted again, a worker may publish a task
  more than once, and the reactor may do anything between a pop and its consume. What a submit to the
  pool, a retain, a cancel request or the callback comes to is passed in. A consume gives its reference
  back by `vireo_task_cancel_destroy`, which does not fail.
-/
import Vireo.Net.Clients
import Vireo.Net.Drain

namespace Vireo.Net

open Base Thread

/-! ## 1. The log -/

/-- A request that was registered, and the connection that its lease was lent to. -/
structure Accepted where
  metadata : TaskMetadata
  connection : Option Nat
deriving DecidableEq

/-- Why a record was removed: delivered, too late for its client, rolled back, or cleaned up with its client.
    -/
inductive Removal where
  | delivered
  | late
  | rolledBack
  | cleaned
deriving DecidableEq

/-- A record that was removed. -/
structure Removed where
  metadata : TaskMetadata
  why : Removal

/-- A call of the callback: the completion and the match that it was called with, the connection that the
    lease of the match is lent to, and what the table holds under the key of the completion in front of
    the consume and when the callback runs. -/
structure Delivery where
  completion : Option CompletionMetadata
  found : Option CompletionMatch
  connection : Option Nat
  before : Option TaskMetadata
  during : Option TaskMetadata

/-- The records of one table that are not in another. -/
def gone (before after : InflightStore) : List TaskMetadata :=
  ((before.slots.filter (·.occupied)).filter (· ∉ after.slots.filter (·.occupied))).map (·.metadata)

/-! ## 2. The system -/

/-- The reactor and its workers; `tasks` were made by `metadata_make_next`, `transferred` are those that the
    pool took. -/
structure RequestSystem where
  table : ClientTable Nat
  created : Nat
  store : InflightStore
  lastIssued : UInt64
  tasks : List TaskMetadata
  transferred : List TaskMetadata
  path : CompletionPath
  accepted : List Accepted
  removed : List Removed
  deliveries : List Delivery

/-- What can happen next. -/
inductive RequestEvent where
  | admitClients (readCapacity writeCapacity : Nat) (attach : Result) (closeFails : Bool)
  | release (lease : Lease) (detached : Result) (closeFails : Bool)
  | proceed (connection : Nat) (closeState : CloseState) (callbackActive : Bool)
  | stop
  | issue (exchanged : Bool) (lease : Lease) (requestSequence operation : UInt32) (deadlineNs : UInt64)
  | issueElsewhere (lastIssued : UInt64)
  | submit (task : TaskMetadata) (maxClientRequests : Nat) (retain : Result) (pool : PoolAnswer)
      (release : Result)
  | cleanup (lease : Lease) (beginIndex maxSlots : Nat) (request release : Nat → Result)
  | path (e : PathEvent)
  | consume (deliver : Result)
  | reconsume (deliver : Result)

namespace RequestSystem

variable (s : RequestSystem)

/-- What the server answers to the calls on the table. -/
def view : ServerView := ⟨s.table.clientInspect, .ok s.table.stopRequested⟩

/-- The connection that a task is for, while its lease is lent. -/
def connectionOf (metadata : TaskMetadata) : Option Nat :=
  (s.table.findClient (client metadata)).toOption

/-- A connection is accepted. -/
def admitClients (readCapacity writeCapacity : Nat) (attach : Result) (closeFails : Bool) :
    RequestSystem :=
  { s with
    table := (s.table.admitClients s.created readCapacity writeCapacity attach closeFails).2.2
    created := s.created + 1 }

/-- A task is made for a request of a client. -/
def issue (exchanged : Bool) (lease : Lease) (requestSequence operation : UInt32) (deadlineNs : UInt64) :
    RequestSystem :=
  let made := metadataMakeNext s.lastIssued exchanged s.view lease requestSequence operation deadlineNs
  { s with lastIssued := made.2, tasks := s.tasks ++ made.1.toOption.toList }

/-- The counter is one of the process: others draw from it. -/
def issueElsewhere (lastIssued : UInt64) : RequestSystem :=
  if s.lastIssued ≤ lastIssued then { s with lastIssued := lastIssued } else s

/-- A task is submitted. -/
def submit (task : TaskMetadata) (maxClientRequests : Nat) (retain : Result) (pool : PoolAnswer)
    (release : Result) : RequestSystem :=
  if task ∈ s.tasks then
    let o := s.store.trySubmit s.view maxClientRequests (some task) retain pool release
    let rolledBack := o.report.rollbackCalled && !o.report.recordRetained
    { s with
      store := o.store
      transferred := s.transferred ++ if o.owner = none then [task] else []
      accepted := s.accepted ++ if o.report.registrationCommitted then [⟨task, s.connectionOf task⟩] else []
      removed := s.removed ++ if rolledBack then [⟨task, .rolledBack⟩] else [] }
  else s

/-- A batch of the cleanup of a client. -/
def cleanup (lease : Lease) (beginIndex maxSlots : Nat) (request release : Nat → Result) : RequestSystem :=
  let store := (s.store.cancelClientBatch lease beginIndex maxSlots request release).2.2
  { s with store := store, removed := s.removed ++ (gone s.store store).map (⟨·, .cleaned⟩) }

/-- A worker publishes a task that the pool took; the other steps of the path are its own, and a consume
    is a step of the whole. -/
def onPath (e : PathEvent) : RequestSystem :=
  match e with
  | .publish _ task _ _ _ _ _ => if task ∈ s.transferred then { s with path := s.path.exec e } else s
  | .consumed _ => s
  | e => { s with path := s.path.exec e }

/-- The completion in the reactor's hand was consumed; the callback sees the table behind the consume. -/
def settled (o : ConsumeOutcome) (path : CompletionPath) : RequestSystem :=
  let delivery : Delivery :=
    { completion := s.path.remaining
      found := o.report.found
      connection := o.report.found.bind fun found => s.connectionOf found.metadata
      before := s.path.remaining.bind fun c => (s.store.get c.request).toOption
      during := s.path.remaining.bind fun c => (o.store.get c.request).toOption }
  let why : Removal := if o.report.deliveryCalled then .delivered else .late
  { s with
    store := o.store
    path := path
    removed := s.removed ++ (gone s.store o.store).map (⟨·, why⟩)
    deliveries := s.deliveries ++ if o.report.deliveryCalled then [delivery] else [] }

/-- The consume of a drain. -/
def consume (deliver : Result) : RequestSystem :=
  match s.path.round with
  | .consuming .. =>
    let o := s.store.consumeCompletion s.view s.path.remaining .ok deliver
    s.settled o (s.path.consumed o)
  | _ => s

/-- Between two rounds the reactor consumes again what a round left it with. -/
def reconsume (deliver : Result) : RequestSystem :=
  match s.path.round with
  | .idle =>
    let o := s.store.consumeCompletion s.view s.path.remaining .ok deliver
    s.settled o { s.path with remaining := o.owner }
  | _ => s

/-- One call of the reactor or one step of a worker. -/
def exec : RequestEvent → RequestSystem
  | .admitClients readCapacity writeCapacity attach closeFails => s.admitClients readCapacity writeCapacity attach closeFails
  | .release lease detached closeFails =>
    { s with table := (s.table.releaseClient lease detached closeFails).2 }
  | .proceed connection closeState callbackActive =>
    { s with table := s.table.proceed connection closeState callbackActive }
  | .stop => { s with table := s.table.requestStop }
  | .issue exchanged lease requestSequence operation deadlineNs =>
    s.issue exchanged lease requestSequence operation deadlineNs
  | .issueElsewhere lastIssued => s.issueElsewhere lastIssued
  | .submit task maxClientRequests retain pool release => s.submit task maxClientRequests retain pool release
  | .cleanup lease beginIndex maxSlots request release => s.cleanup lease beginIndex maxSlots request release
  | .path e => s.onPath e
  | .consume deliver => s.consume deliver
  | .reconsume deliver => s.reconsume deliver

/-- A server just created. -/
def start (pool : ConnectionPool Nat) (store : InflightStore) (queue : CompletionQueue CompletionMetadata)
    (lastIssued : UInt64) : RequestSystem :=
  ⟨.opened pool, 0, store, lastIssued, [], [], .start queue, [], [], []⟩

end RequestSystem

/-- The states that are reached from a server just created. -/
inductive RequestRun : RequestSystem → Prop
  | start {options : ConnectionPoolOptions} {source : UInt64} {storageMemory control index : Bool}
      {pool : ConnectionPool Nat} {capacity maxMemoryBytes : Nat} {memory : Bool} {store : InflightStore}
      {queueCapacity budget : UInt64} {queueMemory : Bool} {init prepare : Nat}
      {queue : CompletionQueue CompletionMetadata} (lastIssued : UInt64)
      (hpool : ConnectionPool.create options source storageMemory control index = .ok pool)
      (hstore : InflightStore.create capacity maxMemoryBytes memory = .ok store)
      (hqueue : CompletionQueue.create queueCapacity budget queueMemory init = .ok queue) :
      RequestRun (.start pool store (queue.prepareWait prepare).2 lastIssued)
  | step {s : RequestSystem} (h : RequestRun s) (e : RequestEvent) : RequestRun (s.exec e)

end Vireo.Net
