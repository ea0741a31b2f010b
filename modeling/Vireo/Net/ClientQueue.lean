/-
  File:      Vireo/Net/ClientQueue.lean
  Subject:   THE SCHEDULE OF THE SERVER (`src/net/tcp_server.c`): the queue of the clients that wait for
             their turn, and the rounds that serve them.

  The server has no TLS context. `SIZE_MAX` in a link is none, and the parent of a slot is its server. The
  flags of the calls in progress are left out: a call that finds another one in progress is BUSY and does
  nothing. What the kernel, the driver and the close policy come to is passed in.
-/
import Vireo.Net.Clients
import Vireo.Net.EventLoop

namespace Vireo.Net

open Base Lib Function

/-! ## 1. The queue -/

/-- The marks of a `client_slot_t`. -/
structure QueueMark where
  queued : Bool
  prev : Option UInt64
  next : Option UInt64
  pendingEvents : UInt32
  lastEvents : UInt32
deriving DecidableEq

def QueueMark.empty : QueueMark := ⟨false, none, none, 0, 0⟩

/-- `struct vireo_tcp_server`, as far as its clients and their turns go; `created` numbers the connections
    that were ever created. -/
structure TcpServer where
  table : ClientTable Nat
  created : Nat
  marks : UInt64 → QueueMark
  queueHead : Option UInt64
  queueTail : Option UInt64
  queueCount : Nat
  queueFault : Bool
  autoReleaseReady : Bool
  autoClosePolicy : Bool
  shutdownNextSlot : UInt64
  closeNextSlot : UInt64

/-- `VIREO_TCP_SERVER_MAX_CONNECTIONS`. -/
def maxConnections : Nat := 65535

namespace TcpServer

/-- As `create_with_dependencies` publishes it over its pool. -/
def opened (pool : ConnectionPool Nat) : TcpServer where
  table := .opened pool
  created := 0
  marks _ := .empty
  queueHead := none
  queueTail := none
  queueCount := 0
  queueFault := false
  autoReleaseReady := false
  autoClosePolicy := false
  shutdownNextSlot := 0
  closeNextSlot := 0

variable (s : TcpServer) (index : UInt64)

def setMark (mark : QueueMark) : TcpServer :=
  { s with marks := update s.marks index mark }

/-- The `next` in front of a place: that of the slot there, or the head. -/
def setNext (place next : Option UInt64) : TcpServer :=
  match place with
  | none => { s with queueHead := next }
  | some index => s.setMark index { s.marks index with next := next }

/-- The `prev` behind a place: that of the slot there, or the tail. -/
def setPrev (place prev : Option UInt64) : TcpServer :=
  match place with
  | none => { s with queueTail := prev }
  | some index => s.setMark index { s.marks index with prev := prev }

/-- `queue_valid`. -/
def queueValid : Bool :=
  if s.queueCount > s.table.clientCount ∨ s.queueCount > s.table.connectionCapacity.toNat then false
  else if s.queueCount = 0 then s.queueHead.isNone && s.queueTail.isNone
  else
    match s.queueHead, s.queueTail with
    | some head, some tail =>
      if head ≥ s.table.connectionCapacity ∨ tail ≥ s.table.connectionCapacity then false
      else if (s.queueCount == 1) != (head == tail) then false
      else
        (s.table.clients head).live && (s.marks head).queued && (s.marks head).prev.isNone &&
          (s.table.clients tail).live && (s.marks tail).queued && (s.marks tail).next.isNone
    | _, _ => false

/-- `queue_position`. -/
def queuePosition : Bool :=
  if s.queueValid = false ∨ index ≥ s.table.connectionCapacity then false
  else if (s.table.clients index).live = false ∨ (s.marks index).queued = false then false
  else
    (match (s.marks index).prev with
      | none => s.queueHead == some index
      | some prev => decide (prev < s.table.connectionCapacity) && (s.marks prev).queued &&
          (s.marks prev).next == some index) &&
    (match (s.marks index).next with
      | none => s.queueTail == some index
      | some next => decide (next < s.table.connectionCapacity) && (s.marks next).queued &&
          (s.marks next).prev == some index)

/-- The slot at this index behind the tail. -/
def enlist : TcpServer :=
  let tail := s.queueTail
  let s := (s.setPrev (some index) tail).setNext (some index) none
  let s := (s.setNext tail (some index)).setPrev none (some index)
  let s := s.setMark index { s.marks index with queued := true }
  { s with queueCount := s.queueCount + 1 }

/-- The slot at this index out of its place. -/
def delist : TcpServer :=
  let prev := (s.marks index).prev
  let next := (s.marks index).next
  let s := (s.setNext prev next).setPrev next prev
  let s := s.setMark index
    { s.marks index with queued := false, prev := none, next := none, pendingEvents := 0 }
  { s with queueCount := s.queueCount - 1 }

/-- `queue_append`. -/
def queueAppend : Result × TcpServer :=
  if s.queueValid = false ∨ index ≥ s.table.connectionCapacity then (.internal, s)
  else if (s.table.clients index).live = false then (.internal, s)
  else if (s.marks index).queued then (if s.queuePosition index then .ok else .internal, s)
  else if s.queueCount ≥ s.table.clientCount then (.internal, s)
  else (.ok, s.enlist index)

/-- `queue_remove`. -/
def queueRemove : Result × TcpServer :=
  if s.queueValid = false ∨ index ≥ s.table.connectionCapacity then (.internal, s)
  else if (s.marks index).queued = false then (.ok, s)
  else if s.queuePosition index = false then (.internal, s)
  else (.ok, s.delist index)

/-! ## 2. Clients -/

/-- `client_observed` for the slot at this index; the bits that it knows are those of the loop. -/
def clientObserved (events : UInt32) : TcpServer :=
  let s := s.setMark index { s.marks index with lastEvents := events }
  if events &&& ~~~knownEvents ≠ 0 then { s with queueFault := true }
  else
    match s.queueAppend (s.table.clients index).lease.slotIndex with
    | (.ok, s) =>
      s.setMark index { s.marks index with pendingEvents := (s.marks index).pendingEvents ||| events }
    | (_, s) => { s with queueFault := true }

/-- The loop calls back the clients that are attached to it. -/
def notify (events : UInt32) : TcpServer :=
  if (s.table.clients index).bound then s.clientObserved index events else s

/-- `vireo_tcp_server_schedule_client`. -/
def scheduleClient (client : Lease) : Result × TcpServer :=
  match s.table.findClient client with
  | .error e => (e.val, s)
  | .ok _ => s.queueAppend client.slotIndex

/-- The end of `release_client`, behind the detach; true is a lease that was consumed. -/
def giveUp (connection : Nat) (client : Lease) (closeFails : Bool) :
    Result × Bool × TcpServer :=
  let bytes := (s.table.clients client.slotIndex).bufferBytes
  let released := s.table.pool.release client (destroyConnection (s.table.connections connection) closeFails)
  let s := { s with table := { s.table with pool := released.2.2 } }
  if released.1 = .ok ∨ released.1 = .io then
    if leaseEmpty released.2.1 = false then (.internal, false, s)
    else
      let removed := s.queueRemove client.slotIndex
      let s := removed.2
      (if removed.1 ≠ .ok then removed.1 else released.1, true, { s with
        table := { s.table with
          clients := update s.table.clients client.slotIndex .empty
          clientCount := s.table.clientCount - 1
          bufferBytes := s.table.bufferBytes - bytes }
        marks := update s.marks client.slotIndex .empty })
  else (released.1, false, s)

/-- `release_client`; `detached` is what the loop says to the detach. -/
def releaseClient (client : Lease) (detached : Result) (closeFails : Bool) :
    Result × Bool × TcpServer :=
  match s.table.findClient client with
  | .error e => (e.val, false, s)
  | .ok connection =>
    if (s.table.connections connection).callbackActive then (.busy, false, s)
    else if (s.table.clients client.slotIndex).bound then
      if detached ≠ .ok then (detached, false, s)
      else { s with table := s.table.detach connection client }.giveUp connection client closeFails
    else s.giveUp connection client closeFails

/-- The connection of a client goes on to this close state. -/
def proceed (client : Lease) (closeState : CloseState) : TcpServer :=
  match s.table.findClient client with
  | .error _ => s
  | .ok connection =>
    { s with table := s.table.proceed connection closeState (s.table.connections connection).callbackActive }

end TcpServer

/-! ## 3. Admission -/

/-- `vireo_tcp_server_admit_stop_t`. -/
inductive AdmitStop where
  | batchLimit
  | connectionLimit
  | bufferLimit
  | callLimit
  | wouldBlock
  | error
deriving DecidableEq

/-- `vireo_tcp_server_admit_info_t`. -/
structure AdmitInfo where
  acceptedCount : Nat
  admittedCount : Nat
  rejectedCount : Nat
  acceptCalls : Nat
  transientErrors : Nat
  stopReason : AdmitStop

/-- `vireo_acceptor_accept_stop_t`. -/
inductive AcceptStop where
  | batchFull
  | callBudget
  | wouldBlock
  | ioError
deriving DecidableEq

/-- What one pass of `admit_clients` meets: the accept, `fd` whether it gave a descriptor, the creation, the
    adoption and the attach. -/
structure AdmitPass where
  result : Result
  acceptedCount : Nat
  acceptCalls : Nat
  transientErrors : Nat
  stopReason : AcceptStop
  fd : Bool
  created : Result
  adopted : Result
  attach : Result
  closeFails : Bool

/-- What a call of `admit_clients` is made with; `inspected` is what the inspection of the server comes
    to. -/
structure AdmitCall where
  options : ConnectionOptions
  maxAccepts : Nat
  maxAcceptSyscalls : Nat
  capacity : Nat
  listening : Bool
  inspected : Result
  passes : Nat → AdmitPass

structure AdmitOutcome where
  result : Result
  info : AdmitInfo
  clients : List Lease
  server : TcpServer

namespace ClientTable

/-- The slot that `admitClients` writes, when it gets that far. -/
def slotWritten (t : ClientTable Nat) (connection readCapacity writeCapacity : Nat) : Option UInt64 :=
  match checkedSizeAdd readCapacity writeCapacity with
  | .error _ => none
  | .ok pairBytes =>
    if readCapacity = 0 ∨ writeCapacity = 0 ∨ pairBytes > t.maxBufferBytes then none
    else if t.clientCount = t.connectionCapacity.toNat then none
    else if pairBytes > t.maxBufferBytes - t.bufferBytes then none
    else
      match t.pool.adopt connection (.ok ⟨readCapacity, writeCapacity, pairBytes, false, false, .open⟩)
          (.ok ()) with
      | (.error _, _) => none
      | (.ok lease, pool) =>
        if lease.slotIndex ≥ t.connectionCapacity ∨ leaseEmpty lease then none
        else
          match pool.lookup lease with
          | .error _ => none
          | .ok _ => if (t.clients lease.slotIndex).live then none else some lease.slotIndex

end ClientTable

namespace TcpServer

/-- A connection just created is adopted, attached and published; the marks of its slot are cleared. An adoption
    may fail (`adopted`) where the pool would have taken the connection, which is then destroyed. -/
def publish (s : TcpServer) (readCapacity writeCapacity : Nat) (adopted attach : Result) (closeFails : Bool) :
    Result × Option Lease × TcpServer :=
  if adopted ≠ .ok then (adopted, none, { s with created := s.created + 1 })
  else
    let admitted := s.table.admitClients s.created readCapacity writeCapacity attach closeFails
    (admitted.1, admitted.2.1, { s with
      table := admitted.2.2
      created := s.created + 1
      marks := match s.table.slotWritten s.created readCapacity writeCapacity with
        | none => s.marks
        | some index => update s.marks index .empty })

/-- `rejected`. -/
def admitRejected (s : TcpServer) (info : AdmitInfo) (clients : List Lease) (result : Result) : AdmitOutcome :=
  ⟨result, { info with rejectedCount := info.acceptedCount - info.admittedCount, stopReason := .error },
    clients, s⟩

/-- The loop of `admit_clients` with this many accepts left. The limits are asked again by the admission
    itself, which changes nothing. -/
def admitLoop (c : AdmitCall) (pairBytes : Nat) : Nat → Nat → AdmitInfo → List Lease → TcpServer → AdmitOutcome
  | 0, _, info, clients, s => ⟨.ok, { info with stopReason := .batchLimit }, clients, s⟩
  | left + 1, k, info, clients, s =>
    if s.table.clientCount = s.table.connectionCapacity.toNat then
      ⟨.ok, { info with stopReason := .connectionLimit }, clients, s⟩
    else if pairBytes > s.table.maxBufferBytes - s.table.bufferBytes then
      ⟨.ok, { info with stopReason := .bufferLimit }, clients, s⟩
    else if info.acceptCalls = c.maxAcceptSyscalls then
      ⟨.ok, { info with stopReason := .callLimit }, clients, s⟩
    else
      let o := c.passes k
      if o.acceptedCount > 1 ∨ o.acceptCalls > c.maxAcceptSyscalls - info.acceptCalls ∨
          o.transientErrors > o.acceptCalls ∨ o.acceptedCount > o.acceptCalls ∨
          (o.acceptedCount == 1) ≠ o.fd then
        s.admitRejected info clients .internal
      else
        match checkedSizeAdd info.acceptCalls o.acceptCalls with
        | .error _ => s.admitRejected info clients .internal
        | .ok acceptCalls =>
          match checkedSizeAdd info.transientErrors o.transientErrors with
          | .error _ => s.admitRejected { info with acceptCalls := acceptCalls } clients .internal
          | .ok transientErrors =>
            let info := { info with
              acceptCalls := acceptCalls
              transientErrors := transientErrors
              acceptedCount := info.acceptedCount + o.acceptedCount }
            if o.result ≠ .ok then s.admitRejected info clients o.result
            else if o.fd = false then
              if o.stopReason = .wouldBlock then ⟨.ok, { info with stopReason := .wouldBlock }, clients, s⟩
              else if o.stopReason = .callBudget ∧ info.acceptCalls = c.maxAcceptSyscalls then
                ⟨.ok, { info with stopReason := .callLimit }, clients, s⟩
              else s.admitRejected info clients .internal
            else if o.created ≠ .ok then s.admitRejected info clients o.created
            else
              match s.publish c.options.readCapacity c.options.writeCapacity o.adopted o.attach o.closeFails with
              | (result, none, s) => s.admitRejected info clients result
              | (_, some client, s) =>
                admitLoop c pairBytes left (k + 1) { info with admittedCount := info.admittedCount + 1 }
                  (clients ++ [client]) s

/-- `admit_clients`. -/
def admitBatch (s : TcpServer) (c : AdmitCall) : AdmitOutcome :=
  let info : AdmitInfo := ⟨0, 0, 0, 0, 0, .batchLimit⟩
  if c.maxAccepts = 0 ∨ c.maxAcceptSyscalls = 0 then ⟨.invalidArgument, info, [], s⟩
  else if c.capacity = 0 ∨ c.capacity > maxConnections ∨ c.maxAccepts > maxConnections then
    ⟨.range, info, [], s⟩
  else
    match checkedSizeAdd c.options.readCapacity c.options.writeCapacity with
    | .error e => ⟨e, info, [], s⟩
    | .ok pairBytes =>
      if c.options.readCapacity = 0 ∨ c.options.writeCapacity = 0 ∨ c.options.maxBufferBytes = 0 ∨
          c.options.readCapacity > Buffer.maxCapacity.toNat ∨
          c.options.writeCapacity > Buffer.maxCapacity.toNat ∨
          c.options.maxBufferBytes > Net.maxBufferBytes ∨ pairBytes > c.options.maxBufferBytes ∨
          pairBytes > s.table.maxBufferBytes then ⟨.range, info, [], s⟩
      else if c.listening = false then ⟨.notFound, info, [], s⟩
      else if c.inspected ≠ .ok then ⟨c.inspected, info, [], s⟩
      else admitLoop c pairBytes (min c.maxAccepts c.capacity) 0 info [] s

end TcpServer

/-! ## 4. Rounds -/

/-- What the turn of a client meets: what `drive_client` comes to, the close state it leaves, the close
    policy, the release. -/
structure TurnOutcome where
  result : Result
  needsProcessing : Bool
  readyToRelease : Bool
  closeState : CloseState
  closeAttempted : Bool
  closeResult : Result
  readyNext : Bool
  detached : Result
  closeFails : Bool

/-- `vireo_tcp_server_turn_result_t`. -/
structure ClientTurn where
  client : Lease
  events : UInt32
  result : Result
  needsProcessing : Bool
  readyToRelease : Bool
  releaseAttempted : Bool
  releaseResult : Result
  released : Bool
  closeAttempted : Bool
  closeResult : Result
  closeRequeued : Bool
deriving DecidableEq

/-- `vireo_tcp_server_round_stage_t`. -/
inductive TcpRoundStage where
  | none
  | wait
  | drive
  | queue
  | release
  | close
deriving DecidableEq

/-- What a turn comes to; `requeued` is a client that goes back into the queue. -/
structure Served where
  result : Result
  stage : TcpRoundStage
  turn : Option ClientTurn
  requeued : Bool
  server : TcpServer

/-- What a round comes to: the counters of the clients are counted from the turns. -/
structure RoundOutcome where
  result : Result
  stage : TcpRoundStage
  turns : List ClientTurn
  effectiveTimeoutMs : Int
  queuedBeforeWait : Nat
  queuedAfterWait : Nat
  remainingCount : Nat
  server : TcpServer

/-- What `run_round` is called with: `drivable` is `drive_arguments_valid`, `notified` the callbacks of the
    wait, `wait` its result. -/
structure RoundCall where
  timeoutMs : Int
  fromServe : Bool
  maxClients : Nat
  turnCapacity : Nat
  drivable : Bool
  notified : List (UInt64 × UInt32)
  wait : Result
  turns : Nat → TurnOutcome

namespace TcpServer

variable (s : TcpServer)

/-- A client that has more to do goes back into the queue. -/
def requeueTurn (index : UInt64) (turn : ClientTurn) (o : TurnOutcome) : Served :=
  let readyNext := s.autoClosePolicy && o.readyNext
  if turn.needsProcessing || readyNext then
    match s.queueAppend index with
    | (.ok, s) => ⟨.ok, .none, some { turn with closeRequeued := readyNext }, true, s⟩
    | (e, s) => ⟨e, .queue, some turn, false, s⟩
  else ⟨.ok, .none, some turn, false, s⟩

/-- The end of a turn: a client that is ready is released where the server does that by itself. -/
def finishTurn (index : UInt64) (turn : ClientTurn) (o : TurnOutcome) : Served :=
  if s.autoReleaseReady && turn.readyToRelease then
    let left := s.releaseClient turn.client o.detached o.closeFails
    let turn := { turn with releaseAttempted := true, releaseResult := left.1, released := left.2.1 }
    if left.1 ≠ .ok then ⟨left.1, .release, some turn, false, left.2.2⟩
    else if left.2.1 then ⟨.ok, .none, some turn, false, left.2.2⟩
    else left.2.2.requeueTurn index turn o
  else s.requeueTurn index turn o

/-- The turn of a client that was taken out of the queue. -/
def driveTurn (index : UInt64) (client : Lease) (events : UInt32) (o : TurnOutcome) : Served :=
  let s := s.proceed client o.closeState
  let turn : ClientTurn := {
    client := client
    events := events
    result := o.result
    needsProcessing := o.needsProcessing
    readyToRelease := o.readyToRelease
    releaseAttempted := false
    releaseResult := .ok
    released := false
    closeAttempted := s.autoClosePolicy && o.closeAttempted
    closeResult := if s.autoClosePolicy then o.closeResult else .ok
    closeRequeued := false }
  if o.result ≠ .ok then ⟨o.result, .drive, some turn, false, s⟩
  else if turn.closeResult ≠ .ok then ⟨turn.closeResult, .close, some turn, false, s⟩
  else s.finishTurn index turn o

/-- One pass of the loop of `run_round`: the first of the queue has its turn. -/
def serveHead (o : TurnOutcome) : Served :=
  match s.queueHead with
  | none => ⟨.internal, .queue, none, false, s⟩
  | some index =>
    if index ≥ s.table.connectionCapacity then ⟨.internal, .queue, none, false, s⟩
    else
      match s.queueRemove index with
      | (.ok, s') => s'.driveTurn index (s.table.clients index).lease (s.marks index).pendingEvents o
      | (e, s') => ⟨e, .queue, none, false, s'⟩

/-- The loop of `run_round`. -/
def serveTurns (turns : Nat → TurnOutcome) :
    Nat → Nat → TcpServer → Result × TcpRoundStage × List ClientTurn × TcpServer
  | 0, _, s => (.ok, .none, [], s)
  | left + 1, k, s =>
    let served := s.serveHead (turns k)
    if served.result ≠ .ok then (served.result, served.stage, served.turn.toList, served.server)
    else
      let rest := serveTurns turns left (k + 1) served.server
      (rest.1, rest.2.1, served.turn.toList ++ rest.2.2.1, rest.2.2.2)

/-- `run_round`. -/
def runRound (c : RoundCall) : RoundOutcome :=
  let refused (result : Result) (stage : TcpRoundStage) : RoundOutcome := ⟨result, stage, [], 0, 0, 0, 0, s⟩
  if c.timeoutMs < -1 then refused .invalidArgument .none
  else if c.maxClients = 0 ∨ c.maxClients > maxConnections ∨ c.turnCapacity = 0 ∨
      c.turnCapacity > maxConnections ∨ c.drivable = false then refused .range .none
  else if s.queueValid = false then refused .internal .queue
  else if c.fromServe = false ∧ s.table.stopRequested then refused .ok .none
  else
    let before := s.queueCount
    let timeoutMs := if before ≠ 0 then 0 else c.timeoutMs
    let s := c.notified.foldl (fun s n => s.notify n.1 n.2) { s with queueFault := false }
    if c.wait ≠ .ok then ⟨c.wait, .wait, [], timeoutMs, before, 0, 0, s⟩
    else if s.queueFault ∨ s.queueValid = false then
      ⟨.internal, .queue, [], timeoutMs, before, s.queueCount, s.queueCount, s⟩
    else
      let after := s.queueCount
      let served := serveTurns c.turns (min (min after c.maxClients) c.turnCapacity) 0 s
      ⟨served.1, served.2.1, served.2.2.1, timeoutMs, before, after, served.2.2.2.queueCount, served.2.2.2⟩

end TcpServer

/-! ## 5. Batches over the slots -/

/-- What the loop of a batch comes to; `next` is the cursor behind it. -/
structure Sweep (ρ : Type) where
  result : Result
  rows : List ρ
  scanned : Nat
  next : UInt64
  server : TcpServer

/-- `vireo_tcp_server_shutdown_stop_t`, and `vireo_tcp_server_close_batch_stop_t`, which calls the first
    two EMPTY and SCAN_LIMIT. -/
inductive BatchStop where
  | complete
  | slotBudget
  | resultCapacity
  | error
deriving DecidableEq

/-- What a batch comes to: the counters of the rows are counted from them, and the cursor is the
    server's. -/
structure BatchOutcome (ρ : Type) where
  result : Result
  rows : List ρ
  scannedSlots : Nat
  remainingClients : Nat
  stopReason : BatchStop
  server : TcpServer

/-- `vireo_tcp_server_shutdown_result_t`. -/
structure ShutdownRow where
  lease : Lease
  result : Result
  released : Bool

/-- `vireo_tcp_server_close_batch_result_t`. -/
structure CloseRow where
  lease : Lease
  result : Result
  closeAttempted : Bool
  closeResult : Result
  scheduleAttempted : Bool
  scheduleResult : Result
  scheduled : Bool
deriving DecidableEq

/-- What the close of a client meets: what the request comes to, the close state behind it, and what the gate
    says. -/
structure CloseRequest where
  result : Result
  closeState : CloseState
  gate : Result

namespace TcpServer

/-- The loop of a batch with this many slots left to look at and this many rows left to write. -/
def sweep {ρ : Type} (visit : UInt64 → TcpServer → Result × ρ × TcpServer) :
    Nat → Nat → UInt64 → TcpServer → Sweep ρ
  | 0, _, index, s => ⟨.ok, [], 0, index, s⟩
  | slots + 1, room, index, s =>
    if s.table.clientCount = 0 ∨ room = 0 then ⟨.ok, [], 0, index, s⟩
    else
      let next := if index + 1 = s.table.connectionCapacity then 0 else index + 1
      if (s.table.clients index).live = false then
        let rest := sweep visit slots room next s
        { rest with scanned := rest.scanned + 1 }
      else
        let visited := visit index s
        if visited.1 ≠ .ok then ⟨visited.1, [visited.2.1], 1, next, visited.2.2⟩
        else
          let rest := sweep visit slots (room - 1) next visited.2.2
          { rest with rows := visited.2.1 :: rest.rows, scanned := rest.scanned + 1 }

/-- A batch that does nothing. -/
def batchRefused {ρ : Type} (s : TcpServer) (result : Result) : BatchOutcome ρ :=
  ⟨result, [], 0, s.table.clientCount, .error, s⟩

/-- What a batch reports of its loop. -/
def batchDone {ρ : Type} (swept : Sweep ρ) (slotLimit : Nat) (s : TcpServer) : BatchOutcome ρ where
  result := swept.result
  rows := swept.rows
  scannedSlots := swept.scanned
  remainingClients := s.table.clientCount
  stopReason :=
    if swept.result ≠ .ok then .error
    else if s.table.clientCount = 0 then .complete
    else if swept.scanned = slotLimit then .slotBudget
    else .resultCapacity
  server := s

/-- The body of the loop of `vireo_tcp_server_shutdown_batch`; the outcomes are those of the detach and
    of the close of the descriptor. -/
def shutdownSlot (outcomes : UInt64 → Result × Bool) (index : UInt64) (s : TcpServer) :
    Result × ShutdownRow × TcpServer :=
  let lease := (s.table.clients index).lease
  let left := s.releaseClient lease (outcomes index).1 (outcomes index).2
  (left.1, ⟨lease, left.1, left.2.1⟩, left.2.2)

/-- `vireo_tcp_server_shutdown_batch`. -/
def shutdownBatch (s : TcpServer) (maxSlots resultCapacity : Nat) (outcomes : UInt64 → Result × Bool) :
    BatchOutcome ShutdownRow :=
  if maxSlots = 0 ∨ resultCapacity = 0 then s.batchRefused .invalidArgument
  else if maxSlots > maxConnections ∨ resultCapacity > maxConnections then s.batchRefused .range
  else if s.table.stopRequested = false then s.batchRefused .busy
  else if s.shutdownNextSlot ≥ s.table.connectionCapacity ∨ s.queueValid = false then s.batchRefused .internal
  else
    let slotLimit := min maxSlots s.table.connectionCapacity.toNat
    let swept := sweep (shutdownSlot outcomes) slotLimit resultCapacity s.shutdownNextSlot s
    batchDone swept slotLimit { swept.server with shutdownNextSlot := swept.next }

/-- The body of the loop of `vireo_tcp_server_close_batch_with_gate`. -/
def closeSlot (requests : UInt64 → CloseRequest) (index : UInt64) (s : TcpServer) :
    Result × CloseRow × TcpServer :=
  let lease := (s.table.clients index).lease
  match s.table.findClient lease with
  | .error e => (e.val, ⟨lease, e.val, false, e.val, false, .ok, false⟩, s)
  | .ok _ =>
    let request := requests index
    let s := s.proceed lease request.closeState
    if request.result ≠ .ok then
      (request.result, ⟨lease, request.result, true, request.result, false, .ok, false⟩, s)
    else
      let scheduled := if request.gate ≠ .ok then (request.gate, s) else s.queueAppend index
      (scheduled.1, ⟨lease, scheduled.1, true, .ok, true, scheduled.1, scheduled.1 = .ok⟩, scheduled.2)

/-- `vireo_tcp_server_close_batch_with_gate`; `vireo_tcp_server_close_batch` has the gate that is always
    open. -/
def closeBatch (s : TcpServer) (maxSlots resultCapacity : Nat) (requests : UInt64 → CloseRequest) :
    BatchOutcome CloseRow :=
  if maxSlots = 0 ∨ resultCapacity = 0 then s.batchRefused .invalidArgument
  else if maxSlots > maxConnections ∨ resultCapacity > maxConnections then s.batchRefused .range
  else if s.table.stopRequested then s.batchRefused .busy
  else if s.closeNextSlot ≥ s.table.connectionCapacity ∨ s.queueValid = false then s.batchRefused .internal
  else
    let slotLimit := min maxSlots s.table.connectionCapacity.toNat
    let swept := sweep (closeSlot requests) slotLimit resultCapacity s.closeNextSlot s
    batchDone swept slotLimit { swept.server with closeNextSlot := swept.next }

end TcpServer

/-! ## 6. Runs -/

/-- What happens to a server. -/
inductive ServerCall where
  | admission (c : AdmitCall)
  | schedule (client : Lease)
  | notify (index : UInt64) (events : UInt32)
  | round (c : RoundCall)
  | release (client : Lease) (detached : Result) (closeFails : Bool)
  | shutdown (maxSlots resultCapacity : Nat) (outcomes : UInt64 → Result × Bool)
  | close (maxSlots resultCapacity : Nat) (requests : UInt64 → CloseRequest)
  | connection (connection : Nat) (closeState : CloseState) (callbackActive : Bool)
  | autoRelease (enabled : Bool)
  | autoClose (enabled : Bool)
  | stop

namespace TcpServer

def exec (s : TcpServer) : ServerCall → TcpServer
  | .admission c => (s.admitBatch c).server
  | .schedule client => (s.scheduleClient client).2
  | .notify index events => s.notify index events
  | .round c => (s.runRound c).server
  | .release client detached closeFails => (s.releaseClient client detached closeFails).2.2
  | .shutdown maxSlots resultCapacity outcomes => (s.shutdownBatch maxSlots resultCapacity outcomes).server
  | .close maxSlots resultCapacity requests => (s.closeBatch maxSlots resultCapacity requests).server
  | .connection connection closeState callbackActive =>
    { s with table := s.table.proceed connection closeState callbackActive }
  | .autoRelease enabled => { s with autoReleaseReady := enabled }
  | .autoClose enabled => { s with autoClosePolicy := enabled }
  | .stop => { s with table := s.table.requestStop }

end TcpServer

/-- A server just created, then any calls in any order. -/
inductive ServerRun : TcpServer → Prop
  | start {options : ConnectionPoolOptions} {source : UInt64} {storageMemory control index : Bool}
      {pool : ConnectionPool Nat}
      (hpool : ConnectionPool.create options source storageMemory control index = .ok pool) :
      ServerRun (.opened pool)
  | step {s : TcpServer} (run : ServerRun s) (call : ServerCall) : ServerRun (s.exec call)

end Vireo.Net
