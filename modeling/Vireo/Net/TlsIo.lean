/-
  File:      Vireo/Net/TlsIo.lean
  Subject:   APPLICATION DATA OVER TLS (`src/net/tls_io.c`, `tls_connection_internal.h`).

  The fields `read_x` and `write_x` of the source are the fields `x` of two `Channel`s. What the TLS
  library, the signal query and the allocator answer is passed in, one `NativeReply` for each round of a
  drive. NULL arguments do not exist here, a FIFO that is not there yet is an empty one, and the events
  are for the statements only: no function reads them.
-/
import Vireo.Base.Buffer

namespace Vireo.Net.Tls

open Base

/-! ## 1. The connection -/

/-- `VIREO_TLS_IO_SCRATCH_BYTES`. -/
def scratchBytes : Nat := 16384

/-- `VIREO_TLS_IO_MAX_BUFFER_BYTES`. -/
def maxBufferBytes : Nat := 67108864

/-- `vireo_tls_io_state_t`. -/
inductive IoState where
  | disabled
  | opened
  | failed
  | prepared
deriving DecidableEq

/-- `vireo_tls_io_wait_t`, also `vireo_tls_handshake_wait_t`. -/
inductive Wait where
  | none
  | read
  | write
deriving DecidableEq

/-- `vireo_tls_io_operation_t`. -/
inductive Operation where
  | none
  | read
  | write
  | shutdown
deriving DecidableEq

/-- `vireo_tls_io_stop_t`. -/
inductive IoStop where
  | wouldBlock
  | peerEof
  | bufferFull
  | bufferEmpty
  | byteBudget
  | callBudget
  | retryOther
  | error
  | flowPaused
deriving DecidableEq

/-- `vireo_tls_handshake_state_t`. -/
inductive HandshakeState where
  | initial
  | handshaking
  | established
  | failed
deriving DecidableEq

/-- `vireo_tls_close_state_t`. -/
inductive CloseState where
  | none
  | draining
  | notifying
  | waitPeer
  | complete
  | failed
deriving DecidableEq

/-- `vireo_tls_connection_stage_t`, as far as these calls report it. -/
inductive Stage where
  | none
  | inspect
  | handshake
  | signalPolicy
  | configureIo
  | receive
  | send
  | deadline
  | close
  | closeDeadline
deriving DecidableEq

/-- `vireo_tls_connection_error_t`. -/
structure Diagnostic where
  stage : Stage
  systemErrno : Int
  opensslErrorCode : UInt64
  hasMoreErrors : Bool
deriving DecidableEq

def Diagnostic.zero : Diagnostic := ⟨.none, 0, 0, false⟩

/-- A diagnosis of which only the stage is known. -/
def Diagnostic.at (stage : Stage) : Diagnostic := { Diagnostic.zero with stage }

/-- `vireo_tls_io_options_t`. -/
structure IoOptions where
  readCapacity : Nat
  writeCapacity : Nat
  maxBufferBytes : Nat
  maxReadUnitBytes : Nat
  readLow : Nat
  readHigh : Nat
  writeLow : Nat
  writeHigh : Nat
deriving DecidableEq

/-- `vireo_tls_io_budget_t`. -/
structure IoBudget where
  maxBytes : Nat
  maxNativeCalls : Nat
deriving DecidableEq

/-- `vireo_tls_io_progress_t`. -/
structure IoProgress where
  bytes : Nat
  nativeCalls : Nat
  stopReason : IoStop
  wait : Wait

/-- `vireo_tls_io_flow_t`. -/
structure IoFlow where
  readPressure : Bool
  writePressure : Bool
  applicationReadEnabled : Bool
  wantRead : Bool
  wantWrite : Bool
  resumeRead : Bool
  resumeWrite : Bool
  priorityRetry : Operation
deriving DecidableEq

/-- One of the two scratch areas of `scratchBytes` bytes, by its bytes. -/
abbrev Scratch := Nat → UInt8

/-- One direction of the connection: its FIFO, its unfinished request, and its flow control. -/
structure Channel where
  buffer : Buffer
  scratch : Scratch
  retryBytes : Nat
  wait : Wait
  pressure : Bool
  resume : Bool

/-- `vireo_tls_io_storage_t`. -/
structure IoStorage where
  state : IoState
  options : IoOptions
  bufferBytes : Nat
  read : Channel
  write : Channel
  readEof : Bool
  failureResult : Result
  failureError : Diagnostic

/-- `vireo_tls_close_storage_t`. -/
structure CloseStorage where
  state : CloseState
  deadlineNs : Nat
  lastNowNs : Nat
  localNotifySent : Bool
  shutdownWait : Wait
  failureResult : Result
  failureError : Diagnostic

/-- `struct vireo_tls_connection`. -/
structure Connection where
  io : IoStorage
  close : CloseStorage
  state : HandshakeState
  wait : Wait
  handshakeNativeAttempted : Bool
  deadlineArmed : Bool
  deadlineNs : Nat
  lastNowNs : Nat
  failureResult : Result
  failureError : Diagnostic

/-- What a native data call comes to. -/
inductive NativeOutcome where
  | confirmed (bytes : List UInt8)
  | want (direction : Wait)
  | peerEof
  | fatal
deriving DecidableEq

/-- What passed: bytes of the application, native calls with what they came to, and the values of the state of
    the close. -/
inductive Event where
  | enqueue (bytes : List UInt8)
  | consume (bytes : List UInt8)
  | write (bytes : List UInt8) (outcome : NativeOutcome)
  | read (size : Nat) (outcome : NativeOutcome)
  | shutdown (returned : Int)
  | close (state : CloseState)
deriving DecidableEq

/-- What a call returns, the report it wrote, if it wrote one, its diagnosis, the connection after it,
    and what passed. -/
structure Step (ι : Type) where
  result : Result
  out : Option ι
  error : Diagnostic
  connection : Connection
  events : List Event

/-- `finish` and `done` of a call that changes nothing. -/
def Connection.finish {ι : Type} (c : Connection) (result : Result) (error : Diagnostic) : Step ι :=
  ⟨result, none, error, c, []⟩

/-- The same of a call that writes its report. -/
def Connection.report {ι : Type} (c : Connection) (result : Result) (error : Diagnostic) (out : ι) : Step ι :=
  ⟨result, some out, error, c, []⟩

namespace IoStorage

variable (io : IoStorage)

def channel (writing : Bool) : Channel := if writing then io.write else io.read

def setChannel (writing : Bool) (ch : Channel) : IoStorage :=
  if writing then { io with write := ch } else { io with read := ch }

/-- `vireo_tls_io_clear_scratch`. -/
def clearScratch : IoStorage :=
  { io with
    write := { io.write with scratch := fun _ => 0 }
    read := { io.read with scratch := fun _ => 0 } }

/-- `fail`. -/
def fail (result : Result) (error : Diagnostic) : IoStorage :=
  { io with
    state := .failed
    failureResult := result
    failureError := error
    read := { io.read with resume := false }
    write := { io.write with resume := false } }.clearScratch

/-- The unfinished request of one operation that the other one has to wait for. -/
def blocks (writing : Bool) : Bool :=
  if writing then io.write.retryBytes ≠ 0 else io.read.wait = .write

/-- The state is `DISABLED` or `PREPARED`. -/
def idle : Bool := io.state = .disabled || io.state = .prepared

end IoStorage

/-- `readable`. -/
def readable (b : Buffer) : Nat := b.inspect.readableSize.toNat

/-! ## 2. What the TLS library answers -/

/-- `SSL_get_error`. -/
inductive SslError where
  | none
  | ssl
  | wantRead
  | wantWrite
  | syscall
  | zeroReturn
  | other
deriving DecidableEq

/-- An entry of the error queue. -/
structure LibraryError where
  code : UInt64
  mallocFailure : Bool

/-- The answer of `sigpipe_ignored`. -/
structure SignalQuery where
  returned : Int
  ignored : Bool
  errno : Int
deriving DecidableEq

/-- What one round of a drive is answered: by the signal query, then by the native call, with the bytes that a read
    leaves in the scratch area. -/
structure NativeReply where
  signal : SignalQuery
  returned : Int
  confirmed : Nat
  memory : Nat → UInt8
  errno : Int
  classification : SslError
  errors : List LibraryError

/-- `capture`: whether the queue names a failed allocation, and the diagnosis with its first code. -/
def capture (d : Diagnostic) (errors : List LibraryError) : Bool × Diagnostic :=
  errors.foldl (fun s e =>
    (s.1 || e.mallocFailure,
      if s.2.opensslErrorCode = 0 then { s.2 with opensslErrorCode := e.code }
      else { s.2 with hasMoreErrors := true })) (false, d)

/-- The refusal of a call for the signal policy of the process, if it is refused. -/
def signalPolicy (q : SignalQuery) : Option (Result × Diagnostic) :=
  if q.returned ≠ 0 ∨ q.ignored = false then
    some (if q.returned = -1 then .io else if q.returned ≠ 0 then .internal else .invalidArgument,
      { Diagnostic.at .signalPolicy with systemErrno := if q.returned = -1 then q.errno else 0 })
  else none

/-- What a native data call of `length` bytes came to; `data` is the scratch area after it. -/
def NativeReply.outcome (r : NativeReply) (writing : Bool) (length : Nat) (data : Scratch) : NativeOutcome :=
  if r.returned = 1 ∧ 0 < r.confirmed ∧ r.confirmed ≤ length ∧ (writing = false ∨ r.confirmed = length) then
    .confirmed ((List.range r.confirmed).map data)
  else if r.returned = 0 ∧ r.classification = .wantRead then .want .read
  else if r.returned = 0 ∧ r.classification = .wantWrite then .want .write
  else if r.returned = 0 ∧ r.classification = .zeroReturn ∧ writing = false then .peerEof
  else .fatal

/-- The result that a fatal data call is reported with. -/
def NativeReply.failure (r : NativeReply) (oom : Bool) : Result :=
  if r.returned = 0 ∧ r.classification = .syscall then .io
  else if r.returned = 0 ∧ r.classification = .ssl then if oom then .noMemory else .protocol
  else if r.returned = 0 ∧ r.classification = .zeroReturn then .protocol
  else .internal

/-! ## 3. The FIFOs -/

/-- What the allocator and the library answer while the I/O is set up. -/
structure SetupOps where
  readObject : Bool
  readStorage : Allocation
  writeObject : Bool
  writeStorage : Allocation
  readScratch : Bool
  writeScratch : Bool
  prepared : Bool
  errors : List LibraryError

/-- A record of zeros. -/
def IoOptions.zero : IoOptions := ⟨0, 0, 0, 0, 0, 0, 0, 0⟩

def Channel.of (buffer : Buffer) : Channel := ⟨buffer, fun _ => 0, 0, .none, false, false⟩

def IoStorage.zero : IoStorage :=
  ⟨.disabled, .zero, 0, .of ⟨[], 0, 0, 0⟩, .of ⟨[], 0, 0, 0⟩, false, .ok, .zero⟩

/-- What `io_setup` asks of the options whose sum is `total`. -/
def IoOptions.Admissible (o : IoOptions) (total : Nat) : Prop :=
  (o.readCapacity ≠ 0 ∧ o.writeCapacity ≠ 0 ∧ o.maxBufferBytes ≠ 0 ∧ o.maxReadUnitBytes ≠ 0 ∧
    o.readLow < o.readHigh ∧ o.writeLow < o.writeHigh) ∧
  total ≤ o.maxBufferBytes ∧ o.maxBufferBytes ≤ Tls.maxBufferBytes ∧ o.maxReadUnitBytes ≤ o.readCapacity ∧
    o.maxReadUnitBytes - 1 ≤ o.readLow ∧ o.readHigh ≤ o.readCapacity ∧ o.writeHigh ≤ o.writeCapacity

instance (o : IoOptions) (total : Nat) : Decidable (o.Admissible total) := by
  unfold IoOptions.Admissible
  infer_instance

/-- The resources of a setup, in the order they are acquired, or what it fails with. -/
def acquire (options : IoOptions) (ops : SetupOps) : Except (Result × Diagnostic) (Buffer × Buffer) :=
  let error := Diagnostic.at .configureIo
  match Buffer.create (UInt64.ofNat options.readCapacity) ops.readObject ops.readStorage with
  | .error e => .error (e, error)
  | .ok readBuffer =>
    match Buffer.create (UInt64.ofNat options.writeCapacity) ops.writeObject ops.writeStorage with
    | .error e => .error (e, error)
    | .ok writeBuffer =>
      if ops.readScratch = false ∨ ops.writeScratch = false then .error (.noMemory, error)
      else if ops.prepared = false then
        let captured := capture error ops.errors
        .error (if captured.1 then .noMemory else .internal, captured.2)
      else .ok (readBuffer, writeBuffer)

variable (c : Connection)

/-- The handshake allows a setup: nothing was attempted yet, or it is complete. -/
def stageAllowed (preparing : Bool) : Bool :=
  if preparing then c.state = .initial && !c.handshakeNativeAttempted else c.state = .established

/-- `io_setup`. -/
def ioSetup (options : IoOptions) (preparing : Bool) (ops : SetupOps) : Step Unit :=
  match (checkedSizeAdd options.readCapacity options.writeCapacity).bind (checkedSizeAdd · (2 * scratchBytes)) with
  | .error e => c.finish e .zero
  | .ok total =>
    if ¬ options.Admissible total then c.finish .range .zero
    else if stageAllowed c preparing = false ∨ c.io.state ≠ .disabled then c.finish .busy .zero
    else
      match acquire options ops with
      | .error e => c.finish e.1 e.2
      | .ok (readBuffer, writeBuffer) =>
        { c with io :=
          { IoStorage.zero with
            state := if preparing then .prepared else .opened
            options := options
            bufferBytes := total
            read := .of readBuffer
            write := .of writeBuffer } }.finish .ok .zero

/-- `vireo_tls_connection_io_configure`. -/
def ioConfigure (options : IoOptions) (ops : SetupOps) : Step Unit := ioSetup c options false ops

/-- `vireo_tls_connection_io_prepare`. -/
def ioPrepare (options : IoOptions) (ops : SetupOps) : Step Unit := ioSetup c options true ops

/-- `vireo_tls_connection_read_peek`: the bytes behind the pointer it hands out. -/
def readPeek : Step (List UInt8) :=
  if c.io.idle then c.finish .busy .zero
  else c.report .ok .zero (c.io.read.buffer.peek.1.getD [])

/-- `vireo_tls_connection_read_consume`. -/
def readConsume (size : UInt64) : Step Unit :=
  if c.io.idle then c.finish .busy .zero
  else
    let consumed := c.io.read.buffer.consume size
    { result := consumed.1
      out := none
      error := .zero
      connection := { c with io := { c.io with read := { c.io.read with buffer := consumed.2 } } }
      events := if consumed.1 = .ok then [.consume (c.io.read.buffer.unread.take size.toNat)] else [] }

/-- The refusal of a call for a close that was requested, if it is refused. -/
def CloseStorage.refusal (close : CloseStorage) : Option (Result × Diagnostic) :=
  if close.state ≠ .none then
    some (if close.state = .failed then close.failureResult else .busy, close.failureError)
  else none

/-- `vireo_buffer_append` behind a `vireo_buffer_compact`, where the tail is too short. -/
def appendCompacting (b : Buffer) (data : Option (Nat → UInt8)) (size : UInt64) : Result × Buffer :=
  (if size > b.inspect.tailSpace then b.compact.2 else b).append data size

/-- `vireo_tls_connection_enqueue`. -/
def enqueue (data : Option (Nat → UInt8)) (size : UInt64) : Step Unit :=
  if size ≠ 0 ∧ data.isNone then c.finish .invalidArgument .zero
  else
    match c.close.refusal with
    | some refused => c.finish refused.1 refused.2
    | none =>
      if c.io.idle then c.finish .busy .zero
      else if c.io.state = .failed then c.finish c.io.failureResult c.io.failureError
      else
        match checkedSizeAdd (readable c.io.write.buffer) size.toNat with
        | .error e => c.finish e .zero
        | .ok total =>
          if total > c.io.options.writeCapacity then c.finish .range .zero
          else
            let appended := appendCompacting c.io.write.buffer data size
            { result := appended.1
              out := none
              error := .zero
              connection := { c with io := { c.io with write := { c.io.write with buffer := appended.2 } } }
              events := if appended.1 = .ok then [.enqueue (bytesAt data size)] else [] }

/-! ## 4. The driver -/

/-- What a drive leaves of the I/O storage, with its report, its diagnosis and the native calls. -/
structure Driven where
  result : Result
  error : Diagnostic
  progress : Option IoProgress
  io : IoStorage
  events : List Event

/-- Why no further native call is made, and what becomes of the mark to go on later; the count of calls
    is not looked at here. -/
def driveStop (budget : IoBudget) (writing closing : Bool) (io : IoStorage) (p : IoProgress) :
    Option (IoStop × Bool) :=
  let ch := io.channel writing
  if writing = false ∧ io.readEof = true then some (.peerEof, false)
  else if ch.retryBytes = 0 ∧
      (if writing then readable ch.buffer = 0 else readable ch.buffer = io.options.readCapacity) then
    some (if writing then .bufferEmpty else .bufferFull, false)
  else if closing = false ∧ writing = false ∧ ch.retryBytes = 0 ∧ (io.read.pressure || io.write.pressure) = true then
    some (.flowPaused, false)
  else if p.bytes = budget.maxBytes then some (.byteBudget, true)
  else none

/-- The length of the next request: that of an unfinished one, or what budget, scratch area and FIFO
    allow. -/
def requestLength (budget : IoBudget) (writing : Bool) (io : IoStorage) (p : IoProgress) : Nat :=
  let ch := io.channel writing
  if ch.retryBytes ≠ 0 then ch.retryBytes
  else
    min (min (budget.maxBytes - p.bytes) scratchBytes)
      (if writing then readable ch.buffer else io.options.readCapacity - readable ch.buffer)

/-- A request is locked: a new write is copied from the front of its FIFO. -/
def Channel.lock (ch : Channel) (writing : Bool) (length : Nat) : Channel :=
  if ch.retryBytes ≠ 0 then ch
  else
    { ch with
      scratch :=
        if writing then fun i => if i < length then (ch.buffer.peek.1.getD []).getD i 0 else ch.scratch i
        else ch.scratch
      retryBytes := length }

/-- A native read fills the front of the scratch area. -/
def Channel.fill (ch : Channel) (writing : Bool) (length : Nat) (memory : Nat → UInt8) : Channel :=
  if writing then ch else { ch with scratch := fun i => if i < length then memory i else ch.scratch i }

/-- Confirmed bytes leave the write FIFO or enter the read FIFO. -/
def commit (ch : Channel) (writing : Bool) (confirmed : Nat) : Result × Buffer :=
  if writing then ch.buffer.consume (UInt64.ofNat confirmed)
  else appendCompacting ch.buffer (some ch.scratch) (UInt64.ofNat confirmed)

/-- How a round of the driver ends. -/
inductive Round where
  | again (bytes : Nat)
  | stop (reason : IoStop) (wait : Wait)
  | fatal (result : Result) (error : Diagnostic)

/-- What follows from a native call; `ch` is its channel after the call. -/
def settle (writing : Bool) (r : NativeReply) (io : IoStorage) (ch : Channel) : NativeOutcome → Round × IoStorage
  | .confirmed bytes =>
    let committed := commit ch writing bytes.length
    let io := io.setChannel writing
      { ch with buffer := committed.2, scratch := fun _ => 0, retryBytes := 0, wait := .none }
    if committed.1 ≠ .ok then
      let error := (capture (.at (if writing then .send else .receive)) r.errors).2
      (.fatal .internal error, io.fail .internal error)
    else (.again bytes.length, io)
  | .want direction => (.stop .wouldBlock direction, io.setChannel writing { ch with wait := direction })
  | .peerEof =>
    (.stop .peerEof .none,
      { io.setChannel writing { ch with scratch := fun _ => 0, retryBytes := 0, wait := .none } with readEof := true })
  | .fatal =>
    let captured := capture (.at (if writing then .send else .receive)) r.errors
    let result := r.failure captured.1
    let error :=
      if r.returned = 0 ∧ r.classification = .syscall then { captured.2 with systemErrno := r.errno }
      else captured.2
    (.fatal result error, (io.setChannel writing ch).fail result error)

/-- One native call of `length` bytes and what follows from it. -/
def driveRound (writing : Bool) (length : Nat) (r : NativeReply) (io : IoStorage) :
    Round × IoStorage × Event :=
  let locked := (io.channel writing).lock writing length
  let ch := { locked.fill writing length r.memory with resume := false }
  let outcome := r.outcome writing length ch.scratch
  let settled := settle writing r io ch outcome
  (settled.1, settled.2,
    if writing then .write ((List.range length).map locked.scratch) outcome else .read length outcome)

/-- A drive that ends without a further native call. -/
def driveHalt (writing : Bool) (io : IoStorage) (p : IoProgress) (stop : IoStop × Bool) : Driven :=
  ⟨.ok, .zero, some { p with stopReason := stop.1 },
    io.setChannel writing { io.channel writing with resume := stop.2 }, []⟩

/-- The loop of `io_drive`, with the number of native calls that are left. -/
def driveLoop (budget : IoBudget) (writing closing : Bool) (ops : Nat → NativeReply) :
    Nat → IoStorage → IoProgress → Driven
  | 0, io, p => driveHalt writing io p ((driveStop budget writing closing io p).getD (.callBudget, true))
  | left + 1, io, p =>
    match driveStop budget writing closing io p with
    | some stop => driveHalt writing io p stop
    | none =>
      let reply := ops p.nativeCalls
      match signalPolicy reply.signal with
      | some refused =>
        ⟨refused.1, refused.2, if p.nativeCalls ≠ 0 then some { p with stopReason := .error } else none, io, []⟩
      | none =>
        let p' := { p with nativeCalls := p.nativeCalls + 1 }
        match driveRound writing (requestLength budget writing io p) reply io with
        | (.again bytes, io, event) =>
          let rest := driveLoop budget writing closing ops left io { p' with bytes := p.bytes + bytes }
          { rest with events := event :: rest.events }
        | (.stop reason wait, io, event) =>
          ⟨.ok, .zero, some { p' with stopReason := reason, wait := wait }, io, [event]⟩
        | (.fatal result error, io, event) =>
          ⟨result, error, some { p' with stopReason := .error }, io, [event]⟩

/-- `io_drive`. -/
def ioDrive (c : Connection) (budget : IoBudget) (writing closing : Bool) (ops : Nat → NativeReply) :
    Step IoProgress :=
  if budget.maxBytes = 0 ∨ budget.maxNativeCalls = 0 then c.finish .range .zero
  else
    match (if closing then none else c.close.refusal) with
    | some refused => c.finish refused.1 refused.2
    | none =>
      let progress : IoProgress := ⟨0, 0, .error, .none⟩
      if c.io.state = .opened ∧ (c.io.channel writing).retryBytes > budget.maxBytes then c.finish .range .zero
      else if c.io.idle then c.finish .busy .zero
      else if c.io.state = .failed then
        c.report c.io.failureResult c.io.failureError progress
      else if c.io.blocks (!writing) then c.report .ok .zero { progress with stopReason := .retryOther }
      else
        let d := driveLoop budget writing closing ops budget.maxNativeCalls c.io progress
        ⟨d.result, d.progress, d.error, { c with io := d.io }, d.events⟩

/-- `vireo_tls_connection_receive`. -/
def receive (c : Connection) (budget : IoBudget) (ops : Nat → NativeReply) : Step IoProgress :=
  ioDrive c budget false false ops

/-- `vireo_tls_connection_send`. -/
def send (c : Connection) (budget : IoBudget) (ops : Nat → NativeReply) : Step IoProgress :=
  ioDrive c budget true false ops

/-! ## 5. Flow control -/

/-- `pressure`. -/
def pressure (current : Bool) (size low high : Nat) : Bool :=
  if size ≥ high then true else if size ≤ low then false else current

/-- The update of both latches. -/
def IoStorage.refresh (io : IoStorage) : IoStorage :=
  { io with
    read := { io.read with
      pressure := pressure io.read.pressure (readable io.read.buffer) io.options.readLow io.options.readHigh }
    write := { io.write with
      pressure := pressure io.write.pressure (readable io.write.buffer) io.options.writeLow io.options.writeHigh } }

/-- The advice of a refresh to an open connection, after the update of its latches; `pending` is what
    `SSL_pending` says. -/
def IoStorage.advice (io : IoStorage) (pending : Int) : IoFlow :=
  let enabled : Bool := !io.readEof && !io.read.pressure && !io.write.pressure && io.write.retryBytes = 0 &&
    io.read.wait ≠ .write
  if io.blocks true || io.blocks false then
    let writing := io.blocks true
    let wait := (io.channel writing).wait
    { readPressure := io.read.pressure
      writePressure := io.write.pressure
      applicationReadEnabled := enabled
      wantRead := wait = .read
      wantWrite := wait = .write
      resumeRead := false
      resumeWrite := false
      priorityRetry := if writing then .write else .read }
  else
    let queued : Bool := readable io.write.buffer ≠ 0
    { readPressure := io.read.pressure
      writePressure := io.write.pressure
      applicationReadEnabled := enabled
      wantRead := enabled
      wantWrite := queued
      resumeRead := enabled && (io.read.resume || pending > 0)
      resumeWrite := queued && io.write.resume
      priorityRetry := .none }

/-- `vireo_tls_connection_flow_refresh`. -/
def flowRefresh (c : Connection) (pending : Int) : Step IoFlow :=
  if c.close.state ≠ .none then c.finish .busy .zero
  else if c.io.idle then c.report .ok .zero ⟨false, false, false, false, false, false, false, .none⟩
  else
    let io := c.io.refresh
    { c with io := io }.report .ok .zero
      (if io.state = IoState.opened then io.advice pending
       else ⟨io.read.pressure, io.write.pressure, false, false, false, false, false, .none⟩)

end Vireo.Net.Tls
