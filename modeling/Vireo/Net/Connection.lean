/-
  File:      Vireo/Net/Connection.lean
  Subject:   ONE CONNECTION (`src/net/connection.c`), the transport without TLS.

  A `size_t` is the natural number it holds. Null pointers do not exist here, but for the bytes of an
  enqueue. The event loop is what it answers to the call that is made of it, its diagnosis a number.
-/
import Vireo.Base.Buffer
import Vireo.Protocol.Codec

namespace Vireo.Net

open Base Protocol

/-! ## 1. The socket -/

/-- `EAGAIN` and `EWOULDBLOCK`. -/
def eagain : Nat := 11
def ewouldblock : Nat := 11

/-- What a system call answers: its value, `errno`, and the bytes it left in the memory it was given. -/
structure Reply where
  value : Int
  errno : Nat
  memory : Nat → UInt8

/-- A stream socket: its answers to the calls to come, one for each, and the bytes that went through it
    so far. -/
structure Socket where
  recvReply : Nat → Reply
  recvCalls : Nat
  delivered : Bytes
  sendReply : Nat → Reply
  sendCalls : Nat
  accepted : Bytes

/-- One `recv`. A value in range is a number of bytes that were taken from the stream. -/
def Socket.recv (s : Socket) (request : Nat) : Reply × Socket :=
  let r := s.recvReply s.recvCalls
  let bytes := if 1 ≤ r.value ∧ r.value ≤ request then bytesAt (some r.memory) (UInt64.ofNat r.value.toNat) else []
  (r, { s with recvCalls := s.recvCalls + 1, delivered := s.delivered ++ bytes })

/-- One `send`. A value in range is a number of bytes that were put into the stream. -/
def Socket.send (s : Socket) (bytes : Bytes) : Reply × Socket :=
  let r := s.sendReply s.sendCalls
  let taken := if 1 ≤ r.value ∧ r.value ≤ bytes.length then bytes.take r.value.toNat else []
  (r, { s with sendCalls := s.sendCalls + 1, accepted := s.accepted ++ taken })

/-! ## 2. The connection -/

/-- `vireo_connection_flow_options_t`. -/
structure FlowOptions where
  maxFrameBytes : Nat
  readLow : Nat
  readHigh : Nat
  writeLow : Nat
  writeHigh : Nat
deriving DecidableEq

/-- `vireo_connection_close_state_t`. -/
inductive CloseState where
  | open
  | draining
  | ready
deriving DecidableEq

/-- `vireo_connection_close_mode_t`. -/
inductive CloseMode where
  | none
  | drain
  | immediate
deriving DecidableEq

/-- `vireo_connection_close_reason_t`. -/
inductive CloseReason where
  | none
  | application
  | peerEof
  | protocol
  | io
  | serverStop
  | resourceLimit
deriving DecidableEq

/-- `struct vireo_connection`. -/
structure Connection where
  ownedFd : Socket
  readBuffer : Buffer
  writeBuffer : Buffer
  readEof : Bool
  loopAttached : Bool
  loopInterests : UInt32
  callbackActive : Bool
  flowEnabled : Bool
  readPressure : Bool
  writePressure : Bool
  flowOptions : FlowOptions
  closeState : CloseState
  closeMode : CloseMode
  closeReason : CloseReason

/-- `vireo_connection_stage_t`, as far as these calls report it. -/
inductive Stage where
  | none
  | createReadBuffer
  | createWriteBuffer
  | receive
  | enqueue
  | send
deriving DecidableEq

/-- What a call returns, the report it wrote, if it wrote one, its diagnosis, and the connection after
    it. -/
structure Outcome (ι : Type) where
  result : Result
  info : Option ι
  stage : Stage
  systemErrno : Nat
  connection : Connection

/-- `finish`. -/
def Connection.finish {ι : Type} (c : Connection) (result : Result) (stage : Stage) : Outcome ι :=
  ⟨result, none, stage, 0, c⟩

/-- `VIREO_CONNECTION_MAX_BUFFER_BYTES`. -/
def maxBufferBytes : Nat := 67108864

/-- `vireo_connection_options_t`. -/
structure ConnectionOptions where
  readCapacity : Nat
  writeCapacity : Nat
  maxBufferBytes : Nat

/-- `vireo_connection_create_with_ops`; `fd` is what the queries of the socket come to. -/
def create (options : ConnectionOptions) (socket : Socket) (fd : Result) (control : Bool)
    (createRead createWrite : UInt64 → Except Result Buffer) : Except (Result × Stage) Connection :=
  match checkedSizeAdd options.readCapacity options.writeCapacity with
  | .error e => .error (e, .none)
  | .ok capacityBytes =>
    if options.readCapacity = 0 ∨ options.writeCapacity = 0 ∨
        options.readCapacity > Buffer.maxCapacity.toNat ∨ options.writeCapacity > Buffer.maxCapacity.toNat ∨
        options.maxBufferBytes = 0 ∨ options.maxBufferBytes > maxBufferBytes ∨
        capacityBytes > options.maxBufferBytes then .error (.range, .none)
    else if fd ≠ .ok then .error (fd, .none)
    else if control = false then .error (.noMemory, .none)
    else
      match createRead (UInt64.ofNat options.readCapacity) with
      | .error e => .error (e, .createReadBuffer)
      | .ok readBuffer =>
        match createWrite (UInt64.ofNat options.writeCapacity) with
        | .error e => .error (e, .createWriteBuffer)
        | .ok writeBuffer =>
          .ok {
            ownedFd := socket
            readBuffer := readBuffer
            writeBuffer := writeBuffer
            readEof := false
            loopAttached := false
            loopInterests := 0
            callbackActive := false
            flowEnabled := false
            readPressure := false
            writePressure := false
            flowOptions := ⟨0, 0, 0, 0, 0⟩
            closeState := .open
            closeMode := .none
            closeReason := .none }

/-! ## 3. Receiving -/

/-- `vireo_connection_receive_budget_t`. -/
structure ReceiveBudget where
  maxBytes : Nat
  maxSyscalls : Nat

/-- `vireo_connection_receive_stop_t`. -/
inductive ReceiveStop where
  | wouldBlock
  | eof
  | bufferFull
  | byteBudget
  | callBudget
  | error
deriving DecidableEq

/-- `vireo_connection_receive_info_t`. -/
structure ReceiveInfo where
  receivedBytes : Nat
  recvCalls : Nat
  stopReason : ReceiveStop
deriving DecidableEq

/-- `receive_finish`. -/
def Connection.receiveFinish (c : Connection) (info : ReceiveInfo) (result : Result) (cause : Nat) :
    Outcome ReceiveInfo :=
  ⟨result, some info, if result = .ok then .none else .receive, cause, c⟩

/-- The size of the scratch area, and the longest request. -/
def scratchSize : Nat := 4096

/-- The loop of `vireo_connection_receive`; `left` calls are left of the budget, so none is when
    `recv_calls` has reached it. -/
def receiveLoop (budget : ReceiveBudget) :
    Nat → ReceiveInfo → Nat → Connection → Outcome ReceiveInfo
  | left, info, tailSpace, c =>
    if info.receivedBytes = budget.maxBytes then
      c.receiveFinish { info with stopReason := .byteBudget } .ok 0
    else if tailSpace = 0 then c.receiveFinish { info with stopReason := .bufferFull } .ok 0
    else
      match left with
      | 0 => c.receiveFinish { info with stopReason := .callBudget } .ok 0
      | left + 1 =>
        let request := min (min (budget.maxBytes - info.receivedBytes) tailSpace) scratchSize
        let info := { info with recvCalls := info.recvCalls + 1 }
        let r := (c.ownedFd.recv request).1
        let c := { c with ownedFd := (c.ownedFd.recv request).2 }
        if r.value < -1 ∨ r.value > request then c.receiveFinish info .internal 0
        else if r.value = -1 then
          if r.errno = eagain ∨ r.errno = ewouldblock then
            c.receiveFinish { info with stopReason := .wouldBlock } .ok 0
          else c.receiveFinish info .io r.errno
        else if r.value = 0 then
          { c with readEof := true }.receiveFinish { info with stopReason := .eof } .ok 0
        else
          let received := r.value.toNat
          match checkedSizeAdd info.receivedBytes received with
          | .error _ => c.receiveFinish info .internal 0
          | .ok receivedBytes =>
            let info := { info with receivedBytes }
            let appended := c.readBuffer.append (some r.memory) (UInt64.ofNat received)
            let c := { c with readBuffer := appended.2 }
            if appended.1 ≠ .ok then c.receiveFinish info .internal 0
            else receiveLoop budget left info (tailSpace - received) c

/-- `vireo_connection_receive`. -/
def Connection.receive (c : Connection) (budget : ReceiveBudget) : Outcome ReceiveInfo :=
  if budget.maxBytes = 0 ∨ budget.maxSyscalls = 0 then c.finish .range .none
  else if c.closeState ≠ .open then c.finish .busy .none
  else
    let info : ReceiveInfo := ⟨0, 0, .error⟩
    let compacted := c.readBuffer.compact
    let c := { c with readBuffer := compacted.2 }
    if compacted.1 ≠ .ok then c.receiveFinish info .internal 0
    else if c.readEof then c.receiveFinish { info with stopReason := .eof } .ok 0
    else receiveLoop budget budget.maxSyscalls info c.readBuffer.inspect.tailSpace.toNat c

/-- `vireo_connection_read_consume`. -/
def Connection.readConsume (c : Connection) (size : Nat) : Result × Connection :=
  let consumed := c.readBuffer.consume (UInt64.ofNat size)
  (consumed.1, { c with readBuffer := consumed.2 })

/-! ## 4. Frames -/

/-- `vireo_connection_frame_direction_t`. -/
inductive FrameDirection where
  | request
  | response
deriving DecidableEq

/-- `vireo_connection_frame_options_t`. -/
structure FrameOptions where
  direction : FrameDirection
  maxFrameBytes : Nat

/-- `vireo_connection_frame_budget_t`. -/
structure FrameBudget where
  maxMessages : Nat
  maxBytes : Nat

/-- `vireo_connection_frame_view_t`; a body is the bytes behind its pointer, none for the null one. -/
structure FrameView where
  header : Header
  body : Bytes
  bodySize : Nat
  wireSize : Nat
deriving DecidableEq

/-- `vireo_connection_frame_stop_t`. -/
inductive FrameStop where
  | needMore
  | eof
  | messageBudget
  | byteBudget
  | outputFull
  | error
deriving DecidableEq

/-- `vireo_connection_frame_info_t`. -/
structure FrameInfo where
  frameCount : Nat
  frameBytes : Nat
  stopReason : FrameStop
deriving DecidableEq

/-- `vireo_connection_frame_issue_t`. -/
inductive FrameIssue where
  | none
  | codec
  | frameTooLarge
  | truncated
deriving DecidableEq

/-- What `vireo_connection_frames_peek` returns and writes: `info` if it wrote it, and the views. -/
structure FramesPeeked where
  result : Result
  info : Option FrameInfo
  views : List FrameView
  issue : FrameIssue
  codecIssue : CodecIssue
deriving DecidableEq

/-- The validation of a header in its direction. -/
def FrameDirection.validate (direction : FrameDirection) (header : Header) :
    Except (Result × CodecIssue) Unit :=
  match direction with
  | .request => requestHeaderValidate header
  | .response => responseHeaderValidate header

/-- What is reported when the codec refuses a frame. -/
def codecRefused (info : FrameInfo) (views : List FrameView) (e : Result × CodecIssue) : FramesPeeked :=
  if e.1 = .protocol then ⟨e.1, some info, views, .codec, e.2⟩
  else ⟨.internal, some info, views, .none, .none⟩

/-- The loop of `vireo_connection_frames_peek` over the unread bytes; `left` messages are left of the
    budget, so none is when `frame_count` has reached it. -/
def framesLoop (options : FrameOptions) (budget : FrameBudget) (viewCapacity : Nat) (readEof : Bool)
    (bytes : Bytes) : Nat → FrameInfo → List FrameView → FramesPeeked
  | left, info, views =>
    match left with
    | 0 => ⟨.ok, some { info with stopReason := .messageBudget }, views, .none, .none⟩
    | left + 1 =>
      let remaining := bytes.length - info.frameBytes
      let byteBudget := budget.maxBytes - info.frameBytes
      let wire := bytes.drop info.frameBytes
      if info.frameCount = viewCapacity then
        ⟨.ok, some { info with stopReason := .outputFull }, views, .none, .none⟩
      else if remaining = 0 then
        ⟨.ok, some { info with stopReason := if readEof then .eof else .needMore }, views, .none, .none⟩
      else if byteBudget < headerSize then
        ⟨.ok, some { info with stopReason := .byteBudget }, views, .none, .none⟩
      else if remaining < headerSize then
        if readEof = false then
          ⟨.ok, some { info with stopReason := .needMore }, views, .none, .none⟩
        else ⟨.protocol, some info, views, .truncated, .none⟩
      else
        match headerDecode wire with
        | .error e => codecRefused info views e
        | .ok header =>
          match options.direction.validate header with
          | .error e => codecRefused info views e
          | .ok _ =>
            let bodySize := header.bodyLen.toNat
            match checkedSizeAdd headerSize bodySize with
            | .error _ => ⟨.internal, some info, views, .none, .none⟩
            | .ok wireSize =>
              if wireSize > options.maxFrameBytes then
                ⟨.protocol, some info, views, .frameTooLarge, .none⟩
              else if wireSize > byteBudget then
                ⟨.ok, some { info with stopReason := .byteBudget }, views, .none, .none⟩
              else if wireSize > remaining then
                if readEof = false then
                  ⟨.ok, some { info with stopReason := .needMore }, views, .none, .none⟩
                else ⟨.protocol, some info, views, .truncated, .none⟩
              else
                let body := (wire.drop headerSize).take bodySize
                let verified := frameCrc32cVerify (wire.take headerSize) body
                if verified.1 ≠ .ok then codecRefused info views verified
                else
                  match checkedSizeAdd info.frameBytes wireSize with
                  | .error _ => ⟨.internal, some info, views, .none, .none⟩
                  | .ok prefixBytes =>
                    framesLoop options budget viewCapacity readEof bytes left
                      { info with frameCount := info.frameCount + 1, frameBytes := prefixBytes }
                      (views ++ [⟨header, body, bodySize, wireSize⟩])

/-- The largest frame of the protocol. -/
def protocolMax : Nat := headerSize + maxBodySize

variable (c : Connection)

/-- `vireo_connection_frames_peek`. -/
def Connection.framesPeek (options : FrameOptions) (budget : FrameBudget) (viewCapacity : Nat) : FramesPeeked :=
  if viewCapacity = 0 ∨ budget.maxMessages = 0 ∨ budget.maxBytes = 0 ∨
      options.maxFrameBytes < headerSize ∨
      options.maxFrameBytes > c.readBuffer.inspect.capacity.toNat ∨
      options.maxFrameBytes > protocolMax ∨ budget.maxBytes < options.maxFrameBytes ∨
      (c.flowEnabled ∧ options.maxFrameBytes > c.flowOptions.maxFrameBytes) then
    ⟨.range, none, [], .none, .none⟩
  else
    framesLoop options budget viewCapacity c.readEof (c.readBuffer.peek.1.getD []) budget.maxMessages
      ⟨0, 0, .error⟩ []

/-! ## 5. Sending -/

/-- `vireo_connection_write_enqueue`. -/
def Connection.writeEnqueue (bytes : Option (Nat → UInt8)) (size : Nat) : Outcome Unit :=
  if size ≠ 0 ∧ bytes.isNone then c.finish .invalidArgument .none
  else
    let info := c.writeBuffer.inspect
    match checkedSizeAdd info.readableSize.toNat size with
    | .error e => c.finish e .none
    | .ok pending =>
      if size > info.capacity.toNat then c.finish .range .none
      else if pending > info.capacity.toNat then c.finish .busy .none
      else if c.closeState ≠ .open then c.finish .busy .none
      else
        let compacted := if size > info.tailSpace.toNat then c.writeBuffer.compact else (.ok, c.writeBuffer)
        let c := { c with writeBuffer := compacted.2 }
        if compacted.1 ≠ .ok then c.finish .internal .enqueue
        else
          let appended := c.writeBuffer.append bytes (UInt64.ofNat size)
          let c := { c with writeBuffer := appended.2 }
          if appended.1 ≠ .ok then c.finish .internal .enqueue else c.finish .ok .none

/-- `vireo_connection_send_budget_t`. -/
structure SendBudget where
  maxBytes : Nat
  maxSyscalls : Nat

/-- `vireo_connection_send_stop_t`. -/
inductive SendStop where
  | empty
  | wouldBlock
  | byteBudget
  | callBudget
  | error
deriving DecidableEq

/-- `vireo_connection_send_info_t`. -/
structure SendInfo where
  sentBytes : Nat
  sendCalls : Nat
  stopReason : SendStop
deriving DecidableEq

/-- `send_finish`. -/
def Connection.sendFinish (info : SendInfo) (result : Result) (cause : Nat) :
    Outcome SendInfo :=
  ⟨result, some info, if result = .ok then .none else .send, cause, c⟩

/-- The loop of `vireo_connection_send`; `left` calls are left of the budget. -/
def sendLoop (budget : SendBudget) : Nat → SendInfo → Connection → Outcome SendInfo
  | left, info, c =>
    let bytes := c.writeBuffer.peek.1.getD []
    let pending := c.writeBuffer.peek.2.toNat
    if pending = 0 then c.sendFinish { info with stopReason := .empty } .ok 0
    else if info.sentBytes = budget.maxBytes then
      c.sendFinish { info with stopReason := .byteBudget } .ok 0
    else
      match left with
      | 0 => c.sendFinish { info with stopReason := .callBudget } .ok 0
      | left + 1 =>
        let request := min (min (budget.maxBytes - info.sentBytes) pending) scratchSize
        let info := { info with sendCalls := info.sendCalls + 1 }
        let r := (c.ownedFd.send (bytes.take request)).1
        let c := { c with ownedFd := (c.ownedFd.send (bytes.take request)).2 }
        if r.value < -1 ∨ r.value = 0 ∨ r.value > request then c.sendFinish info .internal 0
        else if r.value = -1 then
          if r.errno = eagain ∨ r.errno = ewouldblock then
            c.sendFinish { info with stopReason := .wouldBlock } .ok 0
          else c.sendFinish info .io r.errno
        else
          let sent := r.value.toNat
          match checkedSizeAdd info.sentBytes sent with
          | .error _ => c.sendFinish info .internal 0
          | .ok sentBytes =>
            let info := { info with sentBytes }
            let consumed := c.writeBuffer.consume (UInt64.ofNat sent)
            let c := { c with writeBuffer := consumed.2 }
            if consumed.1 ≠ .ok then c.sendFinish info .internal 0 else sendLoop budget left info c

/-- `vireo_connection_send`. -/
def Connection.send (budget : SendBudget) : Outcome SendInfo :=
  if budget.maxBytes = 0 ∨ budget.maxSyscalls = 0 then c.finish .range .none
  else if c.closeState = .ready then c.finish .busy .none
  else sendLoop budget budget.maxSyscalls ⟨0, 0, .error⟩ c

/-! ## 6. The event loop -/

/-- `VIREO_EPOLL_INTEREST_READ`, `VIREO_EPOLL_INTEREST_WRITE`, `VIREO_EPOLL_INTEREST_PEER_WRITE_CLOSED`. -/
def interestRead : UInt32 := 1
def interestWrite : UInt32 := 2
def interestPeerWriteClosed : UInt32 := 4

/-- `vireo_connection_loop_stage_t`. -/
inductive LoopStage where
  | none
  | attach
  | update
  | detach
  | flowConfigure
  | flowRefresh
  | requestClose
  | closeRefresh
deriving DecidableEq

/-- What the event loop answers to a call, with its diagnosis. -/
structure LoopReply where
  result : Result
  error : Nat
deriving DecidableEq

/-- What a call on the loop side returns, with its diagnosis, and the connection after it. -/
structure LoopOutcome where
  result : Result
  stage : LoopStage
  error : Nat
  connection : Connection

/-- `loop_finish` with no diagnosis of the loop. -/
def Connection.loopRefuse (result : Result) : LoopOutcome := ⟨result, .none, 0, c⟩

/-- `loop_finish` with the answer of the loop. -/
def Connection.loopFinish (reply : LoopReply) (stage : LoopStage) : LoopOutcome :=
  if reply.result ≠ .ok then ⟨reply.result, stage, reply.error, c⟩ else ⟨.ok, .none, 0, c⟩

/-- `valid_interests`. -/
def validInterests (interests : UInt32) : Bool :=
  interests &&& ~~~(interestRead ||| interestWrite ||| interestPeerWriteClosed) = 0

/-- `clear_binding`. -/
def Connection.clearBinding : Connection :=
  { c with
    loopAttached := false
    loopInterests := 0
    flowEnabled := false
    readPressure := false
    writePressure := false
    flowOptions := ⟨0, 0, 0, 0, 0⟩ }

/-- `vireo_connection_attach`. -/
def Connection.attach (interests : UInt32) (add : LoopReply) : LoopOutcome :=
  if validInterests interests = false then c.loopRefuse .invalidArgument
  else if c.closeState ≠ .open ∨ c.loopAttached ∨ c.callbackActive then c.loopRefuse .busy
  else
    let c := if add.result = .ok then { c with loopAttached := true, loopInterests := interests } else c
    c.loopFinish add .attach

/-- `vireo_connection_set_interests`. -/
def Connection.setInterests (interests : UInt32) (mod : LoopReply) : LoopOutcome :=
  if validInterests interests = false then c.loopRefuse .invalidArgument
  else if c.closeState ≠ .open then c.loopRefuse .busy
  else if c.loopAttached = false then c.loopRefuse .notFound
  else if c.flowEnabled then c.loopRefuse .busy
  else
    let c := if mod.result = .ok then { c with loopInterests := interests } else c
    c.loopFinish mod .update

/-- `vireo_connection_detach`. -/
def Connection.detach (del : LoopReply) : LoopOutcome :=
  if c.loopAttached = false then c.loopRefuse .ok
  else
    let c := if del.result = .ok then c.clearBinding else c
    c.loopFinish del .detach

/-- `vireo_connection_forget_destroyed_loop`. -/
def Connection.forgetDestroyedLoop : LoopOutcome :=
  if c.callbackActive then c.loopRefuse .busy else c.clearBinding.loopRefuse .ok

/-- The beginning and the end of `dispatch_connection`, which is called while the binding stands. -/
def Connection.dispatchBegin : Connection := { c with callbackActive := true }
def Connection.dispatchEnd : Connection := { c with callbackActive := false }

/-- `flow_pressure`. -/
def flowPressure (occupied low high : Nat) (pressure : Bool) : Bool :=
  if pressure then occupied > low else occupied ≥ high

/-- The interests that `flow_apply` comes to. -/
def Connection.flowInterests (readPressure writePressure : Bool) : UInt32 :=
  (if !c.readEof && !readPressure && !writePressure then interestRead ||| interestPeerWriteClosed else 0) |||
    (if c.writeBuffer.inspect.readableSize ≠ 0 then interestWrite else 0)

/-- `flow_apply`. -/
def Connection.flowApply (options : FlowOptions) (reset : Bool) (stage : LoopStage) (mod : LoopReply) :
    LoopOutcome :=
  let readPressure := flowPressure c.readBuffer.inspect.readableSize.toNat options.readLow options.readHigh
    (!reset && c.readPressure)
  let writePressure := flowPressure c.writeBuffer.inspect.readableSize.toNat options.writeLow
    options.writeHigh (!reset && c.writePressure)
  let interests := c.flowInterests readPressure writePressure
  if interests ≠ c.loopInterests ∧ mod.result ≠ .ok then c.loopFinish mod stage
  else
    { c with
      flowOptions := options
      flowEnabled := true
      readPressure := readPressure
      writePressure := writePressure
      loopInterests := interests }.loopRefuse .ok

/-- `vireo_connection_flow_configure`. -/
def Connection.flowConfigure (options : FlowOptions) (mod : LoopReply) : LoopOutcome :=
  if c.closeState ≠ .open then c.loopRefuse .busy
  else if c.loopAttached = false then c.loopRefuse .notFound
  else if options.maxFrameBytes < headerSize ∨
      options.maxFrameBytes > c.readBuffer.inspect.capacity.toNat ∨
      options.maxFrameBytes > protocolMax ∨ options.readLow < options.maxFrameBytes - 1 ∨
      options.readLow ≥ options.readHigh ∨ options.readHigh > c.readBuffer.inspect.capacity.toNat ∨
      options.writeLow ≥ options.writeHigh ∨
      options.writeHigh > c.writeBuffer.inspect.capacity.toNat then c.loopRefuse .range
  else c.flowApply options true .flowConfigure mod

/-- `vireo_connection_flow_refresh`. -/
def Connection.flowRefresh (mod : LoopReply) : LoopOutcome :=
  if c.closeState ≠ .open then c.loopRefuse .busy
  else if c.loopAttached = false ∨ c.flowEnabled = false then c.loopRefuse .notFound
  else c.flowApply c.flowOptions false .flowRefresh mod

/-- `vireo_connection_flow_disable`. -/
def Connection.flowDisable : LoopOutcome :=
  if c.closeState ≠ .open then c.loopRefuse .busy
  else
    { c with
      flowEnabled := false
      readPressure := false
      writePressure := false
      flowOptions := ⟨0, 0, 0, 0, 0⟩ }.loopRefuse .ok

/-! ## 7. Closing -/

/-- There is still something to send before the connection may be closed. -/
def Connection.draining : Bool :=
  c.closeMode = .drain && c.writeBuffer.inspect.readableSize ≠ 0

/-- `close_sync`. -/
def Connection.closeSync (stage : LoopStage) (mod : LoopReply) : LoopOutcome :=
  let interests : UInt32 := if c.draining then interestWrite else 0
  let c := { c with closeState := if c.draining then .draining else .ready }
  if c.loopAttached ∧ interests ≠ c.loopInterests then
    if mod.result ≠ .ok then c.loopFinish mod stage
    else { c with loopInterests := interests }.loopRefuse .ok
  else c.loopRefuse .ok

/-- What `vireo_connection_request_close` puts on record before it syncs. -/
def Connection.closeIntent (mode : CloseMode) (reason : CloseReason) : Connection :=
  let c :=
    if c.closeState = .open then
      { c with
        closeReason := reason
        closeState := if mode = .drain then .draining else .ready }
    else c
  let c := { c with closeMode := mode }
  if mode = .immediate then { c with closeState := .ready } else c

/-- `vireo_connection_request_close`. -/
def Connection.requestClose (mode : CloseMode) (reason : CloseReason) (mod : LoopReply) :
    LoopOutcome :=
  if mode = .none ∨ reason = .none then c.loopRefuse .invalidArgument
  else if c.closeMode = .immediate ∧ mode = .drain then c.loopRefuse .busy
  else (c.closeIntent mode reason).closeSync .requestClose mod

/-- `vireo_connection_close_refresh`. -/
def Connection.closeRefresh (mod : LoopReply) : LoopOutcome :=
  if c.closeState = .open then c.loopRefuse .notFound else c.closeSync .closeRefresh mod

end Vireo.Net
