/-
  File:      Vireo/Net/TlsClose.lean
  Subject:   THE CLOSE OF A TLS CONNECTION (`src/net/tls_close.c`).

  The operations of a step are passed in as what they answer; `pending` and `pendingAfter` are what
  `SSL_pending` says when a snapshot is taken before and after the operation.
-/
import Vireo.Net.TlsIo

namespace Vireo.Net.Tls

open Base

/-! ## 1. What comes next -/

/-- `vireo_tls_close_stop_t`. -/
inductive CloseStop where
  | progress
  | want
  | needConsume
  | complete
  | error

/-- `vireo_tls_close_info_t`. -/
structure CloseInfo where
  state : CloseState
  deadlineNs : Nat
  lastNowNs : Nat
  localNotifySent : Bool
  peerNotifyReceived : Bool
  operation : Operation
  wait : Wait
  resume : Bool
  needsConsume : Bool

/-- `vireo_tls_close_progress_t`. -/
structure CloseProgress where
  readBytes : Nat
  writeBytes : Nat
  nativeCalled : Bool
  stopReason : CloseStop
  info : CloseInfo

/-- `active`. -/
def CloseState.active : CloseState → Bool
  | .draining | .notifying | .waitPeer => true
  | _ => false

variable (c : Connection)

/-- The next operation of an active close, and the direction it waits for. -/
def nextOperation : Operation × Wait :=
  if c.close.shutdownWait ≠ .none then (.shutdown, c.close.shutdownWait)
  else if c.io.write.retryBytes ≠ 0 ∨ (c.io.read.wait ≠ .write ∧ readable c.io.write.buffer ≠ 0) then
    (.write, c.io.write.wait)
  else if c.io.read.wait = .write then (.read, c.io.read.wait)
  else if c.close.localNotifySent = false then (.shutdown, .none)
  else (.read, c.io.read.wait)

/-- `snapshot`. -/
def snapshot (pending : Int) : CloseInfo :=
  let info : CloseInfo := ⟨c.close.state, 0, 0, false, false, .none, .none, false, false⟩
  if c.close.state = .none then info
  else
    let info := { info with
      deadlineNs := c.close.deadlineNs
      lastNowNs := c.close.lastNowNs
      localNotifySent := c.close.localNotifySent
      peerNotifyReceived := c.io.readEof }
    if c.close.state.active = false then info
    else
      let next := nextOperation c
      let info := { info with operation := next.1, wait := next.2 }
      if next.1 = .read then
        let space := c.io.options.readCapacity - readable c.io.read.buffer
        if space = 0 ∨ c.io.read.retryBytes > space then { info with needsConsume := true, wait := .none }
        else { info with resume := next.2 = .none || (next.2 = .read && pending > 0) }
      else { info with resume := next.2 = .none }

/-! ## 2. The calls -/

/-- `vireo_tls_connection_close_request`. -/
def closeRequest (now deadline : Nat) : Step Unit :=
  if c.state ≠ .established ∨ c.io.state = .disabled ∨ c.close.state ≠ .none then c.finish .busy .zero
  else if c.io.state = .failed then c.finish c.io.failureResult c.io.failureError
  else
    { result := .ok
      out := none
      error := .zero
      connection := { c with close := ⟨.draining, deadline, now, false, .none, .ok, .zero⟩ }
      events := [.close .draining] }

/-- `fail`. -/
def closeFail (result : Result) (error : Diagnostic) : Connection :=
  { c with
    close := { c.close with
      state := .failed
      failureResult := result
      failureError := error
      shutdownWait := .none }
    io := c.io.clearScratch }

/-- What a native shutdown is answered: the signal query, then what it returns, with its errno, its
    classification and the error queue. -/
structure ShutdownReply where
  signal : SignalQuery
  returned : Int
  errno : Int
  classification : SslError
  errors : List LibraryError

/-- What a close step is answered. -/
structure CloseOps where
  io : Nat → NativeReply
  shutdown : ShutdownReply
  pending : Int
  pendingAfter : Int

/-- The connection when a step commits its time: a close that is complete clears the scratch. -/
def closeCommit (now : Nat) : Connection :=
  { c with
    close := { c.close with lastNowNs := now }
    io := if c.close.state = .complete then c.io.clearScratch else c.io }

/-- The end of a step that commits its time. -/
def closeFinish (now : Nat) (result : Result) (error : Diagnostic) (p : CloseProgress) (events : List Event)
    (pending : Int) : Step CloseProgress :=
  let stopReason := if c.close.state = .complete then .complete else p.stopReason
  ⟨result, some { p with stopReason := stopReason, info := snapshot (closeCommit c now) pending }, error,
    closeCommit c now, events⟩

/-- The report of a step that has done nothing yet. -/
def CloseProgress.zero : CloseProgress := ⟨0, 0, false, .progress, ⟨.none, 0, 0, false, false, .none, .none, false, false⟩⟩

/-- A step that reads or writes, with a budget of one native call. -/
def closeTransfer (now maxBytes : Nat) (writing : Bool) (ops : CloseOps) : Step CloseProgress :=
  let moved := ioDrive c ⟨maxBytes, 1⟩ writing true ops.io
  let c := moved.connection
  if moved.result ≠ .ok ∧ c.io.state ≠ .failed then ⟨moved.result, none, moved.error, c, moved.events⟩
  else
    let report := moved.out.getD ⟨0, 0, .wouldBlock, .none⟩
    let p := { CloseProgress.zero with
      nativeCalled := report.nativeCalls ≠ 0
      readBytes := if writing then 0 else report.bytes
      writeBytes := if writing then report.bytes else 0 }
    if moved.result ≠ .ok then
      closeFinish (closeFail c moved.result moved.error) now moved.result moved.error { p with stopReason := .error }
        (moved.events ++ [.close .failed]) ops.pendingAfter
    else if c.io.readEof = true ∧ c.close.localNotifySent = true then
      closeFinish { c with close := { c.close with state := .complete } } now .ok moved.error p
        (moved.events ++ [.close .complete]) ops.pendingAfter
    else
      closeFinish c now .ok moved.error
        { p with stopReason := if report.stopReason = .wouldBlock then .want else .progress } moved.events
        ops.pendingAfter

/-- The result that a fatal shutdown is reported with. -/
def ShutdownReply.failure (r : ShutdownReply) (oom : Bool) : Result :=
  if r.returned < 0 ∧ r.classification = .syscall then .io
  else if r.returned < 0 ∧ r.classification = .ssl then if oom then .noMemory else .protocol
  else if r.returned < 0 ∧ r.classification = .zeroReturn then .protocol
  else .internal

/-- A step that calls the native shutdown. -/
def closeShutdown (now : Nat) (ops : CloseOps) : Step CloseProgress :=
  let r := ops.shutdown
  match signalPolicy r.signal with
  | some refused => c.finish refused.1 refused.2
  | none =>
    let captured := capture .zero r.errors
    let p := { CloseProgress.zero with nativeCalled := true }
    let called := [.shutdown r.returned, .close .notifying]
    if r.returned = 0 ∨ r.returned = 1 then
      let state : CloseState := if r.returned = 1 then .complete else .waitPeer
      let c := { c with close := { c.close with state := state, localNotifySent := true, shutdownWait := .none } }
      let c :=
        if r.returned = 1 then
          { c with io := { c.io with readEof := true, read := { c.io.read with retryBytes := 0, wait := .none } } }
        else c
      closeFinish c now .ok .zero p (called ++ [.close state]) ops.pendingAfter
    else if r.returned < 0 ∧ (r.classification = .wantRead ∨ r.classification = .wantWrite) then
      let wait : Wait := if r.classification = .wantRead then .read else .write
      closeFinish { c with close := { c.close with state := .notifying, shutdownWait := wait } } now .ok .zero
        { p with stopReason := .want } called ops.pendingAfter
    else
      let result := r.failure captured.1
      let error := { captured.2 with
        stage := .close
        systemErrno := if r.returned < 0 ∧ r.classification = .syscall then r.errno else 0 }
      closeFinish (closeFail c result error) now result error { p with stopReason := .error }
        (called ++ [.close .failed]) ops.pendingAfter

/-- The unfinished request that the next operation goes on with. -/
def retryOf (operation : Operation) : Nat :=
  match operation with
  | .write => c.io.write.retryBytes
  | .read => c.io.read.retryBytes
  | _ => 0

/-- `vireo_tls_connection_close_with_ops`. -/
def closeWithOps (now maxBytes : Nat) (ops : CloseOps) : Step CloseProgress :=
  if maxBytes = 0 then c.finish .range .zero
  else if c.close.state = .none then c.finish .busy .zero
  else if c.close.state.active = false then
    c.report c.close.failureResult c.close.failureError { CloseProgress.zero with
      stopReason := if c.close.state = .complete then .complete else .error
      info := snapshot c ops.pendingAfter }
  else if now < c.close.lastNowNs then c.finish .range .zero
  else if now ≥ c.close.deadlineNs then
    let error := Diagnostic.at .closeDeadline
    let c := closeFail { c with close := { c.close with lastNowNs := now } } .timeout error
    { c.report .timeout error { CloseProgress.zero with
        stopReason := .error
        info := snapshot c ops.pendingAfter } with
      events := [.close .failed] }
  else
    let next := snapshot c ops.pending
    if retryOf c next.operation > maxBytes then c.finish .range .zero
    else if next.needsConsume then
      closeFinish c now .ok .zero { CloseProgress.zero with stopReason := .needConsume } [] ops.pendingAfter
    else if next.operation ≠ .shutdown then closeTransfer c now maxBytes (next.operation = .write) ops
    else closeShutdown c now ops

end Vireo.Net.Tls
