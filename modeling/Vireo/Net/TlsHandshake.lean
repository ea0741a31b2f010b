/-
  File:      Vireo/Net/TlsHandshake.lean
  Subject:   THE HANDSHAKE OF A TLS CONNECTION (`src/net/tls_connection.c`), as far as it decides when
             application data may pass.

  The creation is its last assignment: the checks before it only decide whether there is a connection.
  `policy_valid` reads nothing but the library's settings, so a `NativeView` says what it comes to.
-/
import Vireo.Net.TlsIo

namespace Vireo.Net.Tls

open Base

/-- `vireo_tls_connection_create_with_ops`: the connection it publishes. -/
def Connection.created : Connection where
  io := .zero
  close := ⟨.none, 0, 0, false, .none, .ok, .zero⟩
  state := .initial
  wait := .none
  handshakeNativeAttempted := false
  deadlineArmed := false
  deadlineNs := 0
  lastNowNs := 0
  failureResult := .ok
  failureError := .zero

/-- What the TLS library says of itself: `policy_valid`, `SSL_in_before`, `SSL_is_init_finished`. -/
structure NativeView where
  policyValid : Bool
  inBefore : Bool
  initFinished : Bool
deriving DecidableEq

/-- The results of a native failure. -/
def nativeFailure (r : Result) : Bool := r = .io || r = .protocol || r = .noMemory || r = .internal

variable (c : Connection)

/-- `lifecycle_valid`. -/
def lifecycleValid (view : NativeView) : Bool :=
  if c.deadlineArmed = false ∧ (c.deadlineNs ≠ 0 ∨ c.lastNowNs ≠ 0) then false
  else if c.state = .failed then
    let timeout : Bool := c.failureResult = .timeout && c.failureError = .at .deadline && c.deadlineArmed &&
      c.lastNowNs ≥ c.deadlineNs
    let native : Bool := c.handshakeNativeAttempted && nativeFailure c.failureResult &&
      c.failureError.stage = .handshake
    c.wait = .none && (timeout || native)
  else if c.failureResult ≠ .ok ∨ c.failureError ≠ .zero then false
  else
    match c.state with
    | .initial => !c.handshakeNativeAttempted && c.wait = .none && view.inBefore && !view.initFinished
    | .handshaking =>
      c.handshakeNativeAttempted && (!c.deadlineArmed || c.lastNowNs < c.deadlineNs) &&
        (c.wait = .read || c.wait = .write) && !view.initFinished
    | .established =>
      let applicationFailed : Bool := c.io.state = .failed && nativeFailure c.io.failureResult &&
        (c.io.failureError.stage = .receive || c.io.failureError.stage = .send)
      c.handshakeNativeAttempted && c.wait = .none &&
        (view.initFinished || applicationFailed || c.close.state ≠ .none)
    | .failed => false

/-- `vireo_tls_handshake_info_t`. -/
structure HandshakeInfo where
  state : HandshakeState
  wait : Wait
  nativeCalled : Bool

/-- What a handshake step is answered. -/
structure HandshakeReply where
  before : NativeView
  signal : SignalQuery
  returned : Int
  errno : Int
  classification : SslError
  errors : List LibraryError
  after : NativeView

/-- What a native handshake came to: a result, and the state and the direction if it is OK. -/
def HandshakeReply.outcome (r : HandshakeReply) : Result × HandshakeState × Wait :=
  if r.returned = 1 ∧ r.after.initFinished = true then (.ok, .established, .none)
  else if r.returned ≤ 0 ∧ r.classification = .wantRead then (.ok, .handshaking, .read)
  else if r.returned ≤ 0 ∧ r.classification = .wantWrite then (.ok, .handshaking, .write)
  else if r.returned ≤ 0 ∧ r.classification = .syscall then (.io, .failed, .none)
  else if r.returned ≤ 0 ∧ r.classification = .zeroReturn then (.protocol, .failed, .none)
  else if r.returned ≤ 0 ∧ r.classification = .ssl then
    (if (capture .zero r.errors).1 then .noMemory else .protocol, .failed, .none)
  else (.internal, .failed, .none)

/-- The connection after a handshake that failed for good. -/
def handshakeFail (result : Result) (error : Diagnostic) : Connection :=
  { c with state := .failed, wait := .none, failureResult := result, failureError := error }

/-- The result of a native handshake that left the connection as `moved`. -/
def handshakeResult (moved : Connection) (r : HandshakeReply) : Result :=
  if r.outcome.1 = .ok ∧ (r.after.policyValid = false ∨ lifecycleValid moved r.after = false) then .internal
  else r.outcome.1

/-- The I/O that was prepared is opened when the handshake is complete. -/
def openPrepared : Connection :=
  if c.state = .established ∧ c.io.state = .prepared then { c with io := { c.io with state := .opened } } else c

/-- The diagnosis of a native handshake. -/
def HandshakeReply.diagnostic (r : HandshakeReply) : Diagnostic :=
  let captured := (capture (.at .handshake) r.errors).2
  if r.returned ≤ 0 ∧ r.classification = .syscall then { captured with systemErrno := r.errno } else captured

/-- The native handshake of `handshake_drive` and what follows from it. -/
def handshakeAttempt (r : HandshakeReply) : Step HandshakeInfo :=
  let moved := { c with state := r.outcome.2.1, wait := r.outcome.2.2 }
  let result := handshakeResult moved r
  if result = .ok then (openPrepared moved).report .ok .zero ⟨moved.state, moved.wait, true⟩
  else (handshakeFail c result r.diagnostic).report result r.diagnostic ⟨.failed, .none, true⟩

/-- `handshake_drive`. -/
def handshakeDrive (timed : Bool) (now : Nat) (r : HandshakeReply) : Step HandshakeInfo :=
  if r.before.policyValid = false ∨ lifecycleValid c r.before = false then
    c.finish .internal (capture (.at .inspect) r.errors).2
  else if c.state = .established ∨ c.state = .failed then
    c.report c.failureResult c.failureError ⟨c.state, c.wait, false⟩
  else if timed ≠ c.deadlineArmed then c.finish .busy .zero
  else if timed = true ∧ now < c.lastNowNs then c.finish .range .zero
  else if timed = true ∧ now ≥ c.deadlineNs then
    (handshakeFail { c with lastNowNs := now } .timeout (.at .deadline)).report .timeout (.at .deadline)
      ⟨.failed, .none, false⟩
  else
    match signalPolicy r.signal with
    | some refused => c.finish refused.1 refused.2
    | none =>
      handshakeAttempt { c with
        handshakeNativeAttempted := true
        lastNowNs := if timed then now else c.lastNowNs } r

/-- `vireo_tls_connection_handshake_deadline_arm`. -/
def deadlineArm (now deadline : Nat) (view : NativeView) : Step Unit :=
  if view.policyValid = false ∨ lifecycleValid c view = false then c.finish .internal (.at .inspect)
  else if c.state ≠ .initial ∨ c.deadlineArmed = true then c.finish .busy .zero
  else { c with deadlineArmed := true, deadlineNs := deadline, lastNowNs := now }.finish .ok .zero

end Vireo.Net.Tls
