/-
  File:      Vireo/Service/AuthTask.lean
  Subject:   AN AUTHENTICATION TASK AND ITS CONTEXT (`src/service/auth_task.c`, `auth_task_context.c`).

  What `RAND_priv_bytes` and the two clocks return is an input.
-/
import Vireo.Lib.Checks
import Vireo.Service.AuthCompletion
import Vireo.Protocol.AuthRequest
import Vireo.Persistence.User.Entry

namespace Vireo.Service

open Lib Protocol Thread
open Persistence (Sampled)
open Persistence.User (RequestId)

/-! ## 1. Tasks -/

/-- `vireo_auth_task_options_t`. -/
structure AuthTaskOptions where
  registerOperation : UInt32
  loginOperation : UInt32
  logoutOperation : UInt32
  resumeOperation : UInt32
  poolTimeoutMs : UInt32

/-- `ids` of `vireo_auth_task_command`. -/
def AuthTaskOptions.operations (o : AuthTaskOptions) : List UInt32 :=
  [o.registerOperation, o.loginOperation, o.logoutOperation, o.resumeOperation]

/-- `commands` of `vireo_auth_task_command`. -/
def authCommands : List UInt16 := [commandRegister, commandLogin, commandLogout, commandSessionResume]

/-- `vireo_auth_task_command`: zero when the operations are no four, or this is none of them. -/
def authTaskCommand (o : AuthTaskOptions) (operation : UInt32) : UInt16 :=
  if o.operations.contains 0 ∨ ¬ o.operations.Nodup then 0
  else ((o.operations.zip authCommands).lookup operation).getD 0

/-- `vireo_task_t`, as far as it is looked at: its constructor checks the metadata. -/
structure AuthTask where
  metadata : TaskMetadata
  payload : Bytes
  valid : metadata.Valid

/-- The envelope of a logout, `VAL1`: its mark, zeros, and whom it is about. -/
def logoutEnvelope (p : Bytes) : Option LogoutIdentity :=
  if p.length ≠ 56 ∨ p.take 4 ≠ [0x56, 0x41, 0x4C, 0x31] ∨ byteAt p 4 ≠ 0 ∨ byteAt p 5 ≠ 0 ∨ byteAt p 6 ≠ 0 ∨
      byteAt p 7 ≠ 0 then none
  else
    let target : LogoutIdentity := ⟨get64 (p.drop 8), get64 (p.drop 16)⟩
    if target.userId = 0 ∨ target.sessionId = 0 then none else some target

/-- The size of what is in front of a request. -/
def requestOffset (expected : UInt16) : Nat := if expected = commandLogout then 24 else 0

/-- Whom a request is about: only a logout says it. -/
def requestTarget (expected : UInt16) (p : Bytes) : Option LogoutIdentity :=
  if expected = commandLogout then logoutEnvelope p else some ⟨0, 0⟩

/-- `VIREO_RESULT_PROTOCOL`. -/
def protocolFailure : Failure := ⟨.protocol, by decide⟩

/-- `vireo_auth_task_borrow_request`: the view and the target, or the result and the issue. -/
def borrowRequest (task : AuthTask) (expected : UInt16) :
    Except (Failure × AuthRequestIssue) (AuthRequestView × LogoutIdentity) :=
  if authCommands.contains expected = false then .error (.invalidArgument, .none)
  else if task.payload.length < headerSize + requestOffset expected then .error (protocolFailure, .header)
  else
    match requestTarget expected task.payload with
    | none => .error (protocolFailure, .envelope)
    | some target =>
      let decoded := authRequestDecode (task.payload.drop (requestOffset expected)) default
      if decoded.result ≠ .ok then .error (protocolFailure, decoded.issue)
      else if decoded.out.command ≠ expected ∨ decoded.out.sequence ≠ task.metadata.route.requestSequence then
        .error (protocolFailure, .envelope)
      else .ok (decoded.out, target)

/-! ## 2. Contexts -/

/-- `vireo_auth_task_context_t`. -/
structure AuthTaskContext where
  metadata : TaskMetadata
  requestId : RequestId
  occurredAtMs : UInt64
  expiresAtMs : UInt64
  nowNs : UInt64
  latencyUs : UInt64

/-- What the sources of a context return: the random bytes, the time of day, the monotonic time. -/
structure AuthSamples where
  random : Int × RequestId
  utc : Sampled
  monotonic : Except Failure UInt64

/-- `vireo_auth_context_stage_t`. -/
inductive AuthContextStage where
  | none | task | decode | random | utc | expiry | monotonic | latency
deriving DecidableEq

/-- Where a context fails, and with what: `stage` and `request_issue` of `vireo_auth_context_error_t`. -/
structure AuthContextFailure where
  stage : AuthContextStage
  issue : AuthRequestIssue := .none
  result : Failure

/-- The failure of a step of the context. -/
def atStage {α : Type} (stage : AuthContextStage) : Except Failure α → Except AuthContextFailure α
  | .ok a => .ok a
  | .error f => .error { stage := stage, result := f }

/-- `vireo_checked_u64_add`, its failure as such. -/
def expiryOf (occurred lifetime : UInt64) : Except Failure UInt64 :=
  match checkedU64Add occurred lifetime with
  | .ok t => .ok t
  | .error _ => .error .overflow

/-- The id of a context: sixteen random bytes that are not all zero. -/
def AuthSamples.id (samples : AuthSamples) : Except Failure RequestId :=
  if samples.random.1 ≠ 1 ∨ samples.random.2.isZero then .error ⟨.io, Result.noConfusion⟩ else .ok samples.random.2

/-- `vireo_auth_task_context_with`, from the random bytes on. -/
def sampledContext (metadata : TaskMetadata) (login : Bool) (receivedAtNs lifetime : UInt64) (samples : AuthSamples) :
    Except AuthContextFailure AuthTaskContext := do
  let requestId ← atStage .random samples.id
  let occurred ← atStage .utc samples.utc.millis
  let expires ← atStage .expiry (if login then expiryOf occurred lifetime else .ok 0)
  let now ← atStage .monotonic samples.monotonic
  if now < receivedAtNs then .error { stage := .latency, result := .range }
  else .ok ⟨metadata, requestId, occurred, expires, now, (now - receivedAtNs) / 1000⟩

/-- `vireo_auth_task_context_with`. -/
def authTaskContextWith (task : AuthTask) (receivedAtNs lifetime : UInt64) (options : AuthTaskOptions)
    (samples : AuthSamples) : Except AuthContextFailure AuthTaskContext :=
  if task.payload = [] then .error { stage := .decode, issue := .header, result := protocolFailure }
  else if authTaskCommand options task.metadata.operation = 0 then .error { stage := .decode, result := .invalidArgument }
  else
    match borrowRequest task (authTaskCommand options task.metadata.operation) with
    | .error (f, issue) => .error { stage := .decode, issue := issue, result := f }
    | .ok (view, _) =>
      let login := decide (view.command = commandLogin)
      if login ∧ lifetime = 0 then .error { stage := .none, result := .range }
      else sampledContext task.metadata login receivedAtNs lifetime samples

/-! ## 3. What they are -/

section

variable {options : AuthTaskOptions} {operation : UInt32} {task : AuthTask} {expected : UInt16}
  {received lifetime : UInt64} {samples : AuthSamples} {context : AuthTaskContext}

theorem borrowRequest_ok {view : AuthRequestView} {target : LogoutIdentity}
    (h : borrowRequest task expected = .ok (view, target)) :
    view.command = expected ∧ expected ∈ authCommands ∧
      (if expected = commandLogout then target.userId ≠ 0 ∧ target.sessionId ≠ 0 else target = ⟨0, 0⟩) ∧
      task.payload ≠ [] := by
  unfold borrowRequest at h
  split at h
  · cases h
  rename_i hmem
  split at h
  · cases h
  rename_i hsize
  split at h
  · cases h
  rename_i t htarget
  dsimp only at h
  split at h
  · cases h
  split at h
  · cases h
  rename_i hsame
  cases h
  rw [not_or, not_not] at hsame
  refine ⟨hsame.1, by simpa using hmem, ?_, fun he => hsize ?_⟩
  · unfold requestTarget at htarget
    split
    · rename_i hlogout
      rw [if_pos hlogout] at htarget
      unfold logoutEnvelope at htarget
      split at htarget
      · cases htarget
      dsimp only at htarget
      rw [Option.ite_none_left_eq_some, not_or] at htarget
      obtain ⟨hne, e⟩ := htarget
      cases e
      exact hne
    · rename_i hother
      rw [if_neg hother] at htarget
      exact (Option.some.inj htarget).symm
  · rw [he]
    exact Nat.lt_of_lt_of_le (by decide) (Nat.le_add_right _ _)

theorem atStage_ok {α : Type} {stage : AuthContextStage} {p : Except Failure α} {a : α}
    (h : atStage stage p = .ok a) : p = .ok a := by
  cases p with
  | ok b => exact congrArg Except.ok (Except.ok.inj h)
  | error f => cases h

theorem sampledContext_ok {metadata : TaskMetadata} {login : Bool}
    (h : sampledContext metadata login received lifetime samples = .ok context) :
    context.metadata = metadata ∧ context.requestId.isZero = false := by
  unfold sampledContext at h
  obtain ⟨requestId, hid, h⟩ := bind_eq_ok.mp h
  obtain ⟨occurred, -, h⟩ := bind_eq_ok.mp h
  obtain ⟨expires, -, h⟩ := bind_eq_ok.mp h
  obtain ⟨now, -, h⟩ := bind_eq_ok.mp h
  split at h
  · cases h
  cases h
  replace hid := atStage_ok hid
  unfold AuthSamples.id at hid
  split at hid
  · cases hid
  rename_i hgood
  cases hid
  exact ⟨rfl, (Bool.not_eq_true _).mp fun hz => hgood (.inr hz)⟩

theorem authTaskContextWith_ok (h : authTaskContextWith task received lifetime options samples = .ok context) :
    context.metadata = task.metadata ∧ context.requestId.isZero = false := by
  unfold authTaskContextWith at h
  split at h
  · cases h
  split at h
  · cases h
  split at h
  · cases h
  dsimp only at h
  split at h
  · cases h
  exact sampledContext_ok h

end

end Vireo.Service
