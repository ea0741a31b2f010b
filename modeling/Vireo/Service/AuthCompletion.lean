/-
  File:      Vireo/Service/AuthCompletion.lean
  Subject:   THE OUTCOME OF AN AUTHENTICATION TASK (`src/service/auth_completion.c`): what a completion says.

  A completion is its metadata and the bytes of its payload.
-/
import Vireo.Protocol.AuthResponse
import Vireo.Thread.TaskMetadata

namespace Vireo.Service

open Lib Protocol Thread

/-! ## 1. Outcomes -/

/-- `vireo_auth_completion_commit_t`. -/
inductive AuthCommit where
  | notCommitted
  | committed
  | unknown
deriving DecidableEq

/-- `vireo_auth_logout_identity_t`. -/
structure LogoutIdentity where
  userId : UInt64
  sessionId : UInt64
deriving DecidableEq

/-- `vireo_auth_completion_outcome_t`. -/
structure AuthOutcome where
  metadata : CompletionMetadata
  command : UInt16
  commit : AuthCommit
  userId : UInt64
  rootNodeId : UInt64
  sessionId : UInt64
  auditId : UInt64
  issuedAtMs : UInt64
  expiresAtMs : UInt64
  token : Cells UInt8 32
  resumeValidated : Bool
  logoutTarget : LogoutIdentity
  revokedAtMs : UInt64
  alreadyRevoked : Bool

/-- `vireo_completion_t`, as far as it is looked at. -/
structure AuthCompletion where
  metadata : CompletionMetadata
  payload : Bytes
deriving DecidableEq

/-- What a worker failed with: neither its result nor its status is that of a success. -/
def failed (metadata : CompletionMetadata) : Bool := metadata.result ≠ .ok && metadata.suggestedStatus ≠ 0

namespace AuthOutcome

variable (o : AuthOutcome)

/-- `shape` of a resume. -/
def resumeShape : Bool :=
  o.rootNodeId = 0 && zeroBytes o.token.val && o.commit = .notCommitted && o.auditId = 0 &&
    o.logoutTarget.userId = 0 && o.logoutTarget.sessionId = 0 && o.revokedAtMs = 0 && !o.alreadyRevoked &&
    if o.resumeValidated then
      o.metadata.result = .ok && o.metadata.suggestedStatus = 0 && o.userId ≠ 0 && o.sessionId ≠ 0 &&
        o.expiresAtMs > o.issuedAtMs
    else failed o.metadata && o.userId = 0 && o.sessionId = 0 && o.issuedAtMs = 0 && o.expiresAtMs = 0

/-- `shape` of a logout. -/
def logoutShape : Bool :=
  o.rootNodeId = 0 && zeroBytes o.token.val && !o.resumeValidated && o.userId = 0 && o.sessionId = 0 &&
    o.issuedAtMs = 0 && o.expiresAtMs = 0 && o.logoutTarget.userId ≠ 0 && o.logoutTarget.sessionId ≠ 0 &&
    if o.commit = .committed then
      o.metadata.suggestedStatus = 0 && if o.alreadyRevoked then o.auditId = 0 else o.auditId ≠ 0
    else
      failed o.metadata && o.auditId = 0 && o.revokedAtMs = 0 && !o.alreadyRevoked &&
        (o.commit ≠ .unknown || o.metadata.suggestedStatus = 1902)

/-- `shape` of a registration and of a login. -/
def credentialShape : Bool :=
  !o.resumeValidated && o.logoutTarget.userId = 0 && o.logoutTarget.sessionId = 0 && o.revokedAtMs = 0 &&
    !o.alreadyRevoked &&
    if o.commit = .committed then
      o.metadata.suggestedStatus = 0 && o.userId ≠ 0 && o.auditId ≠ 0 &&
        if o.command = commandRegister then
          o.rootNodeId ≠ 0 && o.sessionId = 0 && o.issuedAtMs = 0 && o.expiresAtMs = 0 && zeroBytes o.token.val
        else o.rootNodeId = 0 && o.sessionId ≠ 0 && o.expiresAtMs > o.issuedAtMs
    else
      failed o.metadata && o.userId = 0 && o.rootNodeId = 0 && o.sessionId = 0 && o.auditId = 0 &&
        o.issuedAtMs = 0 && o.expiresAtMs = 0 && zeroBytes o.token.val &&
        (o.commit ≠ .unknown || o.metadata.suggestedStatus = 1902)

/-- `shape`. `VIREO_STATUS_INTERNAL_ERROR` is 1902. -/
def shape : Bool :=
  if o.command = commandSessionResume then o.resumeShape
  else if o.command = commandLogout then o.logoutShape
  else if o.command = commandRegister ∨ o.command = commandLogin then o.credentialShape
  else false

/-- A resume that was validated. -/
def resumed : Bool := o.command = commandSessionResume && o.resumeValidated

/-- A login or a resume that gives a session. -/
def grants : Bool := o.command = commandLogin && o.commit = .committed || o.resumed

/-- A logout that took place, or may have. -/
def revokes : Bool := o.command = commandLogout && o.commit ≠ .notCommitted

end AuthOutcome

/-! ## 2. Reading a completion -/

/-- The byte of an index. -/
def byteAt (p : Bytes) (i : Nat) : UInt8 := p.getD i 0

/-- `VIREO_AUTH_COMPLETION_PAYLOAD_BYTES`. -/
def payloadBytes : Nat := 88

/-- `VIREO_AUTH_COMPLETION_SESSION_BYTES`. -/
def sessionBytes : Nat := 120

/-- What is checked of a payload before it is read: its size, its mark, the ranges of its bytes. -/
def payloadRefused (p : Bytes) : Bool :=
  if p.length = sessionBytes then
    p.take 4 ≠ [0x56, 0x41, 0x43, 0x32] || byteAt p 7 > 2 || byteAt p 6 > 1
  else p.length ≠ payloadBytes || p.take 4 ≠ [0x56, 0x41, 0x43, 0x31] || byteAt p 7 > 2 || byteAt p 6 > 0

/-- The command of a payload. -/
def payloadCommand (p : Bytes) : UInt16 := (byteAt p 4).toUInt16 <<< 8 ||| (byteAt p 5).toUInt16

/-- The commit of a payload. -/
def payloadCommit (p : Bytes) : AuthCommit :=
  if byteAt p 7 = 0 then .notCommitted else if byteAt p 7 = 1 then .committed else .unknown

/-- The fields of a payload; those behind the token are there in the long one. -/
def payloadOutcome (metadata : CompletionMetadata) (p : Bytes) : AuthOutcome where
  metadata := metadata
  command := payloadCommand p
  commit := payloadCommit p
  userId := get64 (p.drop 8)
  rootNodeId := get64 (p.drop 16)
  sessionId := get64 (p.drop 24)
  auditId := get64 (p.drop 32)
  issuedAtMs := get64 (p.drop 40)
  expiresAtMs := get64 (p.drop 48)
  token := (Cells.fill 32 0).copy (p.drop 56)
  resumeValidated := byteAt p 6 ≠ 0
  logoutTarget := if p.length = sessionBytes then ⟨get64 (p.drop 88), get64 (p.drop 96)⟩ else ⟨0, 0⟩
  revokedAtMs := if p.length = sessionBytes then get64 (p.drop 104) else 0
  alreadyRevoked := p.length = sessionBytes && byteAt p 112 ≠ 0

/-- `vireo_auth_completion_decode`. -/
def authCompletionDecode (completion : AuthCompletion) : Except Result AuthOutcome :=
  match CompletionMetadata.make completion.metadata.request completion.metadata.result
      completion.metadata.suggestedStatus with
  | .error _ => .error .protocol
  | .ok metadata =>
    let p := completion.payload
    if payloadRefused p then .error .protocol
    else if (p.length = sessionBytes) ≠
        (payloadCommand p = commandSessionResume ∨ payloadCommand p = commandLogout) then .error .protocol
    else if p.length = sessionBytes ∧ (byteAt p 112 > 1 ∨ (p.drop 113).any (· ≠ 0) = true) then .error .protocol
    else if (payloadOutcome metadata p).shape = false then .error .protocol
    else .ok (payloadOutcome metadata p)

/-! ## 3. What is read -/

section

variable {completion : AuthCompletion} {o : AuthOutcome}

/-- **What is read** has a shape, and is about the task of the completion. -/
theorem authCompletionDecode_ok (h : authCompletionDecode completion = .ok o) :
    o.shape = true ∧ o.metadata = completion.metadata := by
  unfold authCompletionDecode at h
  split at h
  · cases h
  rename_i metadata hmake
  simp only at h
  split at h
  · cases h
  split at h
  · cases h
  split at h
  · cases h
  split at h
  · cases h
  rename_i hshape
  cases h
  refine ⟨(Bool.not_eq_false _).mp hshape, ?_⟩
  unfold CompletionMetadata.make at hmake
  simp only at hmake
  split at hmake
  · cases hmake
  · cases hmake
    rfl

theorem authCompletionDecode_error {e : Result} (h : authCompletionDecode completion = .error e) : e = .protocol := by
  unfold authCompletionDecode at h
  split at h
  · cases h
    rfl
  simp only at h
  split at h
  · cases h
    rfl
  split at h
  · cases h
    rfl
  split at h
  · cases h
    rfl
  split at h
  · cases h
    rfl
  · cases h

end

namespace AuthOutcome

variable {o : AuthOutcome}

theorem grants_command (hg : o.grants = true) :
    o.command = commandLogin ∨ o.command = commandSessionResume := by
  unfold grants resumed at hg
  rw [Bool.or_eq_true, Bool.and_eq_true, Bool.and_eq_true, decide_eq_true_eq, decide_eq_true_eq,
    decide_eq_true_eq] at hg
  exact hg.imp And.left And.left

theorem grants_of_success (h : o.shape = true) (hcommand : o.command = commandLogin ∨ o.command = commandSessionResume)
    (hstatus : o.metadata.suggestedStatus = 0) : o.grants = true := by
  have happart : commandLogin ≠ commandSessionResume ∧ commandLogin ≠ commandLogout ∧
    commandLogin ≠ commandRegister := by decide
  unfold grants resumed
  rcases hcommand with hcommand | hcommand
  · simp only [shape, hcommand, happart, credentialShape, failed, hstatus] at h
    simp at h
    simp [hcommand, h]
  · simp only [shape, hcommand, resumeShape, failed, hstatus] at h
    simp at h
    simp [hcommand, h]

theorem revokes_fields (h : o.shape = true) (hr : o.revokes = true) : o.logoutTarget.sessionId ≠ 0 := by
  have happart : commandLogout ≠ commandSessionResume := by decide
  unfold revokes at hr
  rw [Bool.and_eq_true, decide_eq_true_eq] at hr
  simp only [shape, hr.1, happart, logoutShape] at h
  simp at h
  simp_all

end AuthOutcome

end Vireo.Service
