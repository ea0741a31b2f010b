/-
  File:      Vireo/Service/AuthPublish.lean
  Subject:   HOW THE RESULT OF AN AUTHENTICATION TASK IS TOLD (`src/service/auth_completion.c`): projection,
             payload and back.
-/
import Vireo.Protocol.Words
import Vireo.Service.AuthWorker

namespace Vireo.Service

open Lib Protocol Thread Persistence.User
open AuthOutcome
open CompletionMetadata (hasValidShape make make_eq)
open List (append_assoc cons drop_drop drop_left' length_append length_drop mem_cons take_add take_append_drop)
open UInt8 (not_lt toNat_inj)

/-! ## 1. The projection -/

/-- The commit fact of a report, as an outcome has it. -/
def authCommit : Commit → AuthCommit
  | .notCommitted => .notCommitted
  | .committed => .committed
  | .unknown => .unknown

namespace AuthTaskResult

variable (r : AuthTaskResult)

/-- The commit fact of the transaction of a result; a resume has none. -/
def commit : Commit :=
  if r.command = commandLogin then r.login.transaction.commit
  else if r.command = commandSessionResume then .notCommitted
  else if r.command = commandLogout then r.logoutReport.commit
  else r.registration.commit

/-- `resume_validated` of the outcome. -/
def resumeValidated : Bool := r.command = commandSessionResume && r.resumeReport.valid

/-- The status of a result. -/
def status : UInt16 :=
  if r.commit = .committed ∨ r.resumeValidated then 0
  else if r.commit = .unknown then 1902
  else if r.stage = .service ∧ (r.command = commandLogin ∨ r.command = commandSessionResume ∨
      r.command = commandLogout) ∧ r.result = .notFound then 1104
  else if r.stage = .service ∧ r.command = commandRegister ∧ r.registration.issue = .usernameConflict then 1106
  else if r.stage = .decode ∧ r.result = .protocol then 1001
  else if r.result = .timeout then 1906
  else if r.result = .busy then 1901
  else if r.result = .cancelled then 1908
  else 1902

/-- The outcome of a result, with the metadata of its completion. -/
def outcome (metadata : CompletionMetadata) : AuthOutcome :=
  let bare : AuthOutcome := ⟨metadata, r.command, authCommit r.commit, 0, 0, 0, 0, 0, 0, .fill 32 0, r.resumeValidated,
    ⟨0, 0⟩, 0, false⟩
  if r.command = commandLogin then
    { bare with
      userId := r.login.userId
      sessionId := r.login.transaction.fields.sessionId
      auditId := r.login.transaction.fields.auditId
      issuedAtMs := r.login.issuedAtMs
      expiresAtMs := r.login.expiresAtMs
      token := r.login.token }
  else if r.command = commandSessionResume then
    { bare with
      userId := r.resumeIdentity.userId
      sessionId := r.resumeIdentity.sessionId
      issuedAtMs := r.resumeIdentity.issuedAtMs
      expiresAtMs := r.resumeIdentity.expiresAtMs }
  else if r.command = commandLogout then
    { bare with
      logoutTarget := r.logoutTarget
      auditId := r.logoutReport.fields.auditId
      revokedAtMs := r.logoutReport.fields.revokedAtMs
      alreadyRevoked := r.logoutReport.fields.alreadyRevoked }
  else
    { bare with
      userId := r.registration.fields.userId
      rootNodeId := r.registration.fields.rootNodeId
      auditId := r.registration.fields.auditId }

/-- What `project` refuses of a result before it makes the metadata. -/
def Refused : Prop :=
  r.stage = .none ∨ authCommands.contains r.command = false ∨
    (r.resumeValidated = true ∧ (r.stage ≠ .service ∨ r.resumeReport.cleanupPending = true)) ∨
    (r.command = commandLogout ∧ r.logoutReport.fields.sessionId ≠
      if r.logoutReport.commit = .committed then r.logoutTarget.sessionId else 0) ∨
    (r.stage ≠ .service ∧ r.commit ≠ .notCommitted)

instance (r : AuthTaskResult) : Decidable r.Refused := inferInstanceAs (Decidable (_ ∨ _ ∨ _ ∨ _ ∨ _))

/-- `project`. -/
def project : Except Result AuthOutcome :=
  if r.Refused then .error .invalidArgument
  else
    match make r.metadata r.result r.status with
    | .error _ => .error .invalidArgument
    | .ok metadata => if (r.outcome metadata).shape = false then .error .invalidArgument else .ok (r.outcome metadata)

end AuthTaskResult

/-! ## 2. The payload -/

namespace AuthOutcome

variable (o : AuthOutcome)

/-- An outcome of a resume or of a logout, which has the longer payload. -/
def isSession : Bool := o.command = commandSessionResume || o.command = commandLogout

/-- The byte of a commit fact. -/
def commitByte : AuthCommit → UInt8
  | .notCommitted => 0
  | .committed => 1
  | .unknown => 2

/-- The eight bytes in front: the mark, the command, `resume_validated` and the commit fact. -/
def front : Bytes :=
  [0x56, 0x41, 0x43, if o.isSession then 0x32 else 0x31] ++ writeU16Be o.command ++
    [o.resumeValidated.toUInt8, commitByte o.commit]

/-- The words behind them. -/
def words : List UInt64 :=
  [o.userId, o.rootNodeId, o.sessionId, o.auditId, o.issuedAtMs, o.expiresAtMs]

/-- The words of a logout. -/
def logoutWords : List UInt64 := [o.logoutTarget.userId, o.logoutTarget.sessionId, o.revokedAtMs]

/-- What the longer payload has behind the token. -/
def tail : Bytes :=
  if o.isSession then wordsBytes o.logoutWords ++ [o.alreadyRevoked.toUInt8, 0, 0, 0, 0, 0, 0, 0] else []

/-- The bytes that `vireo_auth_completion_publish_with` writes. -/
def payload : Bytes := o.front ++ (wordsBytes o.words ++ (o.token.val ++ o.tail))

/-- The completion of an outcome. -/
def completion : AuthCompletion := ⟨o.metadata, o.payload⟩

end AuthOutcome

/-- `vireo_auth_completion_publish_with` up to the call of `publish`: the completion that is published. -/
def authCompletionPublish (task : AuthTask) (r : AuthTaskResult) : Except Result AuthCompletion :=
  match r.project with
  | .error e => .error e
  | .ok o =>
    match task.metadata.sameRequest r.metadata with
    | .error e => .error e
    | .ok same =>
      if same = false ∨ task.metadata.operation ≠ r.metadata.operation ∨
          task.metadata.deadlineNs ≠ r.metadata.deadlineNs then .error .invalidArgument
      else
        match borrowRequest task r.command with
        | .error (f, _) => .error f.val
        | .ok (_, target) =>
          if target ≠ o.logoutTarget then .error .invalidArgument
          else .ok ⟨⟨task.metadata, r.result, o.metadata.suggestedStatus⟩, o.payload⟩

/-! ## 3. Reading a payload -/

theorem copy_congr {n : Nat} (c : Cells UInt8 n) {xs ys : Bytes} (h : xs.take n = ys.take n) :
    c.copy xs = c.copy ys := by
  apply Subtype.ext
  show overwrite c.val 0 (xs.take n) = overwrite c.val 0 (ys.take n)
  rw [h]

namespace AuthOutcome

variable {o : AuthOutcome}

theorem isSession_iff : o.isSession = true ↔ o.command = commandSessionResume ∨ o.command = commandLogout := by
  rw [isSession, Bool.or_eq_true, decide_eq_true_eq, decide_eq_true_eq]

theorem shape_plain (h : o.shape = true) (hs : o.isSession = false) :
    o.resumeValidated = false ∧ o.logoutTarget = ⟨0, 0⟩ ∧ o.revokedAtMs = 0 ∧ o.alreadyRevoked = false := by
  have hneither : o.command ≠ commandSessionResume ∧ o.command ≠ commandLogout := by
    rw [← not_or, ← isSession_iff, hs]
    exact Bool.false_ne_true
  unfold shape at h
  rw [if_neg hneither.1, if_neg hneither.2] at h
  split at h
  · simp only [credentialShape, Bool.and_eq_true, Bool.not_eq_true', decide_eq_true_eq] at h
    obtain ⟨⟨⟨⟨⟨hresume, huser⟩, hsession⟩, hrevoked⟩, halready⟩, -⟩ := h
    refine ⟨hresume, ?_, hrevoked, halready⟩
    exact congrArg₂ LogoutIdentity.mk huser hsession
  · cases h

@[simp]
theorem length_front : o.front.length = 8 := by simp [front]

@[simp]
theorem length_tail : o.tail.length = if o.isSession then 32 else 0 := by
  unfold tail
  split
  · simp [logoutWords]
  · rfl

theorem length_payload : o.payload.length = if o.isSession then sessionBytes else payloadBytes := by
  have htoken : o.token.val.length = 32 := o.token.property
  unfold payload
  rw [length_append, length_append, length_append, length_front, length_wordsBytes, htoken, length_tail]
  cases o.isSession <;> rfl

theorem byteAt_front {i : Nat} (h : i < 8) (rest : Bytes) : byteAt (o.front ++ rest) i = byteAt o.front i := by
  unfold byteAt
  rw [List.getD_append _ _ _ _ (by rwa [length_front])]

theorem payload_fields : (o.payload).take 4 = [0x56, 0x41, 0x43, if o.isSession then 0x32 else 0x31] ∧
    payloadCommand o.payload = o.command ∧ byteAt o.payload 6 = o.resumeValidated.toUInt8 ∧
      byteAt o.payload 7 = commitByte o.commit := by
  have hfront : ∀ i, i < 8 → byteAt o.payload i = byteAt o.front i := fun i hi => byteAt_front hi _
  refine ⟨?_, ?_, hfront 6 (by decide), hfront 7 (by decide)⟩
  · rfl
  unfold payloadCommand
  rw [hfront 4 (by decide), hfront 5 (by decide)]
  exact readU16Be_write' o.command

theorem payloadCommit_payload : payloadCommit o.payload = o.commit := by
  unfold payloadCommit
  rw [payload_fields.2.2.2]
  cases o.commit <;> rfl

theorem words_payload : wordsAt o.payload 8 6 = o.words := by
  have h := wordsAt_wordsBytes o.front o.words (o.token.val ++ o.tail)
  rwa [length_front] at h

theorem token_payload : (Cells.fill 32 0).copy (o.payload.drop 56) = o.token := by
  have hdrop : o.payload.drop 56 = o.token.val ++ o.tail := by
    unfold payload
    rw [← append_assoc]
    exact drop_left' (by simp [words])
  have htoken : (o.token.val ++ o.tail).take 32 = o.token.val.take 32 := by
    rw [List.take_left' o.token.property, List.take_of_length_le o.token.property.le]
  rw [hdrop, copy_congr _ htoken, Cells.copy_full]

theorem drop_payload (k : Nat) : o.payload.drop (88 + k) = o.tail.drop k := by
  have htoken : o.token.val.length = 32 := o.token.property
  unfold payload
  rw [← append_assoc, ← append_assoc, ← drop_drop]
  rw [drop_left' (by simp [words, htoken])]

theorem tail_session (h : o.isSession = true) :
    o.tail = wordsBytes o.logoutWords ++ [o.alreadyRevoked.toUInt8, 0, 0, 0, 0, 0, 0, 0] := if_pos h

theorem logoutWords_payload (h : o.isSession = true) : wordsAt o.payload 88 3 = o.logoutWords := by
  have hfront : (o.front ++ (wordsBytes o.words ++ o.token.val)).length = 88 := by
    simp [words, o.token.property]
  have hpayload : o.payload = (o.front ++ (wordsBytes o.words ++ o.token.val)) ++
      (wordsBytes o.logoutWords ++ [o.alreadyRevoked.toUInt8, 0, 0, 0, 0, 0, 0, 0]) := by
    rw [payload, tail_session h, append_assoc, append_assoc]
  have hread := wordsAt_wordsBytes (o.front ++ (wordsBytes o.words ++ o.token.val)) o.logoutWords
    [o.alreadyRevoked.toUInt8, 0, 0, 0, 0, 0, 0, 0]
  rw [hpayload]
  rwa [hfront] at hread

theorem end_payload (h : o.isSession = true) :
    o.payload.drop 112 = [o.alreadyRevoked.toUInt8, 0, 0, 0, 0, 0, 0, 0] := by
  rw [show (112 : Nat) = 88 + 24 from rfl, drop_payload 24, tail_session h]
  exact drop_left' (by simp [logoutWords])

theorem toUInt8_bool (b : Bool) : b.toUInt8 ≤ 1 ∧ decide (b.toUInt8 ≠ 0) = b := by cases b <;> decide

theorem already_payload (h : o.isSession = true) : byteAt o.payload 112 = o.alreadyRevoked.toUInt8 := by
  have hdrop := end_payload h
  unfold byteAt
  rw [List.getD_eq_getElem?_getD, ← List.head?_drop, hdrop]
  rfl

theorem outcome_payload (h : o.shape = true) : payloadOutcome o.metadata o.payload = o := by
  obtain ⟨-, hcommand, hresume, -⟩ := o.payload_fields
  have hwords := o.words_payload
  simp only [wordsAt, words, cons.injEq, and_true] at hwords
  obtain ⟨huser, hroot, hsession, haudit, hissued, hexpires⟩ := hwords
  have hvalidated : decide (byteAt o.payload 6 ≠ 0) = o.resumeValidated := by
    rw [hresume]
    exact (toUInt8_bool _).2
  cases hs : o.isSession with
  | false =>
    obtain ⟨-, htarget, hrevoked, halready⟩ := shape_plain h hs
    have hlength : o.payload.length ≠ sessionBytes := by
      rw [length_payload, hs]
      decide
    simp only [payloadOutcome, hcommand, payloadCommit_payload, huser, hroot, hsession, haudit, hissued, hexpires,
      token_payload, hvalidated, hlength, if_false, decide_false, Bool.false_and]
    rw [← htarget, ← hrevoked, ← halready]
  | true =>
    have hlength : o.payload.length = sessionBytes := by
      rw [length_payload, hs]
      rfl
    have hlogout := logoutWords_payload hs
    simp only [wordsAt, logoutWords, cons.injEq, and_true] at hlogout
    obtain ⟨htarget, htargetSession, hrevoked⟩ := hlogout
    have halready : decide (byteAt o.payload 112 ≠ 0) = o.alreadyRevoked := by
      rw [already_payload hs]
      exact (toUInt8_bool _).2
    simp only [payloadOutcome, hcommand, payloadCommit_payload, huser, hroot, hsession, haudit, hissued, hexpires,
      token_payload, hvalidated, hlength, if_true, decide_true, Bool.true_and, htarget, htargetSession, hrevoked,
      halready]

/-- **The payload of an outcome with a shape is accepted**, and the outcome is read back. -/
theorem decode_payload (h : o.shape = true) (hm : o.metadata.hasValidShape = true) :
    authCompletionDecode o.completion = .ok o := by
  obtain ⟨hmark, hcommand, hresume, hcommit⟩ := o.payload_fields
  have hmake : make o.metadata.request o.metadata.result o.metadata.suggestedStatus = .ok o.metadata := by
    rw [make_eq, hm, if_neg (by decide)]
  have hcommitByte : commitByte o.commit ≤ 2 := by cases o.commit <;> decide
  have hkind : (o.payload.length = sessionBytes) =
      (payloadCommand o.payload = commandSessionResume ∨ payloadCommand o.payload = commandLogout) := by
    rw [hcommand, ← isSession_iff, length_payload]
    cases o.isSession <;> decide
  have hrefused : payloadRefused o.payload = false := by
    unfold payloadRefused
    rw [hmark, hcommit, hresume, length_payload]
    cases hs : o.isSession with
    | false =>
      have hnone : o.resumeValidated.toUInt8 = 0 := by
        rw [(shape_plain h hs).1]
        rfl
      simp [payloadBytes, sessionBytes, not_lt.mpr hcommitByte, hnone]
    | true =>
      simp [not_lt.mpr hcommitByte, not_lt.mpr (toUInt8_bool o.resumeValidated).1]
  have htail : ¬ (o.payload.length = sessionBytes ∧
      (byteAt o.payload 112 > 1 ∨ (o.payload.drop 113).any (· ≠ 0) = true)) := by
    rintro ⟨hlength, hbad⟩
    have hs : o.isSession = true := by
      rw [length_payload] at hlength
      cases hs : o.isSession with
      | false =>
        rw [hs] at hlength
        exact absurd hlength (by decide)
      | true => rfl
    have hzeros : o.payload.drop 113 = [0, 0, 0, 0, 0, 0, 0] := by
      rw [show (113 : Nat) = 112 + 1 from rfl, ← drop_drop, end_payload hs]
      rfl
    rw [already_payload hs, hzeros] at hbad
    exact hbad.elim (not_lt.mpr (toUInt8_bool _).1) (by decide)
  unfold authCompletionDecode completion
  rw [hmake]
  dsimp only
  rw [if_neg (by rw [hrefused]; exact Bool.false_ne_true), if_neg (not_not.mpr hkind), if_neg htail, outcome_payload h,
    if_neg (by rw [h]; decide)]

/-! ## 4. And back -/

theorem toUInt8_decide {b : UInt8} (h : ¬ b > 1) : (decide (b ≠ 0)).toUInt8 = b := by
  have hle : b.toNat ≤ 1 := UInt8.le_iff_toNat_le.mp (not_lt.mp h)
  have hcases : b.toNat = (0 : UInt8).toNat ∨ b.toNat = (1 : UInt8).toNat := by
    show b.toNat = 0 ∨ b.toNat = 1
    omega
  rcases hcases with hb | hb
  · rw [toNat_inj.mp hb]
    rfl
  · rw [toNat_inj.mp hb]
    rfl

theorem commitByte_payloadCommit {p : Bytes} (h : ¬ byteAt p 7 > 2) : commitByte (payloadCommit p) = byteAt p 7 := by
  have hle : (byteAt p 7).toNat ≤ 2 := UInt8.le_iff_toNat_le.mp (not_lt.mp h)
  unfold payloadCommit
  split
  · rename_i h0
    rw [h0]
    rfl
  split
  · rename_i h1
    rw [h1]
    rfl
  · rename_i h0 h1
    have h0' : (byteAt p 7).toNat ≠ 0 := fun e => h0 (toNat_inj.mp e)
    have h1' : (byteAt p 7).toNat ≠ 1 := fun e => h1 (toNat_inj.mp e)
    have h2 : (byteAt p 7).toNat = 2 := by omega
    exact (toNat_inj.mp (h2 : (byteAt p 7).toNat = (2 : UInt8).toNat)).symm

theorem take_byteAt {p : Bytes} {k n : Nat} (h : k < p.length) :
    (p.drop k).take (n + 1) = byteAt p k :: (p.drop (k + 1)).take n := by
  rw [List.drop_eq_getElem_cons h, List.take_succ_cons, byteAt, List.getD_eq_getElem _ _ h]

section Accepted

variable {m : CompletionMetadata} {p : Bytes}

/-- What the checks in front of the shape accept. -/
structure WellFormed (p : Bytes) : Prop where
  length : p.length = if payloadCommand p = commandSessionResume ∨ payloadCommand p = commandLogout then sessionBytes
    else payloadBytes
  mark : p.take 4 = [0x56, 0x41, 0x43, if p.length = sessionBytes then 0x32 else 0x31]
  commit : ¬ byteAt p 7 > 2
  resume : ¬ byteAt p 6 > 1
  already : p.length = sessionBytes → ¬ byteAt p 112 > 1
  zeros : p.length = sessionBytes → p.drop 113 = [0, 0, 0, 0, 0, 0, 0]

section

variable (h : WellFormed p)
include h

theorem WellFormed.isSession : (payloadOutcome m p).isSession = decide (p.length = sessionBytes) := by
  rw [Bool.eq_iff_iff, isSession_iff, decide_eq_true_eq, h.length]
  show payloadCommand p = _ ∨ payloadCommand p = _ ↔ _
  split <;> simp_all [sessionBytes, payloadBytes]

theorem front_outcome : (payloadOutcome m p).front = p.take 8 := by
  have hlength : 8 ≤ p.length := by
    rw [h.length]
    split <;> decide
  have hcommand : writeU16Be (payloadCommand p) = (p.drop 4).take 2 := by
    have hread : payloadCommand p = readU16Be (p.drop 4) := by
      simp [payloadCommand, readU16Be, byteAt]
    rw [hread]
    exact writeU16Be_read (by rw [length_drop]; omega)
  have hlast : (p.drop 6).take 2 = [byteAt p 6, byteAt p 7] := by
    rw [take_byteAt (by omega), take_byteAt (by omega), List.take_zero]
  have hmark : (if (payloadOutcome m p).isSession = true then (0x32 : UInt8) else 0x31) =
      if p.length = sessionBytes then 0x32 else 0x31 := by
    rw [h.isSession]
    simp
  calc (payloadOutcome m p).front = p.take 4 ++ (p.drop 4).take 2 ++ (p.drop 6).take 2 := by
        rw [hlast, ← hcommand, h.mark, front, hmark]
        show _ ++ _ ++ [(decide (byteAt p 6 ≠ 0)).toUInt8, commitByte (payloadCommit p)] = _
        rw [toUInt8_decide h.resume, commitByte_payloadCommit h.commit]
        rfl
    _ = p.take 8 := by
        rw [append_assoc, show p.drop 6 = (p.drop 4).drop 2 by rw [drop_drop], ← take_add, ← take_add]

theorem tail_outcome : (payloadOutcome m p).tail = p.drop 88 := by
  unfold tail
  rw [h.isSession]
  by_cases hs : p.length = sessionBytes
  · have hwords : (payloadOutcome m p).logoutWords = wordsAt p 88 3 := by
      simp only [logoutWords, payloadOutcome, hs, if_true, wordsAt]
    have halready : ((payloadOutcome m p).alreadyRevoked).toUInt8 = byteAt p 112 := by
      have hbyte := toUInt8_decide (h.already hs)
      simpa only [payloadOutcome, hs, decide_true, Bool.true_and] using hbyte
    have hend : p.drop 112 = [byteAt p 112, 0, 0, 0, 0, 0, 0, 0] := by
      have hone := take_byteAt (n := 7) (show 112 < p.length by rw [hs]; decide)
      rw [h.zeros hs, List.take_of_length_le (by rw [length_drop, hs]; decide)] at hone
      exact hone
    rw [if_pos (decide_eq_true hs), hwords, halready, wordsBytes_wordsAt (by rw [hs]; decide), ← hend,
      show p.drop 112 = (p.drop 88).drop 24 by rw [drop_drop]]
    exact take_append_drop 24 _
  · rw [if_neg (by simpa using hs)]
    have hlength : p.length = payloadBytes := by
      have hl := h.length
      split at hl
      · exact absurd hl hs
      · exact hl
    exact (List.drop_of_length_le hlength.le).symm

/-- **Bytes that are accepted** are the payload of what is read of them. -/
theorem payload_outcome : (payloadOutcome m p).payload = p := by
  have hlength : 88 ≤ p.length := by
    rw [h.length]
    split <;> decide
  have hwords : (payloadOutcome m p).words = wordsAt p 8 6 := rfl
  have htoken : (payloadOutcome m p).token.val = (p.drop 56).take 32 := by
    show overwrite _ 0 ((p.drop 56).take 32) = _
    have hcells : ((p.drop 56).take 32).length = 32 := by
      rw [List.length_take, length_drop]
      omega
    have hcopy := Cells.copy_full (.fill 32 0) ⟨(p.drop 56).take 32, hcells⟩
    have hval := congrArg Subtype.val hcopy
    change overwrite _ 0 (((p.drop 56).take 32).take 32) = _ at hval
    rwa [List.take_take, Nat.min_self] at hval
  calc (payloadOutcome m p).payload
      = p.take 8 ++ ((p.drop 8).take 48 ++ ((p.drop 56).take 32 ++ p.drop 88)) := by
        rw [payload, front_outcome h, hwords, wordsBytes_wordsAt (by omega), htoken, tail_outcome h]
    _ = p.take 8 ++ ((p.drop 8).take 48 ++ p.drop 56) := by
        rw [show p.drop 88 = (p.drop 56).drop 32 by rw [drop_drop], take_append_drop]
    _ = p.take 8 ++ p.drop 8 := by
        rw [show p.drop 56 = (p.drop 8).drop 48 by rw [drop_drop], take_append_drop]
    _ = p := take_append_drop 8 p

end

theorem wellFormed_of_decode (h : authCompletionDecode ⟨m, p⟩ = .ok o) : WellFormed p ∧ o = payloadOutcome m p ∧
    o.shape = true ∧ m.hasValidShape = true := by
  unfold authCompletionDecode at h
  dsimp only at h
  split at h
  · cases h
  rename_i m' hmake
  rw [make_eq] at hmake
  split at hmake
  · cases hmake
  rename_i hm
  cases hmake
  split at h
  · cases h
  rename_i hrefused
  split at h
  · cases h
  rename_i hkind
  split at h
  · cases h
  rename_i htail
  split at h
  · cases h
  rename_i hshape
  cases h
  rw [not_not] at hkind
  have hlength : p.length = if payloadCommand p = commandSessionResume ∨ payloadCommand p = commandLogout then sessionBytes
      else payloadBytes := by
    unfold payloadRefused at hrefused
    by_cases hs : p.length = sessionBytes
    · rw [if_pos (hkind.mp hs)]
      exact hs
    · rw [if_neg hs] at hrefused
      rw [if_neg (fun hc => hs (hkind.mpr hc))]
      by_contra hne
      simp [hne] at hrefused
  refine ⟨⟨hlength, ?_, ?_, ?_, fun hs hbad => htail ⟨hs, .inl hbad⟩, fun hs => ?_⟩, rfl,
    (Bool.not_eq_false _).mp hshape, (Bool.not_eq_false _).mp hm⟩
  · unfold payloadRefused at hrefused
    split at hrefused <;> simp_all
  · intro hbad
    unfold payloadRefused at hrefused
    split at hrefused <;> simp_all
  · intro hbad
    unfold payloadRefused at hrefused
    split at hrefused
    · simp_all
    · have hpos : byteAt p 6 > 0 := UInt8.lt_trans (by decide : (0 : UInt8) < 1) hbad
      simp_all
  · have hzeros : (p.drop 113).any (· ≠ 0) ≠ true := fun hbad => htail ⟨hs, .inr hbad⟩
    have hall : ∀ b ∈ p.drop 113, b = 0 := by simpa using hzeros
    have hseven : (p.drop 113).length = 7 := by
      rw [length_drop, hs]
      rfl
    exact (List.eq_replicate_iff.mpr ⟨hseven, hall⟩).trans rfl

end Accepted

end AuthOutcome

/-- **The decoder accepts the payloads of the outcomes with a shape, and nothing else.** -/
theorem decode_iff (m : CompletionMetadata) (p : Bytes) : (∃ o, authCompletionDecode ⟨m, p⟩ = .ok o) ↔
      ∃ o : AuthOutcome, o.shape = true ∧ o.metadata = m ∧ m.hasValidShape = true ∧ o.payload = p := by
  constructor
  · rintro ⟨o, h⟩
    obtain ⟨hwell, rfl, hshape, hm⟩ := wellFormed_of_decode h
    exact ⟨_, hshape, rfl, hm, payload_outcome hwell⟩
  · rintro ⟨o, hshape, rfl, hm, rfl⟩
    exact ⟨o, decode_payload hshape hm⟩

/-! ## 5. What a shape says -/

namespace AuthOutcome

variable {o : AuthOutcome}

theorem shape_unknown (h : o.shape = true) (hu : o.commit = .unknown) : o.metadata.suggestedStatus = 1902 := by
  unfold shape at h
  split at h
  · simp [resumeShape, hu] at h
  split at h
  · simp [logoutShape, hu] at h
    exact h.2.2
  split at h
  · simp [credentialShape, hu] at h
    exact h.2.2
  · cases h

theorem shape_ok (h : o.shape = true) (hs : o.metadata.suggestedStatus = 0) :
    if o.command = commandSessionResume then o.resumeValidated = true else o.commit = .committed := by
  unfold shape at h
  split at h
  · rename_i hc
    rw [if_pos hc]
    by_contra hne
    simp [resumeShape, hne, failed, hs] at h
  rename_i hc
  rw [if_neg hc]
  split at h
  · by_contra hne
    simp [logoutShape, hne, failed, hs] at h
  split at h
  · by_contra hne
    simp [credentialShape, hne, failed, hs] at h
  · cases h

theorem shape_token (h : o.shape = true) (ht : o.token ≠ .fill 32 0) :
    o.command = commandLogin ∧ o.metadata.suggestedStatus = 0 ∧ o.commit = .committed := by
  have hz : zeroBytes o.token.val ≠ true := fun hz => ht (zeroBytes_iff.mp hz)
  unfold shape at h
  split at h
  · simp [resumeShape, hz] at h
  split at h
  · simp [logoutShape, hz] at h
  split at h
  · rename_i hc
    by_cases hcommit : o.commit = .committed
    · by_cases hr : o.command = commandRegister
      · simp [credentialShape, hcommit, hr, hz] at h
      · simp [credentialShape, hcommit] at h
        exact ⟨hc.resolve_left hr, h.2.1.1.1, hcommit⟩
    · simp [credentialShape, hcommit, hz] at h
  · cases h

end AuthOutcome

/-! ## 6. Results that can be told -/

namespace AuthTaskResult

variable {r : AuthTaskResult} {task : AuthTask}

/-- What a status is: OK for a commit and a validated session only, 1902 for a commit of which nothing is known. -/
theorem status_eq (r : AuthTaskResult) : statusIsKnown r.status = true ∧
    (r.status = 0 ↔ r.commit = .committed ∨ r.resumeValidated = true) ∧
      (r.commit = .unknown → r.resumeValidated = false → r.status = 1902) := by
  unfold status
  split
  · rename_i hok
    exact ⟨by decide, ⟨fun _ => hok, fun _ => rfl⟩, fun hu hv => absurd hok (by simp [hu, hv])⟩
  rename_i hno
  have hkeep : ∀ {x : UInt16}, x ≠ 0 → (x = 0 ↔ r.commit = .committed ∨ r.resumeValidated = true) := fun hx =>
    ⟨fun h => absurd h hx, fun h => absurd h hno⟩
  split
  · exact ⟨by decide, hkeep (by decide), fun _ _ => rfl⟩
  rename_i hknown
  have hnever : ∀ {x : UInt16}, r.commit = .unknown → r.resumeValidated = false → x = 1902 := fun hu _ =>
    absurd hu hknown
  split
  · exact ⟨by decide, hkeep (by decide), hnever⟩
  split
  · exact ⟨by decide, hkeep (by decide), hnever⟩
  split
  · exact ⟨by decide, hkeep (by decide), hnever⟩
  split
  · exact ⟨by decide, hkeep (by decide), hnever⟩
  split
  · exact ⟨by decide, hkeep (by decide), hnever⟩
  split
  · exact ⟨by decide, hkeep (by decide), hnever⟩
  · exact ⟨by decide, hkeep (by decide), hnever⟩

/-- The transaction of a result is confirmed committed; a resume, its session validated. -/
def Confirmed (r : AuthTaskResult) : Prop :=
  if r.command = commandRegister then r.registration.commit = .committed
  else if r.command = commandLogin then r.login.transaction.commit = .committed
  else if r.command = commandLogout then r.logoutReport.commit = .committed
  else r.resumeReport.valid = true

/-- The metadata of the completion of a result. -/
def completionMetadata (r : AuthTaskResult) : CompletionMetadata := ⟨r.metadata, r.result, r.status⟩

namespace Sound

theorem not_refused (h : r.Sound task) : ¬ r.Refused := by
  obtain ⟨view, hrequest⟩ := h.request
  obtain ⟨-, hmember, -⟩ := borrowRequest_ok hrequest
  rintro (hstage | hcommand | ⟨hvalid, hbad⟩ | ⟨hlogout, hsession⟩ | ⟨hstage, hcommit⟩)
  · exact h.staged hstage
  · exact absurd (List.contains_iff_mem.mpr hmember) (by rw [hcommand]; exact Bool.false_ne_true)
  · unfold resumeValidated at hvalid
    rw [Bool.and_eq_true, decide_eq_true_eq] at hvalid
    obtain ⟨-, -, hfinished⟩ := (h.resume hvalid.1).valid hvalid.2
    rcases hbad with hstage | hpending
    · exact absurd ((h.early hstage).2.2.2.symm.trans hvalid.2) Bool.false_ne_true
    · exact absurd (hfinished.symm.trans hpending) Bool.false_ne_true
  · obtain ⟨hcommitted, hotherwise, -⟩ := h.logout hlogout
    refine hsession ?_
    by_cases hc : r.logoutReport.commit = .committed
    · obtain ⟨v, hv, hout⟩ := hcommitted hc
      rw [if_pos hc, WriteReport.fields, hv]
      exact hout.1
    · rw [if_neg hc, WriteReport.fields, hotherwise hc]
      rfl
  · obtain ⟨hregistration, hlogin, hlogout, -⟩ := h.early hstage
    refine hcommit ?_
    unfold commit
    split
    · exact hlogin
    split
    · rfl
    split
    · exact hlogout
    · exact hregistration

theorem metadata_valid (h : r.Sound task) : r.completionMetadata.hasValidShape = true := by
  unfold hasValidShape completionMetadata
  rw [h.metadata, TaskMetadata.sameRequest_eq task.valid task.valid, r.status_eq.1]
  simp [TaskMetadata.SameRequest]

end Sound

@[simp]
theorem outcome_metadata (r : AuthTaskResult) (m : CompletionMetadata) : (r.outcome m).metadata = m := by
  unfold outcome
  split
  · rfl
  split
  · rfl
  split <;> rfl

theorem commands_apart : commandLogin ≠ commandSessionResume ∧ commandLogout ≠ commandSessionResume ∧
    commandRegister ≠ commandSessionResume ∧ commandLogin ≠ commandLogout ∧ commandRegister ≠ commandLogout ∧
      commandLogin ≠ commandRegister ∧ commandLogout ≠ commandLogin ∧ commandRegister ≠ commandLogin ∧
        commandSessionResume ≠ commandLogin ∧ commandSessionResume ≠ commandLogout := by decide

theorem zeroBytes_fill : zeroBytes (Cells.fill 32 (0 : UInt8)).val = true := zeroBytes_iff.mpr rfl

theorem failed_of_ne {m : CompletionMetadata} (hr : m.result ≠ .ok) (hs : m.suggestedStatus ≠ 0) : failed m = true := by
  simp [failed, hr, hs]

@[simp]
theorem authCommit_committed {c : Commit} : authCommit c = .committed ↔ c = .committed := by cases c <;> decide

theorem authCommit_unknown {c : Commit} : authCommit c = .unknown ↔ c = .unknown := by cases c <;> decide

theorem status_cases (hv : r.resumeValidated = false) : (r.commit = .committed ∧ r.status = 0) ∨
      (r.commit ≠ .committed ∧ r.status ≠ 0 ∧ (authCommit r.commit ≠ .unknown ∨ r.status = 1902)) := by
  obtain ⟨-, hok, hunknown⟩ := r.status_eq
  by_cases hc : r.commit = .committed
  · exact .inl ⟨hc, hok.mpr (.inl hc)⟩
  refine .inr ⟨hc, fun h0 => ?_, ?_⟩
  · rcases hok.mp h0 with h | h
    · exact hc h
    · exact absurd (hv.symm.trans h) Bool.false_ne_true
  · by_cases hu : r.commit = .unknown
    · exact .inr (hunknown hu hv)
    · exact .inl (fun h => hu (authCommit_unknown.mp h))

namespace Sound

section

variable (h : r.Sound task)
include h

theorem shape_register (hc : r.command = commandRegister) :
    (r.outcome r.completionMetadata).shape = true := by
  obtain ⟨-, -, hr1, -, hr2, -, -, hr3, -, -⟩ := commands_apart
  obtain ⟨hcommitted, hotherwise, hok⟩ := h.registration hc
  have hv : r.resumeValidated = false := by simp [resumeValidated, hc, hr1]
  have hcommit : r.commit = r.registration.commit := by simp [commit, hc, hr1, hr2, hr3]
  have hshape : (r.outcome r.completionMetadata).shape = (r.outcome r.completionMetadata).credentialShape := by
    simp [shape, outcome, hc, hr1, hr2, hr3]
  rw [hshape]
  rcases status_cases hv with ⟨hfact, hs⟩ | ⟨hfact, hs, hlast⟩
  · obtain ⟨ids, hids, huser, hroot, haudit⟩ := hcommitted (hcommit.symm.trans hfact)
    simp [credentialShape, outcome, hc, hr1, hr2, hr3, hv, hfact, completionMetadata, hs,
      WriteReport.fields, hids, huser, hroot, haudit, zeroBytes_fill]
  · have hne : r.registration.commit ≠ .committed := hcommit ▸ hfact
    have hrc : r.result ≠ .ok := fun hk => hne (hok hk)
    have hfields : r.registration.fields = {} := by rw [WriteReport.fields, hotherwise hne]; rfl
    have hfailed : failed ⟨r.metadata, r.result, r.status⟩ = true := failed_of_ne hrc hs
    simpa [credentialShape, outcome, hc, hr1, hr2, hr3, hv, hfact, completionMetadata, hfields, hfailed,
      zeroBytes_fill] using hlast

theorem shape_login (hc : r.command = commandLogin) : (r.outcome r.completionMetadata).shape = true := by
  obtain ⟨hl1, -, -, hl2, -, hl3, -, -, -, -⟩ := commands_apart
  obtain ⟨⟨hcommitted, hotherwise, hok⟩, hgranted, hwithheld⟩ := h.login hc
  have hv : r.resumeValidated = false := by simp [resumeValidated, hc, hl1]
  have hcommit : r.commit = r.login.transaction.commit := by simp [commit, hc]
  have hshape : (r.outcome r.completionMetadata).shape = (r.outcome r.completionMetadata).credentialShape := by
    simp [shape, outcome, hc, hl1, hl2, hl3]
  rw [hshape]
  rcases status_cases hv with ⟨hfact, hs⟩ | ⟨hfact, hs, hlast⟩
  · obtain ⟨ids, hids, hsession, haudit⟩ := hcommitted (hcommit.symm.trans hfact)
    obtain ⟨huser, hexpires⟩ := hgranted (hcommit.symm.trans hfact)
    simp [credentialShape, outcome, hc, hl3, hv, hfact, completionMetadata, hs, WriteReport.fields, hids,
      huser, hsession, haudit, hexpires]
  · have hne : r.login.transaction.commit ≠ .committed := hcommit ▸ hfact
    have hrc : r.result ≠ .ok := fun hk => hne (hok hk)
    have hfields : r.login.transaction.fields = {} := by rw [WriteReport.fields, hotherwise hne]; rfl
    have hfailed : failed ⟨r.metadata, r.result, r.status⟩ = true := failed_of_ne hrc hs
    obtain ⟨huser, hissued, hexpires, htoken⟩ := hwithheld hne
    simpa [credentialShape, outcome, hc, hv, hfact, completionMetadata, hfields, hfailed, huser, hissued,
      hexpires, htoken, zeroBytes_fill] using hlast

theorem shape_logout (hc : r.command = commandLogout) : (r.outcome r.completionMetadata).shape = true := by
  obtain ⟨-, hl1, -, -, -, -, hl2, -, -, -⟩ := commands_apart
  obtain ⟨view, hrequest⟩ := h.request
  obtain ⟨-, -, htarget, -⟩ := borrowRequest_ok hrequest
  rw [if_pos hc] at htarget
  obtain ⟨hcommitted, hotherwise, hok⟩ := h.logout hc
  have hv : r.resumeValidated = false := by simp [resumeValidated, hc, hl1]
  have hcommit : r.commit = r.logoutReport.commit := by simp [commit, hc, hl1, hl2]
  have hshape : (r.outcome r.completionMetadata).shape = (r.outcome r.completionMetadata).logoutShape := by
    simp [shape, outcome, hc, hl1, hl2]
  rw [hshape]
  rcases status_cases hv with ⟨hfact, hs⟩ | ⟨hfact, hs, hlast⟩
  · obtain ⟨fields, hfields, -, halready⟩ := hcommitted (hcommit.symm.trans hfact)
    have haudit : if fields.alreadyRevoked = true then fields.auditId = 0 else fields.auditId ≠ 0 := by
      split
      · exact halready.mp ‹_›
      · exact fun h0 => ‹¬ _› (halready.mpr h0)
    simpa [logoutShape, outcome, hc, hl1, hl2, hv, hfact, authCommit, completionMetadata, hs,
      WriteReport.fields, hfields, htarget.1, htarget.2, zeroBytes_fill] using haudit
  · have hne : r.logoutReport.commit ≠ .committed := hcommit ▸ hfact
    have hrc : r.result ≠ .ok := fun hk => hne (hok hk)
    have hfields : r.logoutReport.fields = {} := by rw [WriteReport.fields, hotherwise hne]; rfl
    have hfailed : failed ⟨r.metadata, r.result, r.status⟩ = true := failed_of_ne hrc hs
    simpa [logoutShape, outcome, hc, hl1, hl2, hv, hfact, completionMetadata, hfields, hfailed, htarget.1,
      htarget.2, zeroBytes_fill] using hlast

theorem shape_resume (hc : r.command = commandSessionResume) :
    (r.outcome r.completionMetadata).shape = true := by
  obtain ⟨-, -, -, -, -, -, -, -, hs1, -⟩ := commands_apart
  obtain ⟨hvalid, hinvalid⟩ := h.resume hc
  have hcommit : r.commit = .notCommitted := by simp [commit, hc, hs1]
  have hv : r.resumeValidated = r.resumeReport.valid := by simp [resumeValidated, hc]
  have hshape : (r.outcome r.completionMetadata).shape = (r.outcome r.completionMetadata).resumeShape := by
    simp [shape, outcome, hc, hs1]
  rw [hshape]
  obtain ⟨-, hok, -⟩ := r.status_eq
  cases hvalidated : r.resumeReport.valid with
  | true =>
    obtain ⟨hrc, ⟨huser, hsession, hexpires⟩, -⟩ := hvalid hvalidated
    have hs : r.status = 0 := hok.mpr (.inr (hv.trans hvalidated))
    simp [resumeShape, outcome, hc, hs1, hcommit, authCommit, hv, hvalidated, completionMetadata, hs, hrc,
      huser, hsession, hexpires, zeroBytes_fill]
  | false =>
    obtain ⟨hrc, hidentity⟩ := hinvalid hvalidated
    have hs : r.status ≠ 0 := fun h0 => by
      rcases hok.mp h0 with hcm | hcm
      · exact absurd (hcommit.symm.trans hcm) (by decide)
      · exact absurd (hvalidated.symm.trans (hv.symm.trans hcm)) Bool.false_ne_true
    have hfailed : failed ⟨r.metadata, r.result, r.status⟩ = true := failed_of_ne hrc hs
    simp [resumeShape, outcome, hc, hs1, hcommit, authCommit, hv, hvalidated, completionMetadata, hfailed,
      hidentity, zeroBytes_fill]

theorem project :
    r.project = .ok (r.outcome r.completionMetadata) ∧ (r.outcome r.completionMetadata).shape = true := by
  obtain ⟨view, hrequest⟩ := h.request
  obtain ⟨-, hmember, -⟩ := borrowRequest_ok hrequest
  have hshape : (r.outcome r.completionMetadata).shape = true := by
    simp only [authCommands, mem_cons, List.not_mem_nil, or_false] at hmember
    rcases hmember with hc | hc | hc | hc
    · exact h.shape_register hc
    · exact h.shape_login hc
    · exact h.shape_logout hc
    · exact h.shape_resume hc
  refine ⟨?_, hshape⟩
  have hmake : make r.metadata r.result r.status = .ok r.completionMetadata := by
    have hm := make_eq r.completionMetadata
    rw [h.metadata_valid, if_neg (by decide)] at hm
    exact hm
  unfold AuthTaskResult.project
  rw [if_neg h.not_refused, hmake]
  dsimp only
  rw [hshape, if_neg (by decide)]

theorem target : (r.outcome r.completionMetadata).logoutTarget = r.logoutTarget := by
  obtain ⟨view, hrequest⟩ := h.request
  obtain ⟨-, -, htarget, -⟩ := borrowRequest_ok hrequest
  obtain ⟨-, hl1, -, -, -, -, hl2, -, -, -⟩ := commands_apart
  by_cases hc : r.command = commandLogout
  · simp [outcome, hc, hl1, hl2]
  rw [if_neg hc] at htarget
  rw [htarget]
  unfold outcome
  split
  · rfl
  split
  · rfl
  · rfl

theorem publish : authCompletionPublish task r = .ok (r.outcome r.completionMetadata).completion := by
  obtain ⟨view, hrequest⟩ := h.request
  unfold authCompletionPublish
  rw [h.project.1]
  dsimp only
  rw [h.metadata, TaskMetadata.sameRequest_eq task.valid task.valid]
  dsimp only
  rw [if_neg (by simp [TaskMetadata.SameRequest]), hrequest]
  dsimp only
  rw [if_neg (not_not.mpr h.target.symm), ← h.metadata, completion, outcome_metadata]
  rfl

theorem confirmed : r.status = 0 ↔ r.Confirmed := by
  obtain ⟨view, hrequest⟩ := h.request
  obtain ⟨-, hmember, -⟩ := borrowRequest_ok hrequest
  obtain ⟨-, hok, -⟩ := r.status_eq
  rw [hok]
  simp only [authCommands, mem_cons, List.not_mem_nil, or_false] at hmember
  rcases hmember with hc | hc | hc | hc
  · simp [Confirmed, commit, resumeValidated, hc, commands_apart]
  · simp [Confirmed, commit, resumeValidated, hc, commands_apart]
  · simp [Confirmed, commit, resumeValidated, hc, commands_apart, commands_apart.2.2.2.2.1.symm]
  · simp [Confirmed, commit, resumeValidated, hc, commands_apart, commands_apart.2.2.1.symm]

end

end Sound

end AuthTaskResult

/-! ## 7. What arrives -/

/-- A result is accepted, published and read back, and it is a success when that was confirmed. -/
structure Arrives (task : AuthTask) (r : AuthTaskResult) (out : AuthOutcome) : Prop where
  projected : r.project = .ok out
  published : authCompletionPublish task r = .ok out.completion
  decoded : authCompletionDecode out.completion = .ok out
  confirmed : out.metadata.suggestedStatus = 0 ↔ r.Confirmed

theorem AuthTaskResult.Sound.arrives {task : AuthTask} {r : AuthTaskResult} (h : r.Sound task) :
    Arrives task r (r.outcome r.completionMetadata) := by
  obtain ⟨hproject, hshape⟩ := h.project
  refine ⟨hproject, h.publish, decode_payload hshape ?_, ?_⟩
  · rw [AuthTaskResult.outcome_metadata]
    exact h.metadata_valid
  · rw [AuthTaskResult.outcome_metadata]
    exact h.confirmed

/-- **The payload of an authentication completion.** Every outcome with a shape is read back from its payload,
    and nothing else is accepted; a success was committed or is a validated session, and a token is that of a
    login that was committed. -/
theorem auth_completion_payload {W : Type} (rt : AuthRuntime W) (hops : Consumes rt.ops) (o : AuthWorkerOptions)
    (task : AuthTask) (i : AuthWorkerInputs) (w : W) (hvalid : (authWorkerRun rt o task i w).taskValidated = true) :
    (∃ out, Arrives task (authWorkerRun rt o task i w).result out) ∧
    (∀ out : AuthOutcome, out.shape = true → out.metadata.hasValidShape = true →
      out.payload.length = (if out.isSession then sessionBytes else payloadBytes) ∧
        authCompletionDecode out.completion = .ok out) ∧
    (∀ m p, (∃ out, authCompletionDecode ⟨m, p⟩ = .ok out) ↔
      ∃ out : AuthOutcome, out.shape = true ∧ out.metadata = m ∧ m.hasValidShape = true ∧ out.payload = p) ∧
    ∀ out : AuthOutcome, out.shape = true →
      (out.metadata.suggestedStatus = 0 →
        if out.command = commandSessionResume then out.resumeValidated = true else out.commit = .committed) ∧
      (out.commit = .unknown → out.metadata.suggestedStatus ≠ 0) ∧
      (out.token ≠ .fill 32 0 →
        out.command = commandLogin ∧ out.metadata.suggestedStatus = 0 ∧ out.commit = .committed) := by
  refine ⟨⟨_, (authWorkerRun_sound rt hops o task i w hvalid).arrives⟩, ?_, decode_iff, ?_⟩
  · exact fun out hshape hm => ⟨out.length_payload, decode_payload hshape hm⟩
  intro out hshape
  refine ⟨shape_ok hshape, fun hu h0 => ?_, shape_token hshape⟩
  rw [shape_unknown hshape hu] at h0
  exact absurd h0 (by decide)

/-- A runtime whose database has one session, which is read once. -/
def sessionRuntime : AuthRuntime Bool where
  ops :=
    { allocate := fun w => (true, w)
      acquire := fun _ w => ({ result := .ok }, w)
      borrow := fun w => (.ok, w)
      prepare := fun _ _ w => ({ result := .ok }, w)
      execute := fun _ _ w => ({ result := .ok, execution := { started := true, hasResult := true } }, w)
      fetch := fun _ w => ({ result := .ok, outcome := if w then .row else .done }, false)
      column := fun _ i w =>
        (.ok (([6, 9, 1, 1000, 900000].map Persistence.u64Cell ++
          [none, Persistence.u64Cell 1000, Persistence.u64Cell 1]).getD i none), w)
      close := fun _ w => ({ result := .ok }, w)
      utc := fun w => (⟨0, ⟨0, 0⟩⟩, w)
      release := fun _ w => ({ result := .ok, released := true }, w) }
  policy := ⟨65536, 3, 65536, 3, 64⟩
  hash := fun _ w => ((.ok, []), w)
  verify := fun _ _ w => ((.ok, false), w)
  token := fun w => ((.ok, .fill 32 0, Vector.replicate 32 0), w)
  digest := fun _ w => ((.ok, Vector.replicate 32 0), w)

/-- A worker of four operations. -/
def plainOptions : AuthWorkerOptions where
  execution := ⟨1, 2, 3, 4, 100⟩
  requestTimeoutNs := 1000
  sessionLifetimeMs := 1
  operations := by decide
  timeout := by decide
  lifetime := by decide
  wait := by decide

/-- A session is resumed with its token. -/
def resumeTask : AuthTask where
  metadata := ⟨⟨1, 0, 1, 7⟩, 1, 4, 5000⟩
  payload := sealedFrame ⟨commandSessionResume, 0, 0, 36, 7, 0, 0, 0⟩
    (TlvField.encode ⟨tlvSessionToken, List.replicate 32 1, by decide⟩)
  valid := ⟨by decide, by decide, by decide, by decide, by decide⟩

/-- Its worker runs in time. -/
def timelyInputs : AuthWorkerInputs where
  attach := .ok
  repositoryCreate := .ok
  samples := ⟨(1, Vector.replicate 16 1), ⟨0, ⟨100, 0⟩⟩, .ok 4500⟩
  cancelRequested := false

/-- The session that is found arrives as validated, with its ids. -/
theorem auth_completion_payload_resumed :
    ∃ out, Arrives resumeTask (authWorkerRun sessionRuntime plainOptions resumeTask timelyInputs true).result out ∧
      out.metadata.suggestedStatus = 0 ∧ out.resumeValidated = true ∧ out.sessionId = 6 ∧ out.userId = 9 := by
  obtain ⟨out, arrives⟩ := (auth_completion_payload sessionRuntime ⟨fun _ _ _ => rfl, fun _ _ _ => rfl⟩ plainOptions
    resumeTask timelyInputs true (by decide +kernel)).1
  have hfound : (authWorkerRun sessionRuntime plainOptions resumeTask timelyInputs true).result.project.toOption.map
      (fun out => (out.metadata.suggestedStatus, out.resumeValidated, out.sessionId, out.userId)) = some (0, true, 6, 9) := by
    decide +kernel
  rw [arrives.projected] at hfound
  exact ⟨out, arrives, by simpa [Except.toOption] using hfound⟩

end Vireo.Service
