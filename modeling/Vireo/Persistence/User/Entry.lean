/-
  File:      Vireo/Persistence/User/Entry.lean
  Subject:   THE ENTRIES OF THE USER REPOSITORY (`src/persistence/mysql_user_repository.c`).
-/
import Vireo.Persistence.User.Write
import Vireo.Security.PasswordPhc

namespace Vireo.Persistence.User

open Lib Security

/-! ## 1. What the entries check -/

/-- `VIREO_MYSQL_POOL_WAIT_MS_MAX`. -/
def poolWaitMsMax : UInt32 := 60000

/-- `VIREO_PASSWORD_ENCODED_CAPACITY`. -/
def passwordEncodedCapacity : Nat := 128

/-- The id of a request: 16 bytes, one of them not zero. -/
abbrev RequestId := Vector UInt8 16

/-- All the bytes of an id are zero. -/
def RequestId.isZero (id : RequestId) : Bool := id.toList.all (· = 0)

/-- `vireo_password_hash_inspect`. The parser has a result for every text. -/
def passwordHashInspect (policy : PasswordPolicy) (encoded : Bytes) : Except Result PasswordInfo :=
  if policy.valid = false then .error .invalidArgument
  else if encoded.length = 0 ∨ encoded.length ≥ passwordEncodedCapacity then .error .range
  else
    match policy.parse encoded with
    | some (.ok record) => .ok record.info
    | some (.error e) => .error e
    | none => .error .internal

/-- `vireo_mysql_registration_input_t`. -/
structure RegistrationInput where
  username : Bytes
  usernameKey : Bytes
  passwordHash : Bytes
  requestId : RequestId
  occurredAtMs : UInt64
  latencyUs : UInt64

/-- `validate_input`. -/
def validateInput (policy : PasswordPolicy) (input : RegistrationInput) (wait : UInt32) : Result :=
  if wait > poolWaitMsMax ∨ input.username.length = 0 ∨ input.username.length > 256 ∨
      input.usernameKey.length = 0 ∨ input.usernameKey.length > 256 ∨ input.passwordHash.length = 0 ∨
      input.passwordHash.length ≥ passwordEncodedCapacity then .range
  else if input.requestId.isZero then .invalidArgument
  else
    match passwordHashInspect policy input.passwordHash with
    | .error e => e
    | .ok info =>
      if info.memoryKib = policy.createMemoryKib ∧ info.iterations = policy.createIterations then .ok else .range

/-- `vireo_mysql_login_input_t`. -/
structure LoginInput where
  userId : UInt64
  verifiedPasswordHash : Bytes
  tokenDigest : Vector UInt8 32
  issuedAtMs : UInt64
  expiresAtMs : UInt64
  requestId : RequestId
  latencyUs : UInt64

/-- `validate_login`. -/
def validateLogin (policy : PasswordPolicy) (input : LoginInput) (wait : UInt32) : Result :=
  if input.userId = 0 then .invalidArgument
  else if wait > poolWaitMsMax ∨ input.verifiedPasswordHash.length = 0 ∨
      input.verifiedPasswordHash.length ≥ passwordEncodedCapacity ∨ input.expiresAtMs ≤ input.issuedAtMs then .range
  else if input.requestId.isZero then .invalidArgument
  else
    match passwordHashInspect policy input.verifiedPasswordHash with
    | .error e => e
    | .ok _ => .ok

/-- `vireo_mysql_logout_input_t`. -/
structure LogoutInput where
  userId : UInt64
  sessionId : UInt64
  requestId : RequestId
  occurredAtMs : UInt64
  latencyUs : UInt64

/-- `validate_logout`. -/
def validateLogout (input : LogoutInput) (wait : UInt32) : Result :=
  if input.userId = 0 ∨ input.sessionId = 0 then .invalidArgument
  else if wait > poolWaitMsMax then .range
  else if input.requestId.isZero then .invalidArgument
  else .ok

section Entries

variable {W : Type} (ops : Ops W)

/-! ## 2. Registration -/

/-- `vireo_mysql_registration_conflict_t`. -/
inductive RegistrationConflict where
  | none
  | usernameConflict
  | requestConflict
deriving DecidableEq, Inhabited

/-- The ids of a registration. -/
structure RegistrationIds where
  userId : UInt64 := 0
  rootNodeId : UInt64 := 0
  auditId : UInt64 := 0
deriving DecidableEq, Inhabited

/-- The statements of a registration. -/
def registerWork (input : RegistrationInput) : Step W RegistrationConflict RegistrationIds := do
  let user ← insertUnique ops .insertUser [.bytes input.username, .bytes input.usernameKey,
    .bytes input.passwordHash, .u64 input.occurredAtMs, .u64 input.occurredAtMs] .user .usernameConflict
  let root ← insertRow ops .insertRoot [.u64 user, .u64 input.occurredAtMs, .u64 input.occurredAtMs] .root
  let audit ← insertUnique ops .insertRegisterAudit [.bytes input.requestId.toList, .u64 user, .u64 user,
    .u64 input.latencyUs, .u64 input.occurredAtMs] .audit .requestConflict
  pure ⟨user, root, audit⟩

/-- A registration has no issue for an unexpected result. -/
def registerPlan : Plan RegistrationConflict := ⟨[], .none⟩

/-- `vireo_mysql_user_repository_register`. -/
def register (policy : PasswordPolicy) (input : RegistrationInput) (wait : UInt32) (repo : Repo) (w : W) :
    WriteOutcome W RegistrationConflict RegistrationIds :=
  writeEntry ops registerPlan (validateInput policy input wait) wait (registerWork ops input) repo w

/-! ## 3. Login -/

/-- `vireo_mysql_login_issue_t`. -/
inductive LoginIssue where
  | none
  | userNotFound
  | userDisabled
  | passwordChanged
  | timeBeforeUser
  | digestConflict
  | requestConflict
  | unexpectedResult
deriving DecidableEq, Inhabited

/-- The ids of a login. -/
structure LoginIds where
  sessionId : UInt64 := 0
  auditId : UInt64 := 0
deriving DecidableEq, Inhabited

/-- What the row of an account comes to: its status, whether the hash is still the verified one, when it
    was created. -/
def accountRow (verified : Bytes) : List Cell → Option (UInt64 × Bool × UInt64)
  | [some hash, status, created] =>
    match number status, number created with
    | some status, some created =>
      if hash.length = 0 ∨ hash.length > 127 ∨ (status ≠ 1 ∧ status ≠ 2) then none
      else some (status, decide (hash = verified), created)
    | _, _ => none
  | _ => none

/-- `lock_account`. -/
def lockAccount (input : LoginInput) : Step W LoginIssue Unit :=
  endRead ops .account do
    let row ← readUnique ops ⟨1, 3, 0, 127, 32768⟩ .accountRow [.u64 input.userId] (some .userNotFound)
      (some .unexpectedResult) fun db => do
        let cells ← readCells ops .accountRow db 0 3
        pure (accountRow input.verifiedPasswordHash cells)
    if row.1.1 ≠ 1 then rejected (some .userDisabled) .notFound row.2
    else if row.1.2.1 = false then rejected (some .passwordChanged) .notFound row.2
    else if input.issuedAtMs < row.1.2.2 then rejected (some .timeBeforeUser) .range row.2
    else pure ()

/-- The statements of a login. -/
def loginWork (input : LoginInput) : Step W LoginIssue LoginIds := do
  lockAccount ops input
  let session ← insertUnique ops .insertSession [.u64 input.userId, .bytes input.tokenDigest.toList,
    .u64 input.issuedAtMs, .u64 input.expiresAtMs, .u64 input.issuedAtMs] .session .digestConflict
  let ex ← commanding ops .touchLogin [.u64 input.issuedAtMs, .u64 input.issuedAtMs, .u64 input.userId] .loginUpdate
    false
  if ex.affectedRows > 1 then refuseWith .loginUpdate (some .unexpectedResult) .database
  else do
    let audit ← insertUnique ops (.insertSessionAudit 2) [.bytes input.requestId.toList, .u64 input.userId,
      .u64 session, .u64 session, .u64 input.latencyUs, .u64 input.issuedAtMs] .audit .requestConflict
    pure ⟨session, audit⟩

/-- Where a login calls a result unexpected. -/
def loginPlan : Plan LoginIssue := ⟨[.begin, .session, .loginUpdate, .audit, .commit], .unexpectedResult⟩

/-- `vireo_mysql_user_repository_login`. -/
def login (policy : PasswordPolicy) (input : LoginInput) (wait : UInt32) (repo : Repo) (w : W) :
    WriteOutcome W LoginIssue LoginIds :=
  writeEntry ops loginPlan (validateLogin policy input wait) wait (loginWork ops input) repo w

/-! ## 4. Logout -/

/-- `vireo_mysql_logout_issue_t`. -/
inductive LogoutIssue where
  | none
  | userNotFound
  | sessionNotFound
  | ownerMismatch
  | timeBeforeIssued
  | requestConflict
  | unexpectedResult
deriving DecidableEq, Inhabited

/-- What a logout publishes. -/
structure LogoutFields where
  sessionId : UInt64 := 0
  auditId : UInt64 := 0
  revokedAtMs : UInt64 := 0
  alreadyRevoked : Bool := false
deriving DecidableEq, Inhabited

/-- A locked session. -/
structure SessionLock where
  userId : UInt64
  status : UInt64
  issuedAtMs : UInt64
  revokedAtMs : UInt64

/-- The row of the user that logs out. -/
def logoutUserRow (id : UInt64) : List (Option UInt64) → Option Unit
  | [some user] => if user = 0 ∨ user ≠ id then none else some ()
  | _ => none

/-- The row of the session of a logout. -/
def logoutSessionRow : List (Option UInt64) → Option SessionLock
  | [some user, some status, some issued, some expires, revoked, some seen] =>
    if user = 0 ∨ (status ≠ 1 ∧ status ≠ 2) ∨ expires ≤ issued ∨ seen < issued ∨ seen > expires ∨
        (if status = 1 then revoked ≠ none else revoked.all (· < issued) = true) then none
    else some ⟨user, status, issued, revoked.getD 0⟩
  | _ => none

/-- `logout_lock` of the user; the caller names the issue when there is none. -/
def lockLogoutUser (id : UInt64) : Step W LogoutIssue Unit :=
  Prog.onError (endRead ops .logoutUser do
    let row ← readUnique ops ⟨1, 1, 0, 20, 32768⟩ .logoutUser [.u64 id] none none fun db => do
      let values ← readNumbers ops .logoutUser none db 0 1
      pure (values.bind (logoutUserRow id))
    pure row.1)
    fun f s => if f.val = .notFound then { s with issue := .userNotFound } else s

/-- `logout_lock` of the session; its fifth column may be `NULL`. -/
def lockLogoutSession (id : UInt64) : Step W LogoutIssue SessionLock :=
  Prog.onError (endRead ops .logoutSession do
    let row ← readUnique ops ⟨1, 6, 0, 20, 32768⟩ .logoutSession [.u64 id] none none fun db => do
      let values ← readNumbers ops .logoutSession (some 4) db 0 6
      pure (values.bind logoutSessionRow)
    pure row.1)
    fun f s => if f.val = .notFound then { s with issue := .sessionNotFound } else s

/-- The session is revoked, and that is audited. -/
def revokeWork (input : LogoutInput) : Step W LogoutIssue UInt64 := do
  let ex ← commanding ops .revokeSession [.u64 input.occurredAtMs, .u64 input.sessionId, .u64 input.userId]
    .sessionRevoke false
  if ex.affectedRows ≠ 1 then refuseWith .sessionRevoke none .database
  else insertUnique ops (.insertSessionAudit 3) [.bytes input.requestId.toList, .u64 input.userId,
    .u64 input.sessionId, .u64 input.sessionId, .u64 input.latencyUs, .u64 input.occurredAtMs] .audit .requestConflict

/-- The statements of a logout; a session that is revoked already stays as it is. -/
def logoutWork (input : LogoutInput) : Step W LogoutIssue LogoutFields := do
  lockLogoutUser ops input.userId
  let lock ← lockLogoutSession ops input.sessionId
  if lock.userId ≠ input.userId then refuseWith .logoutSession (some .ownerMismatch) .notFound
  else if input.occurredAtMs < lock.issuedAtMs then refuseWith .logoutSession (some .timeBeforeIssued) .range
  else if lock.status = 2 then pure ⟨input.sessionId, 0, lock.revokedAtMs, true⟩
  else do
    let audit ← revokeWork ops input
    pure ⟨input.sessionId, audit, input.occurredAtMs, false⟩

/-- Where a logout calls a result unexpected. -/
def logoutPlan : Plan LogoutIssue :=
  ⟨[.begin, .logoutUser, .logoutSession, .sessionRevoke, .audit, .commit], .unexpectedResult⟩

/-- `vireo_mysql_user_repository_logout`. -/
def logout (input : LogoutInput) (wait : UInt32) (repo : Repo) (w : W) : WriteOutcome W LogoutIssue LogoutFields :=
  writeEntry ops logoutPlan (validateLogout input wait) wait (logoutWork ops input) repo w

/-! ## 5. The audit of a failure -/

/-- `vireo_mysql_auth_failure_input_t`. -/
structure AuthFailureInput where
  requestId : RequestId
  occurredAtMs : UInt64
  latencyUs : UInt64
  action : UInt16
  status : UInt16
  origin : UInt8

/-- The statuses of a failure that is audited. -/
def failureStatuses : List UInt16 := [1001, 1008, 1104, 1105, 1106, 1901, 1902, 1906, 1907, 1908]

/-- What is checked of a failure. -/
def validateFailure (input : AuthFailureInput) : Result :=
  if input.requestId.isZero ∨ input.action < 1 ∨ input.action > 4 ∨ failureStatuses.contains input.status = false ∨
      (input.origin ≠ 1 ∧ input.origin ≠ 2) then .invalidArgument
  else .ok

/-- Where a failure comes from, as the audit says it. -/
def failureDetail (origin : UInt8) : Bytes := phcText (if origin = 1 then "source=reactor" else "source=worker")

/-- `vireo_mysql_user_repository_append_auth_failure`. It does not wait for a lease. -/
def appendAuthFailure (input : AuthFailureInput) (repo : Repo) (w : W) : WriteOutcome W Unit UInt64 :=
  writeEntry ops ⟨[], ()⟩ (validateFailure input) 0
    (insertRow ops .insertFailureAudit [.bytes input.requestId.toList, .u64 input.action.toUInt64,
      .u64 input.status.toUInt64, .u64 input.latencyUs, .bytes (failureDetail input.origin), .u64 input.occurredAtMs]
      .audit) repo w

/-! ## 6. The lookups -/

/-- `vireo_mysql_user_status_t` of a found account. -/
inductive UserStatus where
  | active
  | disabled
deriving DecidableEq

/-- `vireo_mysql_user_credentials_t`. -/
structure UserCredentials where
  userId : UInt64
  status : UserStatus
  passwordHash : Bytes
deriving DecidableEq

/-- The row of the credentials. -/
def credentialsRow : List Cell → Option UserCredentials
  | [id, status, some hash] =>
    match number id, number status with
    | some id, some status =>
      if id = 0 ∨ (status ≠ 1 ∧ status ≠ 2) ∨ hash.length = 0 ∨ hash.length ≥ passwordEncodedCapacity then none
      else some ⟨id, if status = 1 then .active else .disabled, hash⟩
    | _, _ => none
  | _ => none

/-- `read_credentials`. -/
def readCredentials (policy : PasswordPolicy) (key : Bytes) : Step W Unit UserCredentials :=
  endRead ops .credentials do
    let row ← readUnique ops ⟨1, 3, 256, 127, 32768⟩ .credentialsByKey [.bytes key] none none fun db => do
      let cells ← readCells ops .credentialsByKey db 0 3
      pure (credentialsRow cells)
    match passwordHashInspect policy row.1.passwordHash with
    | .error e => do passed e row.2; pure row.1
    | .ok _ => pure row.1

/-- `vireo_mysql_user_repository_find_credentials`. -/
def findCredentials (policy : PasswordPolicy) (key : Bytes) (wait : UInt32) (repo : Repo) (w : W) :
    ReadOutcome W Unit UserCredentials :=
  readEntry ops (if key.length = 0 ∨ key.length > 256 ∨ wait > poolWaitMsMax then .range else .ok) wait
    (readCredentials ops policy key) repo w

/-- `vireo_mysql_session_issue_t`. -/
inductive SessionIssue where
  | none
  | notFound
  | revoked
  | userDisabled
  | notYetValid
  | expired
deriving DecidableEq, Inhabited

/-- `vireo_mysql_session_identity_t`. -/
structure SessionIdentity where
  sessionId : UInt64 := 0
  userId : UInt64 := 0
  issuedAtMs : UInt64 := 0
  expiresAtMs : UInt64 := 0
deriving Inhabited

/-- A session as it was found: its identity, its status and that of its user. -/
structure SessionFound where
  identity : SessionIdentity
  status : UInt64
  userStatus : UInt64

/-- The row of a session. -/
def sessionRow : List (Option UInt64) → Option SessionFound
  | [some id, some user, some status, some issued, some expires, revoked, some seen, some userStatus] =>
    if id = 0 ∨ user = 0 ∨ (status ≠ 1 ∧ status ≠ 2) ∨ expires ≤ issued ∨ seen < issued ∨ seen > expires ∨
        (userStatus ≠ 1 ∧ userStatus ≠ 2) ∨
        (if status = 1 then revoked ≠ none else revoked.all (· < issued) = true) then none
    else some ⟨⟨id, user, issued, expires⟩, status, userStatus⟩
  | _ => none

/-- The issue of a session at a time. -/
def SessionFound.issue (f : SessionFound) (now : UInt64) : SessionIssue :=
  if f.status = 2 then .revoked
  else if f.userStatus = 2 then .userDisabled
  else if now < f.identity.issuedAtMs then .notYetValid
  else if now ≥ f.identity.expiresAtMs then .expired
  else .none

/-- `read_session`. -/
def readSession (digest : Vector UInt8 32) (now : UInt64) : Step W SessionIssue SessionIdentity :=
  endRead ops .sessionLookup do
    let row ← readUnique ops ⟨1, 8, 32, 20, 32768⟩ .sessionByDigest [.bytes digest.toList] (some .notFound) none
      fun db => do
        let values ← readNumbers ops .sessionByDigest (some 5) db 0 8
        pure (values.bind sessionRow)
    if row.1.issue now = .none then pure row.1.identity
    else rejected (some (row.1.issue now)) .notFound row.2

/-- `vireo_mysql_user_repository_find_session`. -/
def findSession (digest : Vector UInt8 32) (now : UInt64) (wait : UInt32) (repo : Repo) (w : W) :
    ReadOutcome W SessionIssue SessionIdentity :=
  readEntry ops (if wait > poolWaitMsMax then .range else .ok) wait (readSession ops digest now) repo w

end Entries

/-! ## 7. All of them -/

/-- A call of the repository. -/
inductive UserCall where
  | register (policy : PasswordPolicy) (input : RegistrationInput) (wait : UInt32)
  | login (policy : PasswordPolicy) (input : LoginInput) (wait : UInt32)
  | logout (input : LogoutInput) (wait : UInt32)
  | appendAuthFailure (input : AuthFailureInput)
  | findCredentials (policy : PasswordPolicy) (key : Bytes) (wait : UInt32)
  | findSession (digest : Vector UInt8 32) (now : UInt64) (wait : UInt32)

section Calls

variable {W I α : Type} (ops : Ops W) {repo : Repo}

/-- The result of a call, and what it leaves of the repository and the world. -/
def UserCall.run (repo : Repo) (w : W) : UserCall → Result × Repo × W
  | .register policy input wait => let o := User.register ops policy input wait repo w; (o.result, o.repo, o.world)
  | .login policy input wait => let o := User.login ops policy input wait repo w; (o.result, o.repo, o.world)
  | .logout input wait => let o := User.logout ops input wait repo w; (o.result, o.repo, o.world)
  | .appendAuthFailure input => let o := User.appendAuthFailure ops input repo w; (o.result, o.repo, o.world)
  | .findCredentials policy key wait =>
    let o := User.findCredentials ops policy key wait repo w
    (o.result, o.repo, o.world)
  | .findSession digest now wait => let o := User.findSession ops digest now wait repo w; (o.result, o.repo, o.world)

theorem writeEntry_busy [Inhabited I] [DecidableEq I] (plan : Plan I) (check : Result) (wait : UInt32)
    (work : Step W I α) (hp : repo.pending = true) (w : W) :
    writeEntry ops plan check wait work repo w = refuse .busy repo w := if_pos hp

theorem readEntry_busy [Inhabited I] (check : Result) (wait : UInt32) (read : Step W I α)
    (hp : repo.pending = true) (w : W) :
    readEntry ops check wait read repo w = refuseRead .busy repo w := if_pos hp

theorem UserCall.run_busy (c : UserCall) (hp : repo.pending = true) (w : W) :
    c.run ops repo w = (.busy, repo, w) := by
  cases c with
  | register policy input wait =>
    simp only [run, User.register, writeEntry_busy ops _ _ _ _ hp]
    rfl
  | login policy input wait =>
    simp only [run, User.login, writeEntry_busy ops _ _ _ _ hp]
    rfl
  | logout input wait =>
    simp only [run, User.logout, writeEntry_busy ops _ _ _ _ hp]
    rfl
  | appendAuthFailure input =>
    simp only [run, User.appendAuthFailure, writeEntry_busy ops _ _ _ _ hp]
    rfl
  | findCredentials policy key wait =>
    simp only [run, User.findCredentials, readEntry_busy ops _ _ _ hp]
    rfl
  | findSession digest now wait =>
    simp only [run, User.findSession, readEntry_busy ops _ _ _ hp]
    rfl

end Calls

end Vireo.Persistence.User
