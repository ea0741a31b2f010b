/-
  File:      Vireo/Service/AuthService.lean
  Subject:   THE AUTHENTICATION SERVICE (`src/service/auth_service.c`): passwords, tokens and the repository.

  The gate and the verifier change the world they are called in, as the database does.
-/
import Vireo.Persistence.User.Published
import Vireo.Protocol.NodeListFields
import Vireo.Service.LoginAdmission

namespace Vireo.Service

open Lib Protocol Persistence.User
open Persistence (Ops Repo Diagnosis)

/-! ## 1. What a service calls -/

/-- `vireo_session_token_t`. -/
abbrev SessionToken := Cells UInt8 32

/-- `vireo_session_token_digest_t`. -/
abbrev TokenDigest := Vector UInt8 32

/-- `vireo_auth_service_runtime_t`, the policy of the repository and its dependencies. -/
structure AuthRuntime (W : Type) where
  ops : Ops W
  policy : Security.PasswordPolicy
  /-- `vireo_auth_password_hash_create` -/
  hash : Protocol.Bytes → W → (Result × Protocol.Bytes) × W
  /-- `vireo_auth_login_verifier_verify` -/
  verify : Option UserCredentials → Protocol.Bytes → W → (Result × Bool) × W
  /-- `vireo_session_token_generate` -/
  token : W → (Result × SessionToken × TokenDigest) × W
  /-- `vireo_session_token_digest` -/
  digest : SessionToken → W → (Result × TokenDigest) × W

/-- `vireo_auth_password_validate`. -/
def passwordValidate (password : Protocol.Bytes) : Result :=
  if password.length < 8 ∨ password.length > 64 then .range
  else if password.any (fun b => b < 0x21 || b > 0x7E) then .protocol
  else .ok

section Services

variable {W : Type} (rt : AuthRuntime W) {e : Result}

/-! ## 2. Registration -/

/-- `vireo_auth_registration_request_t`. -/
structure RegistrationRequest where
  username : Protocol.Bytes
  password : Protocol.Bytes
  requestId : RequestId
  occurredAtMs : UInt64
  latencyUs : UInt64

/-- The report of a transaction that was not called. -/
def emptyReport (I α : Type) [Inhabited I] : WriteReport I α := ⟨.notCommitted, default, none, false, false⟩

/-- A transaction that was not called. -/
def uncalled {I α : Type} [Inhabited I] (rc : Result) (repo : Repo) (w : W) : WriteOutcome W I α where
  result := rc
  report := emptyReport I α
  err := {}
  repo := repo
  world := w

/-- The input of the repository. -/
def RegistrationRequest.input (request : RegistrationRequest) (account : AuthUsername) (phc : Protocol.Bytes) :
    RegistrationInput where
  username := account.username.toList.take account.length
  usernameKey := account.key.toList.take account.length
  passwordHash := phc
  requestId := request.requestId
  occurredAtMs := request.occurredAtMs
  latencyUs := request.latencyUs

/-- `vireo_auth_service_register_with_runtime`. -/
def authServiceRegister (request : RegistrationRequest) (timeout : UInt32) (repo : Repo) (w : W) :
    WriteOutcome W RegistrationConflict RegistrationIds :=
  if timeout > poolWaitMsMax then uncalled .range repo w
  else if request.requestId.isZero then uncalled .invalidArgument repo w
  else
    match usernamePrepare request.username with
    | .error e => uncalled e repo w
    | .ok account =>
      if passwordValidate request.password ≠ .ok then uncalled (passwordValidate request.password) repo w
      else
        let h := rt.hash request.password w
        if h.1.1 ≠ .ok then uncalled h.1.1 repo h.2
        else register rt.ops rt.policy (request.input account h.1.2) timeout repo h.2

/-! ## 3. Login -/

/-- `vireo_auth_login_request_t`. -/
structure LoginRequest where
  username : Protocol.Bytes
  password : Protocol.Bytes
  requestId : RequestId
  issuedAtMs : UInt64
  expiresAtMs : UInt64
  latencyUs : UInt64

/-- `vireo_mysql_credentials_report_t`. -/
structure CredentialsReport where
  found : Bool := false
  cleanupPending : Bool := false

/-- `vireo_auth_login_result_t`. -/
structure AuthLoginResult where
  lookup : CredentialsReport := {}
  transaction : WriteReport LoginIssue LoginIds := emptyReport _ _
  userId : UInt64 := 0
  issuedAtMs : UInt64 := 0
  expiresAtMs : UInt64 := 0
  token : SessionToken := .fill 32 0

/-- What a service leaves besides its report. -/
structure Served (W α : Type) where
  result : Result
  report : α
  err : Diagnosis
  repo : Repo
  world : W

/-- The first result, unless it is NOT_FOUND and the cleanup failed. -/
def notFoundUnless (rc cleanup : Result) : Result := if rc = .notFound ∧ cleanup ≠ .ok then cleanup else rc

variable (request : LoginRequest)

/-- The input of the repository. -/
def LoginRequest.input (credentials : UserCredentials) (digest : TokenDigest) : LoginInput where
  userId := credentials.userId
  verifiedPasswordHash := credentials.passwordHash
  tokenDigest := digest
  issuedAtMs := request.issuedAtMs
  expiresAtMs := request.expiresAtMs
  requestId := request.requestId
  latencyUs := request.latencyUs

/-- The transaction of a login, and what is given out when it was committed. -/
def loginTransact (credentials : UserCredentials) (lookup : CredentialsReport) (token : SessionToken)
    (digest : TokenDigest) (timeout : UInt32) (repo : Repo) (w : W) : Served W AuthLoginResult :=
  let o := login rt.ops rt.policy (request.input credentials digest) timeout repo w
  { result := notFoundUnless o.result o.err.cleanupResult
    report :=
      if o.report.commit = .committed then
        ⟨lookup, o.report, credentials.userId, request.issuedAtMs, request.expiresAtMs, token⟩
      else { lookup := lookup, transaction := o.report }
    err := o.err
    repo := o.repo
    world := o.world }

/-- A login behind its lookup: the password, the account, the token. -/
def loginVerified (credentials : Option UserCredentials) (lookup : CredentialsReport) (err : Diagnosis)
    (timeout : UInt32) (repo : Repo) (w : W) : Served W AuthLoginResult :=
  let v := rt.verify credentials request.password w
  if v.1.1 ≠ .ok then ⟨v.1.1, { lookup := lookup }, err, repo, v.2⟩
  else if v.1.2 = false then ⟨.notFound, { lookup := lookup }, err, repo, v.2⟩
  else
    match credentials with
    | none => ⟨.internal, { lookup := lookup }, err, repo, v.2⟩
    | some account =>
      if account.userId = 0 ∨ account.status ≠ .active then ⟨.internal, { lookup := lookup }, err, repo, v.2⟩
      else
        let t := rt.token v.2
        if t.1.1 ≠ .ok then ⟨t.1.1, { lookup := lookup }, err, repo, t.2⟩
        else loginTransact rt request account lookup t.1.2.1 t.1.2.2 timeout repo t.2

/-- A login that found its input well formed: the lookup, and what may not be taken for an absent account. -/
def loginLookup (account : AuthUsername) (timeout : UInt32) (repo : Repo) (w : W) :
    Served W AuthLoginResult :=
  let o := findCredentials rt.ops rt.policy (account.key.toList.take account.length) timeout repo w
  let lookup : CredentialsReport := ⟨o.value.isSome, o.cleanupPending⟩
  if o.result = .notFound ∧ o.err.cleanupResult ≠ .ok then
    ⟨o.err.cleanupResult, { lookup := lookup }, o.err, o.repo, o.world⟩
  else if o.result ≠ .ok ∧ o.result ≠ .notFound then ⟨o.result, { lookup := lookup }, o.err, o.repo, o.world⟩
  else if lookup.cleanupPending = true ∨ lookup.found ≠ decide (o.result = .ok) then
    ⟨.internal, { lookup := lookup }, o.err, o.repo, o.world⟩
  else loginVerified rt request o.value lookup o.err timeout o.repo o.world

/-- `vireo_auth_service_login_with_runtime`. -/
def authServiceLogin (timeout : UInt32) (repo : Repo) (w : W) : Served W AuthLoginResult :=
  if timeout > poolWaitMsMax ∨ request.expiresAtMs ≤ request.issuedAtMs then ⟨.range, {}, {}, repo, w⟩
  else if request.requestId.isZero then ⟨.invalidArgument, {}, {}, repo, w⟩
  else
    match usernamePrepare request.username with
    | .error e => ⟨e, {}, {}, repo, w⟩
    | .ok account =>
      if passwordValidate request.password ≠ .ok then ⟨passwordValidate request.password, {}, {}, repo, w⟩
      else loginLookup rt request account timeout repo w

/-! ## 4. Resume and logout -/

/-- `vireo_auth_service_resume`. -/
def authServiceResume (token : SessionToken) (now : UInt64) (timeout : UInt32) (repo : Repo) (w : W) :
    ReadOutcome W SessionIssue SessionIdentity :=
  if timeout > poolWaitMsMax then ⟨.range, none, default, false, {}, repo, w⟩
  else
    let d := rt.digest token w
    if d.1.1 ≠ .ok then ⟨d.1.1, none, default, false, {}, repo, d.2⟩
    else findSession rt.ops d.1.2 now timeout repo d.2

/-- `vireo_auth_service_logout`. -/
def authServiceLogout (input : LogoutInput) (timeout : UInt32) (repo : Repo) (w : W) :
    WriteOutcome W LogoutIssue LogoutFields :=
  logout rt.ops input timeout repo w

/-! ## 5. What a service reports -/

/-- The result and the report of a transaction fit: a value is published iff there is a commit, and a success
    is one. -/
structure Reported {I α : Type} (P : α → Prop) (rc : Result) (report : WriteReport I α) : Prop where
  committed : report.commit = .committed → ∃ v, report.value = some v ∧ P v
  otherwise : report.commit ≠ .committed → report.value = none
  succeeds : rc = .ok → report.commit = .committed

theorem Reported.of_publishes {I α : Type} {P : α → Prop} {o : WriteOutcome W I α} (h : Publishes P o) :
    Reported P o.result o.report := { h with }

theorem Reported.empty {I α : Type} [Inhabited I] {P : α → Prop} {rc : Result} (h : rc ≠ .ok) :
    Reported P rc (emptyReport I α) := ⟨nofun, fun _ => rfl, fun hok => absurd hok h⟩

theorem keyByte_error {b : UInt8} (h : keyByte b = .error e) : e ≠ .ok := by
  unfold keyByte at h
  split at h
  · cases h
  split at h
  · cases h
  · cases h
    decide

theorem keyBytesOf_error {input : List UInt8} (h : keyBytesOf input = .error e) : e ≠ .ok := by
  induction input with
  | nil => cases h
  | cons b input ih =>
    unfold keyBytesOf at h
    cases hb : keyByte b with
    | error f =>
      rw [hb] at h
      cases h
      exact keyByte_error hb
    | ok k =>
      rw [hb] at h
      cases hr : keyBytesOf input with
      | error f =>
        rw [hr] at h
        cases h
        exact ih hr
      | ok rest =>
        rw [hr] at h
        cases h

theorem usernamePrepare_error {input : List UInt8} (h : usernamePrepare input = .error e) : e ≠ .ok := by
  unfold usernamePrepare at h
  split at h
  · cases h
    decide
  · cases hk : keyBytesOf input with
    | error f =>
      rw [hk] at h
      cases h
      exact keyBytesOf_error hk
    | ok key =>
      rw [hk] at h
      cases h

/-- The ids of a registration. -/
def Registered (ids : RegistrationIds) : Prop := ids.userId ≠ 0 ∧ ids.rootNodeId ≠ 0 ∧ ids.auditId ≠ 0

theorem authServiceRegister_reported (request : RegistrationRequest) (timeout : UInt32) (repo : Repo) (w : W) :
    Reported Registered (authServiceRegister rt request timeout repo w).result
      (authServiceRegister rt request timeout repo w).report := by
  unfold authServiceRegister
  split
  · exact .empty nofun
  split
  · exact .empty nofun
  split
  · exact .empty (usernamePrepare_error ‹_›)
  split
  · exact .empty ‹_›
  dsimp only
  split
  · exact .empty ‹_›
  · exact .of_publishes (register_publishes rt.ops rt.policy timeout repo _ _)

/-- What a login gives out: with a commit the session that was asked for, and a token without one never. -/
structure LoginReported (rc : Result) (report : AuthLoginResult) : Prop where
  transaction : Reported (fun ids => ids.sessionId ≠ 0 ∧ ids.auditId ≠ 0) rc report.transaction
  granted : report.transaction.commit = .committed → report.userId ≠ 0 ∧ report.issuedAtMs < report.expiresAtMs
  withheld : report.transaction.commit ≠ .committed →
    report.userId = 0 ∧ report.issuedAtMs = 0 ∧ report.expiresAtMs = 0 ∧ report.token = .fill 32 0

theorem LoginReported.failed {rc : Result} (h : rc ≠ .ok) (lookup : CredentialsReport) :
    LoginReported rc { lookup := lookup } :=
  ⟨.empty h, nofun, fun _ => ⟨rfl, rfl, rfl, rfl⟩⟩

theorem notFoundUnless_ok {rc cleanup : Result} (h : notFoundUnless rc cleanup = .ok) : rc = .ok := by
  unfold notFoundUnless at h
  split at h
  · rename_i hboth
    exact absurd h hboth.2
  · exact h

theorem loginTransact_reported (request : LoginRequest) (hexpires : request.issuedAtMs < request.expiresAtMs)
    {account : UserCredentials} (haccount : account.userId ≠ 0) (lookup : CredentialsReport) (token : SessionToken)
    (digest : TokenDigest) (timeout : UInt32) (repo : Repo) (w : W) :
    LoginReported (loginTransact rt request account lookup token digest timeout repo w).result
      (loginTransact rt request account lookup token digest timeout repo w).report := by
  obtain ⟨hcommitted, hotherwise, hok⟩ := login_publishes rt.ops rt.policy timeout repo w (request.input account digest)
  rw [loginTransact]
  split
  · rename_i hc
    exact ⟨⟨hcommitted, hotherwise, fun _ => hc⟩, fun _ => ⟨haccount, hexpires⟩, fun hne => absurd hc hne⟩
  · rename_i hc
    exact ⟨⟨hcommitted, hotherwise, fun h => hok (notFoundUnless_ok h)⟩, fun h => absurd h hc,
      fun _ => ⟨rfl, rfl, rfl, rfl⟩⟩

theorem loginVerified_reported (request : LoginRequest) (hexpires : request.issuedAtMs < request.expiresAtMs)
    (credentials : Option UserCredentials) (lookup : CredentialsReport) (err : Diagnosis) (timeout : UInt32) (repo : Repo)
    (w : W) : LoginReported (loginVerified rt request credentials lookup err timeout repo w).result
      (loginVerified rt request credentials lookup err timeout repo w).report := by
  unfold loginVerified
  dsimp only
  split
  · exact .failed ‹_› lookup
  split
  · exact (.failed (by decide) lookup : LoginReported .notFound _)
  split
  · exact (.failed (by decide) lookup : LoginReported .internal _)
  split
  · exact (.failed (by decide) lookup : LoginReported .internal _)
  rename_i haccount
  rw [not_or] at haccount
  split
  · exact .failed ‹_› lookup
  · exact loginTransact_reported rt request hexpires haccount.1 _ _ _ _ _ _

theorem authServiceLogin_reported (request : LoginRequest) (timeout : UInt32) (repo : Repo) (w : W) :
    LoginReported (authServiceLogin rt request timeout repo w).result (authServiceLogin rt request timeout repo w).report := by
  unfold authServiceLogin
  split
  · exact (.failed (by decide) {} : LoginReported .range _)
  rename_i hrange
  rw [not_or] at hrange
  have hexpires := UInt64.not_le.mp hrange.2
  split
  · exact (.failed (by decide) {} : LoginReported .invalidArgument _)
  split
  · exact .failed (usernamePrepare_error ‹_›) {}
  split
  · exact .failed ‹_› {}
  rw [loginLookup]
  split
  · rename_i hcleanup
    exact .failed hcleanup.2 _
  split
  · rename_i hfailed
    exact .failed hfailed.1 _
  split
  · exact (.failed (by decide) _ : LoginReported .internal _)
  · exact loginVerified_reported rt request hexpires _ _ _ _ _ _

theorem authServiceResume_found (hops : Consumes rt.ops) (token : SessionToken) (now : UInt64) (timeout : UInt32)
    (repo : Repo) (w : W) : Found SessionIdentity.Usable (authServiceResume rt token now timeout repo w) := by
  have hfailed : ∀ rc w', rc ≠ .ok →
      Found SessionIdentity.Usable (⟨rc, none, default, false, {}, repo, w'⟩ : ReadOutcome W SessionIssue SessionIdentity) :=
    fun rc w' h => ⟨fun hok => absurd hok h, fun _ => rfl, fun _ => rfl⟩
  unfold authServiceResume
  split
  · exact hfailed _ _ (by decide)
  dsimp only
  split
  · exact hfailed _ _ ‹_›
  · exact findSession_found rt.ops hops _ now timeout repo _

end Services

end Vireo.Service
