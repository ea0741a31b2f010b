/-
  File:      Vireo/Service/AuthWorker.lean
  Subject:   HOW A WORKER RUNS AN AUTHENTICATION TASK (`src/service/auth_task.c`, `auth_worker.c`).

  The retry of the audit, the cleanup of the worker's resources and its threads are not here: they do not
  change the result that is published.
-/
import Vireo.Service.AuthService
import Vireo.Service.AuthTask

namespace Vireo.Service

open Lib Protocol Thread Persistence.User
open Persistence (Repo Diagnosis)

/-! ## 1. The result of a task -/

/-- `vireo_auth_task_stage_t`. -/
inductive AuthTaskStage where
  | none | context | decode | match | cancel | deadline | service
deriving DecidableEq

/-- `vireo_mysql_session_report_t`. -/
structure SessionReport where
  valid : Bool := false
  issue : SessionIssue := .none
  cleanupPending : Bool := false

/-- `vireo_auth_task_result_t`, cleared but for what is given. -/
structure AuthTaskResult where
  stage : AuthTaskStage := .none
  result : Result := .ok
  metadata : TaskMetadata := ⟨⟨0, 0, 0, 0⟩, 0, 0, 0⟩
  command : UInt16 := 0
  requestIssue : AuthRequestIssue := .none
  registration : WriteReport RegistrationConflict RegistrationIds := emptyReport _ _
  login : AuthLoginResult := {}
  resumeIdentity : SessionIdentity := {}
  resumeReport : SessionReport := {}
  logoutTarget : LogoutIdentity := ⟨0, 0⟩
  logoutReport : WriteReport LogoutIssue LogoutFields := emptyReport _ _
  error : Diagnosis := {}

/-- A task that was run, and what it left. -/
structure AuthExecuted (W : Type) where
  result : AuthTaskResult
  repo : Repo
  world : W

section Execute

variable {W : Type} (rt : AuthRuntime W)

/-! ## 2. The service of a task -/

/-- The bytes of a name or of a password. -/
def spanOf (span : Option Bytes) (size : Nat) : Bytes := (span.getD []).take size

/-- The call of `vireo_auth_task_execute_with` at its last stage. -/
def authTaskService (out : AuthTaskResult) (view : AuthRequestView) (context : AuthTaskContext)
    (options : AuthTaskOptions) (repo : Repo) (w : W) : AuthExecuted W :=
  if view.command = commandSessionResume then
    let o := authServiceResume rt ((Cells.fill 32 0).copy (view.token.getD [])) context.occurredAtMs
      options.poolTimeoutMs repo w
    ⟨{ out with
      result := o.result
      resumeIdentity := o.value.getD {}
      resumeReport := ⟨o.value.isSome, o.issue, o.cleanupPending⟩
      error := o.err }, o.repo, o.world⟩
  else if view.command = commandLogout then
    let o := authServiceLogout rt ⟨out.logoutTarget.userId, out.logoutTarget.sessionId, context.requestId,
      context.occurredAtMs, context.latencyUs⟩ options.poolTimeoutMs repo w
    ⟨{ out with result := o.result, logoutReport := o.report, error := o.err }, o.repo, o.world⟩
  else if view.command = commandLogin then
    let o := authServiceLogin rt ⟨spanOf view.username view.usernameSize, spanOf view.password view.passwordSize,
      context.requestId, context.occurredAtMs, context.expiresAtMs, context.latencyUs⟩ options.poolTimeoutMs repo w
    ⟨{ out with result := o.result, login := o.report, error := o.err }, o.repo, o.world⟩
  else
    let o := authServiceRegister rt ⟨spanOf view.username view.usernameSize, spanOf view.password view.passwordSize,
      context.requestId, context.occurredAtMs, context.latencyUs⟩ options.poolTimeoutMs repo w
    ⟨{ out with result := o.result, registration := o.report, error := o.err }, o.repo, o.world⟩

/-- `vireo_auth_task_execute_with` behind the context: the request, the cancellation, the deadline. -/
def authTaskRequest (out : AuthTaskResult) (task : AuthTask) (context : AuthTaskContext) (options : AuthTaskOptions)
    (cancelRequested : Bool) (repo : Repo) (w : W) : AuthExecuted W :=
  if task.payload = [] then ⟨{ out with requestIssue := .header, result := .protocol }, repo, w⟩
  else if authTaskCommand options task.metadata.operation = 0 then ⟨{ out with result := .protocol }, repo, w⟩
  else
    match borrowRequest task (authTaskCommand options task.metadata.operation) with
    | .error (f, issue) =>
      ⟨{ out with
        requestIssue := issue
        stage := if issue = .envelope then .match else .decode
        result := f.val }, repo, w⟩
    | .ok (view, target) =>
      let out := { out with command := view.command, logoutTarget := target }
      if view.command = commandLogin ∧ context.expiresAtMs ≤ context.occurredAtMs then
        ⟨{ out with stage := .match, result := .range }, repo, w⟩
      else if cancelRequested then ⟨{ out with stage := .cancel, result := .cancelled }, repo, w⟩
      else if context.nowNs ≥ task.metadata.deadlineNs then
        ⟨{ out with stage := .deadline, result := .timeout }, repo, w⟩
      else authTaskService rt { out with stage := .service } view context options repo w

/-- `vireo_auth_task_execute_with`: the options and the context first. -/
def authTaskExecute (task : AuthTask) (context : AuthTaskContext) (options : AuthTaskOptions) (cancelRequested : Bool)
    (repo : Repo) (w : W) : AuthExecuted W :=
  if authTaskCommand options options.registerOperation = 0 then
    ⟨{ stage := .context, result := .invalidArgument }, repo, w⟩
  else if options.poolTimeoutMs > poolWaitMsMax then ⟨{ stage := .context, result := .range }, repo, w⟩
  else if context.requestId.isZero then ⟨{ stage := .context, result := .invalidArgument }, repo, w⟩
  else
    match task.metadata.sameRequest context.metadata with
    | .error e => ⟨{ stage := .context, metadata := task.metadata, result := e }, repo, w⟩
    | .ok same =>
      if same = false ∨ task.metadata.operation ≠ context.metadata.operation ∨
          task.metadata.deadlineNs ≠ context.metadata.deadlineNs then
        ⟨{ stage := .context, metadata := task.metadata, result := .invalidArgument }, repo, w⟩
      else authTaskRequest rt { stage := .decode, metadata := task.metadata } task context options cancelRequested repo w

/-! ## 3. The worker -/

/-- `vireo_auth_worker_options_t`, as `vireo_auth_worker_create` accepts it. -/
structure AuthWorkerOptions where
  execution : AuthTaskOptions
  requestTimeoutNs : UInt64
  sessionLifetimeMs : UInt64
  operations : authTaskCommand execution execution.registerOperation ≠ 0
  timeout : requestTimeoutNs ≠ 0
  lifetime : sessionLifetimeMs ≠ 0
  wait : execution.poolTimeoutMs ≤ poolWaitMsMax

/-- What a worker meets besides the database: its thread, its repository, the clocks, a cancellation. -/
structure AuthWorkerInputs where
  attach : Result
  repositoryCreate : Result
  samples : AuthSamples
  cancelRequested : Bool

/-- A worker behind its run: whether the task was validated, and the result. -/
structure AuthWorked (W : Type) where
  taskValidated : Bool
  executeCalled : Bool
  result : AuthTaskResult
  world : W

/-- `validate`. -/
def AuthWorkerOptions.validate (o : AuthWorkerOptions) (task : AuthTask) (r : AuthTaskResult) :
    Result × AuthTaskResult :=
  let r := { r with metadata := task.metadata }
  if authTaskCommand o.execution task.metadata.operation = 0 then (.invalidArgument, r)
  else
    match borrowRequest task (authTaskCommand o.execution task.metadata.operation) with
    | .error (f, issue) =>
      (if issue = .envelope then .invalidArgument else f.val, { r with requestIssue := issue })
    | .ok (view, target) =>
      let r := { r with command := view.command, logoutTarget := target }
      if task.metadata.deadlineNs < o.requestTimeoutNs then (.range, r) else (.ok, r)

/-- A task that was validated: the resources of the worker, the context, the execution. -/
def authWorkerWork (o : AuthWorkerOptions) (task : AuthTask) (i : AuthWorkerInputs) (r : AuthTaskResult) (w : W) :
    AuthWorked W :=
  if i.attach ≠ .ok then ⟨true, false, { r with result := i.attach }, w⟩
  else if i.repositoryCreate ≠ .ok then ⟨true, false, { r with result := i.repositoryCreate }, w⟩
  else
    match authTaskContextWith task (task.metadata.deadlineNs - o.requestTimeoutNs) o.sessionLifetimeMs o.execution
        i.samples with
    | .error e => ⟨true, false, { r with result := e.result.val }, w⟩
    | .ok context =>
      let x := authTaskExecute rt task context o.execution i.cancelRequested {} w
      ⟨true, true, x.result, x.world⟩

/-- `vireo_auth_worker_run` up to the publication, on a worker that has not run. -/
def authWorkerRun (o : AuthWorkerOptions) (task : AuthTask) (i : AuthWorkerInputs) (w : W) : AuthWorked W :=
  let v := o.validate task { stage := .context }
  if v.1 ≠ .ok then ⟨false, false, { v.2 with result := v.1 }, w⟩ else authWorkerWork rt o task i v.2 w

/-! ## 4. What a result is -/

/-- A validated session has been found, and nothing is left of its lookup; else there is none. -/
structure ResumeReported (rc : Result) (identity : SessionIdentity) (report : SessionReport) : Prop where
  valid : report.valid = true → rc = .ok ∧ identity.Usable ∧ report.cleanupPending = false
  otherwise : report.valid = false → rc ≠ .ok ∧ identity = {}

/-- What a logout reports of its session. -/
def LoggedOut (target : LogoutIdentity) (fields : LogoutFields) : Prop :=
  fields.sessionId = target.sessionId ∧ (fields.alreadyRevoked = true ↔ fields.auditId = 0)

/-- **A result that can be told**: it is about its task, and only a service that was called has found anything. -/
structure AuthTaskResult.Sound (task : AuthTask) (r : AuthTaskResult) : Prop where
  metadata : r.metadata = task.metadata
  staged : r.stage ≠ .none
  request : ∃ view, borrowRequest task r.command = .ok (view, r.logoutTarget)
  registration : r.command = commandRegister → Reported Registered r.result r.registration
  login : r.command = commandLogin → LoginReported r.result r.login
  resume : r.command = commandSessionResume → ResumeReported r.result r.resumeIdentity r.resumeReport
  logout : r.command = commandLogout → Reported (LoggedOut r.logoutTarget) r.result r.logoutReport
  early : r.stage ≠ .service → r.registration.commit = .notCommitted ∧ r.login.transaction.commit = .notCommitted ∧
    r.logoutReport.commit = .notCommitted ∧ r.resumeReport.valid = false

section Sound

variable {task : AuthTask} {r : AuthTaskResult}

/-- A result whose reports are all empty. -/
structure AuthTaskResult.Blank (r : AuthTaskResult) : Prop where
  registration : r.registration = emptyReport _ _
  login : r.login = {}
  resumeIdentity : r.resumeIdentity = {}
  resumeReport : r.resumeReport = {}
  logoutReport : r.logoutReport = emptyReport _ _

theorem AuthTaskResult.Blank.sound (h : r.Blank) (hmeta : r.metadata = task.metadata) (hstage : r.stage ≠ .none)
    (hrequest : ∃ view, borrowRequest task r.command = .ok (view, r.logoutTarget)) (hrc : r.result ≠ .ok) :
    r.Sound task where
  metadata := hmeta
  staged := hstage
  request := hrequest
  registration _ := by
    rw [h.registration]
    exact .empty hrc
  login _ := by
    rw [h.login]
    exact .failed hrc {}
  resume _ := by
    rw [h.resumeIdentity, h.resumeReport]
    exact ⟨nofun, fun _ => ⟨hrc, rfl⟩⟩
  logout _ := by
    rw [h.logoutReport]
    exact .empty hrc
  early _ := by
    rw [h.registration, h.login, h.logoutReport, h.resumeReport]
    exact ⟨rfl, rfl, rfl, rfl⟩

end Sound

variable (hops : Consumes rt.ops) {task : AuthTask} {out : AuthTaskResult} {view : AuthRequestView}
  {context : AuthTaskContext}

include hops in
/-- **The service of a task** gives a result that can be told. -/
theorem authTaskService_sound (hmeta : out.metadata = task.metadata) (hstage : out.stage = .service)
    (hcommand : out.command = view.command) (hrequest : borrowRequest task out.command = .ok (view, out.logoutTarget))
    (options : AuthTaskOptions) (repo : Repo) (w : W) :
    (authTaskService rt out view context options repo w).result.Sound task := by
  have hstaged : out.stage ≠ .none := by
    rw [hstage]
    decide
  have hservice : out.stage ≠ .service → False := fun h => h hstage
  unfold authTaskService
  by_cases hresume : view.command = commandSessionResume
  · rw [if_pos hresume]
    have hother : ∀ c, out.command = c → c ≠ commandSessionResume → False := fun c e hne =>
      hne (e.symm.trans (hcommand.trans hresume))
    obtain ⟨hfound, hfinished, hnone⟩ := authServiceResume_found rt hops ((Cells.fill 32 0).copy (view.token.getD []))
      context.occurredAtMs options.poolTimeoutMs repo w
    dsimp only
    generalize authServiceResume rt ((Cells.fill 32 0).copy (view.token.getD [])) context.occurredAtMs
      options.poolTimeoutMs repo w = o at hfound hfinished hnone ⊢
    refine ⟨hmeta, hstaged, ⟨view, hrequest⟩, fun h => (hother _ h (by decide)).elim,
      fun h => (hother _ h (by decide)).elim, fun _ => ⟨fun hvalid => ?_, fun hinvalid => ?_⟩,
      fun h => (hother _ h (by decide)).elim, fun h => (hservice h).elim⟩
    · have hok : o.result = .ok := by
        by_contra hne
        rw [show o.value = none from hnone hne] at hvalid
        cases hvalid
      obtain ⟨a, ha, husable⟩ := hfound hok
      refine ⟨hok, ?_, hfinished hok⟩
      show (o.value.getD {}).Usable
      rw [ha]
      exact husable
    · have hvalue : o.value = none := Option.not_isSome_iff_eq_none.mp ((Bool.not_eq_true _).mpr hinvalid)
      refine ⟨fun hok => ?_, ?_⟩
      · obtain ⟨a, ha, -⟩ := hfound hok
        rw [hvalue] at ha
        cases ha
      · show o.value.getD {} = {}
        rw [hvalue]
        rfl
  rw [if_neg hresume]
  by_cases hlogout : view.command = commandLogout
  · rw [if_pos hlogout]
    have hother : ∀ c, out.command = c → c ≠ commandLogout → False := fun c e hne =>
      hne (e.symm.trans (hcommand.trans hlogout))
    have hreported := Reported.of_publishes (logout_publishes rt.ops options.poolTimeoutMs repo w
      ⟨out.logoutTarget.userId, out.logoutTarget.sessionId, context.requestId, context.occurredAtMs, context.latencyUs⟩)
    exact ⟨hmeta, hstaged, ⟨view, hrequest⟩, fun h => (hother _ h (by decide)).elim,
      fun h => (hother _ h (by decide)).elim, fun h => (hother _ h (by decide)).elim,
      fun _ => hreported, fun h => (hservice h).elim⟩
  rw [if_neg hlogout]
  by_cases hlogin : view.command = commandLogin
  · rw [if_pos hlogin]
    have hother : ∀ c, out.command = c → c ≠ commandLogin → False := fun c e hne =>
      hne (e.symm.trans (hcommand.trans hlogin))
    exact ⟨hmeta, hstaged, ⟨view, hrequest⟩, fun h => (hother _ h (by decide)).elim,
      fun _ => authServiceLogin_reported rt _ _ repo w, fun h => (hother _ h (by decide)).elim,
      fun h => (hother _ h (by decide)).elim, fun h => (hservice h).elim⟩
  · rw [if_neg hlogin]
    exact ⟨hmeta, hstaged, ⟨view, hrequest⟩, fun _ => authServiceRegister_reported rt _ _ repo w,
      fun h => (hlogin (hcommand.symm.trans h)).elim, fun h => (hresume (hcommand.symm.trans h)).elim,
      fun h => (hlogout (hcommand.symm.trans h)).elim, fun h => (hservice h).elim⟩

include hops in
/-- **A task whose context is good** gives a result that can be told, whatever stops it. -/
theorem authTaskExecute_sound {options : AuthTaskOptions} {target : LogoutIdentity}
    (hborrow : borrowRequest task (authTaskCommand options task.metadata.operation) = .ok (view, target))
    (hoptions : authTaskCommand options options.registerOperation ≠ 0) (hwait : options.poolTimeoutMs ≤ poolWaitMsMax)
    (hmeta : context.metadata = task.metadata) (hid : context.requestId.isZero = false)
    (cancelRequested : Bool) (repo : Repo) (w : W) :
    (authTaskExecute rt task context options cancelRequested repo w).result.Sound task := by
  obtain ⟨hcommand, hmember, -, hpayload⟩ := borrowRequest_ok hborrow
  have hknown : authTaskCommand options task.metadata.operation ≠ 0 := by
    intro h0
    rw [h0] at hmember
    exact absurd hmember (by decide)
  have hsame : task.metadata.sameRequest context.metadata = .ok true := by
    rw [hmeta, TaskMetadata.sameRequest_eq task.valid task.valid]
    exact congrArg Except.ok (decide_eq_true ⟨rfl, rfl⟩)
  have hrequest : borrowRequest task view.command = .ok (view, target) := hcommand.symm ▸ hborrow
  unfold authTaskExecute
  rw [if_neg hoptions, if_neg (UInt32.not_lt.mpr hwait), hid, if_neg Bool.false_ne_true, hsame]
  dsimp only
  rw [if_neg (by simp [hmeta])]
  unfold authTaskRequest
  rw [if_neg hpayload, if_neg hknown, hborrow]
  dsimp only
  have hblank : ∀ stage rc, AuthTaskResult.Blank
      { stage := stage, metadata := task.metadata, command := view.command, logoutTarget := target, result := rc } :=
    fun _ _ => ⟨rfl, rfl, rfl, rfl, rfl⟩
  split
  · exact (hblank .match .range).sound rfl nofun ⟨view, hrequest⟩ nofun
  split
  · exact (hblank .cancel .cancelled).sound rfl nofun ⟨view, hrequest⟩ nofun
  split
  · exact (hblank .deadline .timeout).sound rfl nofun ⟨view, hrequest⟩ nofun
  · exact authTaskService_sound rt hops rfl rfl rfl hrequest options repo w

omit hops in
theorem AuthWorkerOptions.validate_ok {o : AuthWorkerOptions} {task : AuthTask} {r : AuthTaskResult}
    (h : (o.validate task r).1 = .ok) : ∃ view target,
      borrowRequest task (authTaskCommand o.execution task.metadata.operation) = .ok (view, target) ∧
        (o.validate task r).2 =
          { r with metadata := task.metadata, command := view.command, logoutTarget := target } := by
  unfold AuthWorkerOptions.validate at h ⊢
  by_cases hknown : authTaskCommand o.execution task.metadata.operation = 0
  · rw [if_pos hknown] at h
    cases h
  rw [if_neg hknown] at h ⊢
  cases hborrow : borrowRequest task (authTaskCommand o.execution task.metadata.operation) with
  | error f =>
    rw [hborrow] at h
    dsimp only at h
    split at h
    · cases h
    · exact absurd h f.1.property
  | ok borrowed =>
    rw [hborrow] at h
    dsimp only at h ⊢
    refine ⟨borrowed.1, borrowed.2, rfl, ?_⟩
    split <;> rfl

include hops in
/-- **What a worker has of a task that it validated** can be told, whatever its dependencies do. -/
theorem authWorkerRun_sound (o : AuthWorkerOptions) (task : AuthTask) (i : AuthWorkerInputs) (w : W)
    (h : (authWorkerRun rt o task i w).taskValidated = true) : (authWorkerRun rt o task i w).result.Sound task := by
  unfold authWorkerRun at h ⊢
  by_cases hvalid : (o.validate task { stage := .context }).1 = .ok
  · obtain ⟨view, target, hborrow, hr⟩ := AuthWorkerOptions.validate_ok hvalid
    obtain ⟨hcommand, -⟩ := borrowRequest_ok hborrow
    have hrequest : borrowRequest task view.command = .ok (view, target) := hcommand.symm ▸ hborrow
    have hblank : ∀ rc, AuthTaskResult.Blank
        { stage := .context, metadata := task.metadata, command := view.command, logoutTarget := target, result := rc } :=
      fun _ => ⟨rfl, rfl, rfl, rfl, rfl⟩
    rw [if_neg (not_not.mpr hvalid), hr]
    unfold authWorkerWork
    split
    · exact (hblank _).sound rfl nofun ⟨view, hrequest⟩ ‹_›
    split
    · exact (hblank _).sound rfl nofun ⟨view, hrequest⟩ ‹_›
    split
    · rename_i e he
      exact (hblank _).sound rfl nofun ⟨view, hrequest⟩ e.result.property
    · rename_i context hcontext
      obtain ⟨hmeta, hid⟩ := authTaskContextWith_ok hcontext
      exact authTaskExecute_sound rt hops hborrow o.operations o.wait hmeta hid i.cancelRequested {} w
  · rw [if_pos hvalid] at h
    exact absurd h Bool.false_ne_true

end Execute

end Vireo.Service
