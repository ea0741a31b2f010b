/-
  File:      Vireo/App/Shutdown.lean
  Subject:   WHAT THE SERVER PROCESS RETURNS WHEN IT IS STOPPED.

  Seven domains of work each latch their faults. A worker that finishes after its completion queue was
  closed latches a publish fault, which is no failure of the run; the verdict forgets this for REMOVE.
-/
import Mathlib.Logic.Function.Basic
import Vireo.Base.Result

namespace Vireo.App

open Function List

/-! ## 1. The worker runtimes -/

/-- The domains of work. The runtime of each lies over that of the one before. -/
inductive Domain where
  | auth | stat | root | list | mkdir | move | remove
deriving DecidableEq

def domains : List Domain := [.auth, .stat, .root, .list, .mkdir, .move, .remove]

namespace Domain

def rank : Domain → Nat
  | auth => 0
  | stat => 1
  | root => 2
  | list => 3
  | mkdir => 4
  | move => 5
  | remove => 6

def previous : Domain → Domain
  | auth | stat => auth
  | root => stat
  | list => root
  | mkdir => list
  | move => mkdir
  | remove => move

def below (d : Domain) : List Domain := domains.take d.rank
def upTo (d : Domain) : List Domain := domains.take (d.rank + 1)

/-- The operations of the tasks of a domain. -/
def operations : Domain → List UInt32
  | auth => [100, 101, 102, 103]
  | stat => [104]
  | root => [105]
  | list => [106]
  | mkdir => [107]
  | move => [108]
  | remove => [109]

end Domain

def faultCreate : UInt32 := 1
def faultTask : UInt32 := 2
def faultCleanup : UInt32 := 4
def faultPublish : UInt32 := 8
def faultDispatch : UInt32 := 32

structure CleanupReport where
  repositoryCalled : Bool
  repositoryResult : Result
  detachCalled : Bool
  detachResult : Result
  completionCalled : Bool
  completionResult : Result
  repositoryPending : Bool
  threadPending : Bool
  completionPending : Bool

def CleanupReport.failed (p : CleanupReport) : Bool :=
  (p.repositoryCalled && p.repositoryResult != .ok) || (p.detachCalled && p.detachResult != .ok) ||
    (p.completionCalled && p.completionResult != .ok) || p.repositoryPending || p.threadPending ||
    p.completionPending

/-- What a worker reports of one task. -/
structure WorkerReport where
  taskValidated : Bool
  publicationBlocked : Bool
  cleanup : CleanupReport
  workCleanup : Result
  cleanupPending : Bool
  publishCalled : Bool
  publishResult : Result
  completionTransferred : Bool

/-- A closed completion queue takes nothing. -/
def WorkerReport.publishedTo (p : WorkerReport) (closed : Bool) : WorkerReport :=
  if closed then { p with publishResult := .cancelled, completionTransferred := false } else p

/-- The bits that `execute_with` latches when the worker has run. -/
def faultBits (d : Domain) (p : WorkerReport) : UInt32 :=
  (if p.taskValidated then 0 else faultTask) |||
    (if p.cleanup.failed ∨ (d ≠ .auth ∧ (p.publicationBlocked ∨ p.workCleanup ≠ .ok ∨ p.cleanupPending))
      then faultCleanup else 0) |||
    (if ¬ p.publishCalled ∨ p.publishResult ≠ .ok ∨ ¬ p.completionTransferred then faultPublish else 0)

structure DestroyReport where
  result : Result
  owned : Bool
  cleanup : CleanupReport

def destroyBits (p : DestroyReport) : UInt32 :=
  if p.result ≠ .ok ∨ p.owned ∨ p.cleanup.failed then faultCleanup else 0

/-- What the calls of a step answer. -/
structure Answers where
  inspect : Result
  create : Result
  report : WorkerReport
  destroy : DestroyReport

/-- Where a worker is: before the runtime of `level`, before its own run, or with up to `attempts` calls left
    to destroy what it ran with. -/
inductive WorkerPhase where
  | idle
  | entering (level : Domain) (operation : UInt32)
  | creating (d : Domain)
  | destroying (d : Domain) (attempts : Nat)

/-- A worker is at a domain up to `top`. -/
def WorkerPhase.Within (top : Domain) : WorkerPhase → Prop
  | .idle => True
  | .entering d _ | .creating d | .destroying d _ => d ∈ top.upTo

/-- Bits that were latched, and whether the completion queue of the domain was closed by then. -/
structure Latch where
  domain : Domain
  bits : UInt32
  closed : Bool

/-! ## 2. The process -/

/-- The process: what its workers run, the fault words, the queues that are closed, and the words sampled at
    the stop. -/
structure Process where
  top : Domain
  destroyAttempts : Nat
  faults : Domain → UInt32
  tasks : List UInt32
  worker : Nat → WorkerPhase
  queueClosed : Domain → Bool
  tasksClosed : Bool
  atStop : Option (Domain → UInt32)

namespace Process

/-- `faults` and `remove_fault`: the words of the domains that have a runtime. -/
def sampled (p : Process) (d : Domain) : UInt32 := if d ∈ p.top.upTo then p.faults d else 0

def goTo (p : Process) (w : Nat) (phase : WorkerPhase) : List Latch × Process :=
  ([], { p with worker := update p.worker w phase })

def latch (p : Process) (w : Nat) (phase : WorkerPhase) (d : Domain) (bits : UInt32) : List Latch × Process :=
  ([⟨d, bits, p.queueClosed d⟩],
    { p with faults := update p.faults d (p.faults d ||| bits), worker := update p.worker w phase })

/-- One step of worker `w`: none without a task, nor when it could not destroy what it ran with. -/
def execute (p : Process) (w : Nat) (x : Answers) : Option (List Latch × Process) :=
  match p.worker w with
  | .idle =>
    match p.tasks with
    | [] => none
    | operation :: rest => some (goTo { p with tasks := rest } w (.entering p.top operation))
  | .entering level operation =>
    if ∃ d ∈ level.upTo, p.faults d ≠ 0 then some (p.goTo w .idle)
    else if level = .auth then some (p.goTo w (.creating .auth))
    else if x.inspect ≠ .ok then some (p.latch w .idle level faultDispatch)
    else if ∃ d ∈ level.below, operation ∈ d.operations then
      some (p.goTo w (.entering level.previous operation))
    else if operation ∈ level.operations then some (p.goTo w (.creating level))
    -- the uppermost runtime leaves a task that is of no domain alone
    else if level = .remove then some (p.goTo w .idle)
    else some (p.latch w .idle level faultDispatch)
  | .creating d =>
    if x.create ≠ .ok then some (p.latch w .idle d faultCreate)
    else some (p.latch w (.destroying d p.destroyAttempts) d
      (faultBits d (x.report.publishedTo (p.queueClosed d))))
  | .destroying _ 0 => none
  | .destroying d (n + 1) =>
    some (p.latch w (if x.destroy.owned then .destroying d n else .idle) d (destroyBits x.destroy))

/-- A step of the stopped process: of a worker, or of the main thread, which samples the words and closes the
    queues. -/
inductive Step (p : Process) : List Latch → Process → Prop
  | work {es : List Latch} {p' : Process} (w : Nat) (x : Answers) (h : p.execute w x = some (es, p')) :
      Step p es p'
  | sample (h : p.atStop = none) : Step p [] { p with atStop := some p.sampled }
  | closeTasks (h : p.atStop ≠ none) : Step p [] { p with tasks := [], tasksClosed := true }
  | closeQueue (h : p.atStop ≠ none) (d : Domain) :
      Step p [] { p with queueClosed := update p.queueClosed d true }

/-- The runs, and what was latched on them. -/
inductive Run (p : Process) : List Latch → Process → Prop
  | stop : Run p [] p
  | step {log es : List Latch} {p' p'' : Process} (run : Run p log p') (h : Step p' es p'') :
      Run p (log ++ es) p''

/-- The signal is taken: nothing is sampled, no queue is closed. -/
structure Running (p : Process) : Prop where
  within : ∀ w, (p.worker w).Within p.top
  unsampled : p.atStop = none
  opened : ∀ d, p.queueClosed d = false

/-- All queues are closed, and the workers are joined; `s` was sampled at the stop. -/
structure Stopped (p : Process) (s : Domain → UInt32) : Prop where
  sampled : p.atStop = some s
  tasks : p.tasksClosed = true
  queues : ∀ d ∈ p.top.upTo, p.queueClosed d = true
  joined : ∀ w, p.worker w = .idle

end Process

structure ProcessReport where
  stopSignal : Bool
  cleanupResult : Result
  atStop : Domain → UInt32
  final : Domain → UInt32

/-- The end of `run`. -/
def runVerdict (rc : Result) (r : ProcessReport) : Result :=
  if rc = .ok ∧ (r.cleanupResult ≠ .ok ∨ (∃ d ∈ domains, r.atStop d ≠ 0) ∨ r.final .remove ≠ 0 ∨
      (∃ d ∈ domains, r.final d &&& ~~~faultPublish ≠ 0) ∨
      (r.stopSignal = false ∧ ∃ d ∈ domains, r.final d ≠ 0)) then .internal
  else rc

/-! ## 3. What is latched stays -/

theorem mem_domains (d : Domain) : d ∈ domains := by
  cases d <;> decide

theorem previous_mem_upTo {top level : Domain} (h : level ∈ top.upTo) : level.previous ∈ top.upTo := by
  revert h
  cases top <;> cases level <;> decide

theorem top_mem_upTo (top : Domain) : top ∈ top.upTo := by
  cases top <;> decide

theorem or_and_eq_zero {a b m : UInt32} : (a ||| b) &&& m = 0 ↔ a &&& m = 0 ∧ b &&& m = 0 := by
  have h : (a ||| b) &&& m = (a &&& m) ||| (b &&& m) :=
    UInt32.toBitVec_inj.mp BitVec.and_or_distrib_right
  rw [h, UInt32.or_eq_zero_iff]

/-- The word of `d` has no bit of `m` after `log`. -/
def Clear (faults : Domain → UInt32) (log : List Latch) (d : Domain) (m : UInt32) : Prop :=
  faults d &&& m = 0 ∧ ∀ e ∈ log, e.domain = d → e.bits &&& m = 0

/-- What a step of a worker leaves, and what it latches. -/
structure Worked (p : Process) (es : List Latch) (p' : Process) : Prop where
  top : p'.top = p.top
  atStop : p'.atStop = p.atStop
  queueClosed : p'.queueClosed = p.queueClosed
  words : ∀ d m, p'.faults d &&& m = 0 ↔ Clear p.faults es d m
  events : ∀ e ∈ es, e.domain ∈ p.top.upTo ∧ e.closed = p.queueClosed e.domain
  within : ∀ w, (p'.worker w).Within p.top

section Steps

variable {p p' : Process} {es : List Latch} {w : Nat} {phase : WorkerPhase} {d : Domain}

section

variable (h : ∀ v, (p.worker v).Within p.top)
include h

theorem within_update (hphase : phase.Within p.top) (v : Nat) :
    (update p.worker w phase v).Within p.top := by
  rw [update_apply]
  split
  · exact hphase
  · exact h v

theorem worked_goTo (hphase : phase.Within p.top) : Worked p (p.goTo w phase).1 (p.goTo w phase).2 where
  top := rfl
  atStop := rfl
  queueClosed := rfl
  words _ _ := ⟨fun hw => ⟨hw, fun _ he => absurd he not_mem_nil⟩, fun hw => hw.1⟩
  events _ he := absurd he not_mem_nil
  within := within_update h hphase

theorem worked_latch (hd : d ∈ p.top.upTo) (hphase : phase.Within p.top) (bits : UInt32) :
    Worked p (p.latch w phase d bits).1 (p.latch w phase d bits).2 where
  top := rfl
  atStop := rfl
  queueClosed := rfl
  words e m := by
    show update p.faults d (p.faults d ||| bits) e &&& m = 0 ↔
      p.faults e &&& m = 0 ∧ ∀ x ∈ [Latch.mk d bits (p.queueClosed d)], x.domain = e → x.bits &&& m = 0
    rw [forall_mem_singleton]
    by_cases hde : d = e
    · subst hde
      rw [update_self, or_and_eq_zero]
      exact and_congr_right fun _ => ⟨fun hb _ => hb, fun hb => hb rfl⟩
    · rw [update_of_ne (Ne.symm hde)]
      exact ⟨fun hw => ⟨hw, fun he => absurd he hde⟩, fun hw => hw.1⟩
  events e he := by
    rw [mem_singleton.mp he]
    exact ⟨hd, rfl⟩
  within := within_update h hphase

theorem worked_execute {x : Answers} (hx : p.execute w x = some (es, p')) : Worked p es p' := by
  have hw := h w
  have hgo : ∀ phase : WorkerPhase, phase.Within p.top → some (p.goTo w phase) = some (es, p') →
      Worked p es p' := by
    intro phase hphase heq
    obtain ⟨rfl, rfl⟩ := Prod.mk.inj (Option.some.inj heq)
    exact worked_goTo h hphase
  have hlatch : ∀ (phase : WorkerPhase) (d : Domain) (bits : UInt32), phase.Within p.top → d ∈ p.top.upTo →
      some (p.latch w phase d bits) = some (es, p') → Worked p es p' := by
    intro phase d bits hphase hd heq
    obtain ⟨rfl, rfl⟩ := Prod.mk.inj (Option.some.inj heq)
    exact worked_latch h hd hphase bits
  unfold Process.execute at hx
  split at hx
  next =>
    split at hx
    · cases hx
    next operation rest _ =>
      obtain ⟨rfl, rfl⟩ := Prod.mk.inj (Option.some.inj hx)
      have hgo := @worked_goTo { p with tasks := rest } w (.entering p.top operation) h (top_mem_upTo p.top)
      exact { hgo with }
  next level operation hphase =>
    rw [hphase] at hw
    split at hx
    · exact hgo .idle trivial hx
    split at hx
    next hauth => exact hgo (.creating .auth) (hauth ▸ hw) hx
    split at hx
    · exact hlatch .idle level _ trivial hw hx
    split at hx
    · exact hgo (.entering level.previous operation) (previous_mem_upTo hw) hx
    split at hx
    · exact hgo (.creating level) hw hx
    split at hx
    · exact hgo .idle trivial hx
    · exact hlatch .idle level _ trivial hw hx
  next d hphase =>
    rw [hphase] at hw
    split at hx
    · exact hlatch .idle d _ trivial hw hx
    · exact hlatch (.destroying d _) d _ hw hw hx
  next => cases hx
  next d n hphase =>
    rw [hphase] at hw
    refine hlatch _ d _ ?_ hw hx
    split
    · exact hw
    · trivial

end

end Steps

/-! ## 4. The runs -/

/-- Until the sample no queue is closed, and nothing that was latched is lost. -/
structure Account (p₀ : Process) (log : List Latch) (p : Process) : Prop where
  top : p.top = p₀.top
  within : ∀ w, (p.worker w).Within p.top
  words : ∀ d m, p.faults d &&& m = 0 ↔ Clear p₀.faults log d m
  inside : ∀ e ∈ log, e.domain ∈ p₀.top.upTo
  before : p.atStop = none → (∀ d, p.queueClosed d = false) ∧ ∀ e ∈ log, e.closed = false
  after : ∀ s, p.atStop = some s → ∃ early late, log = early ++ late ∧ (∀ e ∈ early, e.closed = false) ∧
    ∀ d m, s d &&& m = 0 ↔ d ∈ p₀.top.upTo → Clear p₀.faults early d m

theorem Account.step {p₀ p p' : Process} {log es : List Latch} (a : Account p₀ log p) (h : p.Step es p') :
    Account p₀ (log ++ es) p' := by
  cases h with
  | work w x hx =>
    have hw := worked_execute a.within hx
    refine ⟨hw.top.trans a.top, fun v => hw.top ▸ hw.within v, fun d m => ?_, ?_, fun hs => ?_, fun s hs => ?_⟩
    · rw [hw.words, Clear, a.words, Clear, Clear, and_assoc, forall_mem_append]
    · exact forall_mem_append.mpr ⟨a.inside, fun e he => a.top ▸ (hw.events e he).1⟩
    · obtain ⟨hopen, hearly⟩ := a.before (hw.atStop ▸ hs)
      refine ⟨fun d => hw.queueClosed ▸ hopen d, forall_mem_append.mpr ⟨hearly, fun e he => ?_⟩⟩
      rw [(hw.events e he).2, hopen]
    · obtain ⟨early, late, rfl, hrest⟩ := a.after s (hw.atStop ▸ hs)
      exact ⟨early, late ++ es, append_assoc .., hrest⟩
  | sample hs =>
    rw [List.append_nil]
    refine { a with before := nofun, after := fun s h => ?_ }
    obtain rfl := Option.some.inj h
    refine ⟨log, [], (List.append_nil _).symm, (a.before hs).2, fun d m => ?_⟩
    rw [Process.sampled, a.top, ← a.words]
    split <;> simp [*]
  | closeTasks hs =>
    rw [List.append_nil]
    exact { a with before := fun h => absurd h hs }
  | closeQueue hs d =>
    rw [List.append_nil]
    exact { a with before := fun h => absurd h hs }

theorem account {p p' : Process} {log : List Latch} (hp : p.Running) (run : p.Run log p') :
    Account p log p' := by
  induction run with
  | stop =>
    refine ⟨rfl, hp.within, fun d m => ⟨fun h => ⟨h, nofun⟩, fun h => h.1⟩, nofun,
      fun _ => ⟨hp.opened, nofun⟩, fun s hs => ?_⟩
    rw [hp.unsampled] at hs
    cases hs
  | step _ h ih => exact ih.step h

theorem and_all (x : UInt32) : x &&& ~~~0 = x := by simp

/-- **Which runs are reported as failures.** If nothing was latched before the stop and only publish faults are
    after it, by workers whose completion queue was closed, the run returns OK exactly if no worker of REMOVE
    latched one. -/
theorem stop_verdict {p p' : Process} {log : List Latch} {s : Domain → UInt32} (hp : p.Running)
    (run : p.Run log p') (stopped : p'.Stopped s) :
    ((∀ d ∈ p.top.upTo, p.faults d = 0) → (∀ e ∈ log, e.bits = 0 ∨ (e.bits = faultPublish ∧ e.closed = true)) →
      (runVerdict .ok ⟨true, .ok, s, p'.sampled⟩ = .ok ↔ ∀ e ∈ log, e.domain = .remove → e.bits = 0)) ∧
    ∀ cleanup, ((∃ d ∈ p.top.upTo, p.faults d ≠ 0) ∨ (∃ e ∈ log, e.bits &&& ~~~faultPublish ≠ 0)) →
      runVerdict .ok ⟨true, cleanup, s, p'.sampled⟩ = .internal := by
  have a := account hp run
  obtain ⟨early, late, rfl, hopen, hs⟩ := a.after s stopped.sampled
  have hfinal : ∀ d m, p'.sampled d &&& m = 0 ↔ (d ∈ p.top.upTo → Clear p.faults (early ++ late) d m) := by
    intro d m
    rw [Process.sampled, a.top, ← a.words]
    split <;> simp [*]
  refine ⟨fun hclean hlate => ?_, fun cleanup hbad => ?_⟩
  · have hstop : ∀ d, s d = 0 := by
      intro d
      rw [← and_all (s d), hs]
      refine fun hd => ⟨by rw [hclean d hd, UInt32.zero_and], fun e he _ => ?_⟩
      rw [(hlate e (mem_append_left _ he)).resolve_right fun h => by simp [hopen e he] at h, UInt32.zero_and]
    have hmask : ∀ d, p'.sampled d &&& ~~~faultPublish = 0 := by
      intro d
      refine (hfinal d _).mpr fun hd => ⟨by rw [hclean d hd, UInt32.zero_and], fun e he _ => ?_⟩
      rcases hlate e he with h | ⟨h, -⟩
      · rw [h, UInt32.zero_and]
      · rw [h]
        decide
    have hremove : p'.sampled .remove = 0 ↔ ∀ e ∈ early ++ late, e.domain = .remove → e.bits = 0 := by
      rw [← and_all (p'.sampled .remove), hfinal]
      refine ⟨fun h e he hd => ?_, fun h hd => ⟨by rw [hclean _ hd, UInt32.zero_and], fun e he hr => ?_⟩⟩
      · rw [← and_all e.bits]
        exact (h (hd ▸ a.inside e he)).2 e he hd
      · rw [h e he hr, UInt32.zero_and]
    rw [← hremove]
    simp [runVerdict, hstop, hmask]
  · refine if_pos ⟨rfl, .inr ?_⟩
    rcases hbad with ⟨d, hd, hne⟩ | ⟨e, he, hne⟩
    · refine .inl ⟨d, mem_domains d, fun hzero => hne ?_⟩
      have hzero : s d = 0 := hzero
      have hw := (hs d (~~~0)).mp (by rw [hzero, UInt32.zero_and]) hd
      rw [← and_all (p.faults d)]
      exact hw.1
    · refine .inr (.inr (.inl ⟨e.domain, mem_domains _, fun hzero => hne ?_⟩))
      exact ((hfinal _ _).mp hzero (a.inside e he)).2 e he rfl

/-- A worker is about to run a task of `d` when the process is stopped. -/
def inFlight (d : Domain) : Process :=
  ⟨.remove, 3, fun _ => 0, [], update (fun _ => .idle) 0 (.creating d), fun _ => false, false, none⟩

theorem running_inFlight (d : Domain) : (inFlight d).Running := by
  refine ⟨fun w => ?_, rfl, fun _ => rfl⟩
  have hphase : (WorkerPhase.creating d).Within .remove := mem_domains d
  exact within_update (p := { inFlight d with worker := fun _ => .idle }) (fun _ => trivial) hphase w

/-- Everything succeeds. -/
def calm : Answers :=
  ⟨.ok, .ok, ⟨true, false, ⟨true, .ok, true, .ok, true, .ok, false, false, false⟩, .ok, false, true, .ok, true⟩,
    .ok, false, ⟨true, .ok, true, .ok, true, .ok, false, false, false⟩⟩

/-- It finishes after the queues were closed, and latches a publish fault. -/
theorem late_run (d : Domain) : ∃ p', (inFlight d).Run [⟨d, faultPublish, true⟩, ⟨d, 0, true⟩] p' ∧
    p'.Stopped (fun _ => 0) ∧ p'.sampled .remove = if d = .remove then faultPublish else 0 := by
  have hclose : ∀ (l : List Domain) (p : Process), (inFlight d).Run [] p → p.atStop ≠ none →
      (inFlight d).Run [] (l.foldl (fun p d => { p with queueClosed := update p.queueClosed d true }) p) := by
    intro l
    induction l with
    | nil => exact fun p h _ => h
    | cons d l ih => exact fun p h hs => ih _ (h.step (.closeQueue hs d)) hs
  have hclosed := hclose domains _ ((Process.Run.stop.step (.sample rfl)).step (.closeTasks nofun)) nofun
  cases d <;> refine ⟨_, (hclosed.step (.work 0 calm rfl)).step (.work 0 calm rfl),
    ⟨congrArg some (funext fun _ => ite_self _), rfl, by decide, fun w => by cases w <;> rfl⟩, by decide⟩

/-- A MOVE that finishes late is no failure. -/
theorem stop_verdict_move : ∃ p' log, (inFlight .move).Run log p' ∧ p'.Stopped (fun _ => 0) ∧
    (∃ e ∈ log, e.bits = faultPublish) ∧ runVerdict .ok ⟨true, .ok, fun _ => 0, p'.sampled⟩ = .ok := by
  obtain ⟨p', run, stopped, -⟩ := late_run .move
  refine ⟨p', _, run, stopped, ⟨_, mem_cons_self, rfl⟩, ?_⟩
  exact ((stop_verdict (running_inFlight .move) run stopped).1 (fun _ _ => rfl) (by simp)).mpr (by simp)

/-- A REMOVE that finishes late is. -/
theorem late_remove_fails : ¬ ∀ (p p' : Process) (log : List Latch) (s : Domain → UInt32), p.Running →
    p.Run log p' → p'.Stopped s → (∀ d ∈ p.top.upTo, p.faults d = 0) →
    (∀ e ∈ log, e.bits = 0 ∨ (e.bits = faultPublish ∧ e.closed = true)) →
    runVerdict .ok ⟨true, .ok, s, p'.sampled⟩ = .ok := by
  intro h
  obtain ⟨p', run, stopped, hremove⟩ := late_run .remove
  have hok := h _ p' _ _ (running_inFlight .remove) run stopped (fun _ _ => rfl) (by simp)
  have hbad : runVerdict .ok ⟨true, .ok, fun _ => 0, p'.sampled⟩ = .internal := by
    refine if_pos ⟨rfl, .inr (.inr (.inl ?_))⟩
    show p'.sampled .remove ≠ 0
    rw [hremove]
    decide
  rw [hbad] at hok
  cases hok

end Vireo.App
