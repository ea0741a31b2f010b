/-
  File:      Vireo/Thread/TaskTransfer.lean
  Subject:   ANY NUMBER OF PRODUCERS AND CONSUMERS ON ONE TASK QUEUE.

  A participant has one owner variable. A step is one critical section of one participant, in any order
  and with any pthread codes; a participant that waits on the condition does nothing else until it is
  woken, for whatever reason.
-/
import Vireo.Lib.Handover
import Vireo.Thread.TaskQueue

namespace Vireo.Thread

open Vireo.Lib Function

/-- A queue with its participants: their owner variables, who waits, what is alive, and what was
    transferred in and out so far. -/
structure TaskSystem (α τ : Type) where
  queue : TaskQueue τ
  owner : α → Option τ
  waiting : α → Bool
  live : List τ
  pushed : List τ
  popped : List τ

/-- What a participant can do next; `close` and `prepareWait` are anybody's. -/
inductive QueueEvent (α τ : Type) where
  | supply (a : α) (t : τ)
  | dispose (a : α)
  | push (a : α) (codes : SyncCodes)
  | pop (a : α) (codes : SyncCodes)
  | takeCancelled (a : α) (codes : SyncCodes)
  | waitPop (a : α) (codes : SyncCodes)
  | wake (a : α) (wait unlock : Nat)
  | close (mode : QueueState) (codes : SyncCodes)
  | prepareWait (init : Nat)

namespace TaskSystem

variable {α τ : Type}

variable (s : TaskSystem α τ)

/-- The hand-over that the system is. -/
def handover : Handover α τ :=
  ⟨s.queue.ring, s.owner, s.live, s.pushed, s.popped⟩

variable [DecidableEq α]

/-- A push of `a` has returned. -/
def gave (a : α) (x : Exchange τ (TaskQueue τ)) : TaskSystem α τ :=
  { s with
    queue := x.queue
    owner := update s.owner a x.owner
    pushed := s.pushed ++ if x.report.transferred then (s.owner a).toList else [] }

/-- A taking call of `a` has returned. -/
def got (a : α) (x : Exchange τ (TaskQueue τ)) : TaskSystem α τ :=
  { s with
    queue := x.queue
    owner := update s.owner a x.owner
    waiting := update s.waiting a false
    popped := s.popped ++ if x.report.transferred then x.owner.toList else [] }

/-- A section of `wait_pop` of `a` has ended. -/
def waited (a : α) : WaitOutcome τ (TaskQueue τ) → TaskSystem α τ
  | .blocked => { s with waiting := update s.waiting a true }
  | .returned x => s.got a x

variable [DecidableEq τ]

/-- One step. A waiting participant can only be woken; nobody creates a second task over one in hand,
    or a task that is alive. -/
def exec : QueueEvent α τ → TaskSystem α τ
  | .supply a t =>
    if s.waiting a ∨ (s.owner a).isSome ∨ t ∈ s.live then s
    else { s with owner := update s.owner a (some t), live := t :: s.live }
  | .dispose a =>
    match s.owner a with
    | none => s
    | some t =>
      if s.waiting a then s
      else { s with owner := update s.owner a none, live := s.live.erase t }
  | .push a codes =>
    if s.waiting a then s else s.gave a (s.queue.transfer (s.owner a) .push codes)
  | .pop a codes =>
    if s.waiting a then s else s.got a (s.queue.transfer (s.owner a) .pop codes)
  | .takeCancelled a codes =>
    if s.waiting a then s else s.got a (s.queue.transfer (s.owner a) .takeCancelled codes)
  | .waitPop a codes =>
    if s.waiting a then s else s.waited a (s.queue.waitPop (s.owner a) codes)
  | .wake a wait unlock =>
    if s.waiting a then s.waited a (s.queue.waitPopWake wait unlock) else s
  | .close mode codes => { s with queue := (s.queue.close mode codes).2.2 }
  | .prepareWait init => { s with queue := (s.queue.prepareWait init).2 }

end TaskSystem


open TaskSystem (exec gave got handover)
/-- The states reached from a created queue whose participants have empty hands. -/
inductive TaskRun {α τ : Type} [DecidableEq α] [DecidableEq τ] : TaskSystem α τ → Prop
  | create {capacity maxMemoryBytes : UInt64} {memory : Bool} {init : Nat} {q : TaskQueue τ}
      (h : TaskQueue.create capacity maxMemoryBytes memory init = .ok q) :
      TaskRun ⟨q, fun _ => none, fun _ => false, [], [], []⟩
  | step {s : TaskSystem α τ} (h : TaskRun s) (e : QueueEvent α τ) : TaskRun (s.exec e)

section Steps

variable {α τ : Type} [DecidableEq α] {s : TaskSystem α τ} {a : α} {o : WaitOutcome τ (TaskQueue τ)}
  {x : Exchange τ (TaskQueue τ)} {allowed : QueueState → Prop} {e : QueueEvent α τ}

/-- A waiting participant has empty hands. -/
def TaskSystem.Waits (s : TaskSystem α τ) : Prop := ∀ a, s.waiting a = true → s.owner a = none

theorem waits_waited (hw : s.Waits) (h : s.queue.WaitPopped (s.owner a) o) : (s.waited a o).Waits := by
  intro b hb
  cases o with
  | blocked =>
    change update s.waiting a true b = true at hb
    show s.owner b = none
    by_cases hba : b = a
    · rw [hba]
      exact h.1
    · rw [update_of_ne hba] at hb
      exact hw b hb
  | returned x =>
    change update s.waiting a false b = true at hb
    show update s.owner a x.owner b = none
    by_cases hba : b = a
    · rw [hba, update_self] at hb
      cases hb
    · rw [update_of_ne hba] at hb ⊢
      exact hw b hb

theorem waits_update {s' : TaskSystem α τ} {x : Option τ} (hw : s.Waits) (ha : ¬ s.waiting a = true)
    (howner : s'.owner = update s.owner a x) (hwait : ∀ b, s'.waiting b = true → s.waiting b = true) :
    s'.Waits := by
  intro b hb
  have hb' := hwait b hb
  have hba : b ≠ a := fun e => ha (by rw [← e]; exact hb')
  rw [howner, update_of_ne hba]
  exact hw b hb'

theorem got_waiting (b : α) (hb : (s.got a x).waiting b = true) : s.waiting b = true := by
  change update s.waiting a false b = true at hb
  by_cases hba : b = a
  · rw [hba, update_self] at hb
    cases hb
  · rwa [update_of_ne hba] at hb

/-- A close changes the state of an open queue; tasks go in and come out only as the state allows. -/
structure Step (s s' : TaskSystem α τ) (e : QueueEvent α τ) : Prop where
  retiring : s'.queue.retiring = s.queue.retiring
  state : s'.queue.state = s.queue.state ∨ s.queue.state = .opened
  pushed : s'.pushed = s.pushed ∨ (s.queue.state = .opened ∧ ∃ a codes, e = .push a codes)
  popped : s'.popped = s.popped ∨ (s.queue.state ≠ .cancelPending) ∨
    (s.queue.state = .cancelPending ∧ ∃ a codes, e = .takeCancelled a codes)

/-- The hands and the history after a returned push of `a`. -/
inductive Gave (s : TaskSystem α τ) (a : α) (s' : TaskSystem α τ) : Prop
  | moved (t : τ) (had : s.owner a = some t) (opened : s.queue.state = .opened)
      (owner : s'.owner = update s.owner a none) (pushed : s'.pushed = s.pushed ++ [t])
  | kept (owner : s'.owner = s.owner) (pushed : s'.pushed = s.pushed)

theorem gave_cases (h : s.queue.Pushed (s.owner a) x) : Gave s a (s.gave a x) := by
  unfold gave
  cases h with
  | moved t told had gave ring opened room =>
    refine .moved t had opened ?_ ?_
    · show update s.owner a x.owner = _
      rw [gave]
    · show s.pushed ++ (if x.report.transferred then (s.owner a).toList else []) = _
      rw [told, if_pos rfl, had, Option.toList_some]
  | kept told owner ring =>
    refine .kept ?_ ?_
    · show update s.owner a x.owner = _
      rw [owner, update_eq_self]
    · show s.pushed ++ (if x.report.transferred then (s.owner a).toList else []) = _
      rw [told, if_neg Bool.false_ne_true, List.append_nil]

theorem step_gave {codes : SyncCodes} (h : s.queue.Pushed (s.owner a) x ∧ s.queue.SameMode x.queue) :
    Step s (s.gave a x) (.push a codes) := by
  refine ⟨h.2.retiring, .inl h.2.state, ?_, .inl rfl⟩
  cases gave_cases h.1 with
  | moved t had opened owner pushed => exact .inr ⟨opened, a, codes, rfl⟩
  | kept owner pushed => exact .inl pushed

theorem step_got (h : s.queue.Popped (s.owner a) allowed x ∧ s.queue.SameMode x.queue)
    (he : allowed s.queue.state → s.queue.state ≠ .cancelPending ∨
      (s.queue.state = .cancelPending ∧ ∃ a codes, e = .takeCancelled a codes)) :
    Step s (s.got a x) e := by
  refine ⟨h.2.retiring, .inl h.2.state, .inl rfl, ?_⟩
  cases h.1 with
  | moved told had got ring full state => exact .inr (he state)
  | kept told owner ring =>
    refine .inl ?_
    show s.popped ++ (if x.report.transferred then _ else []) = s.popped
    rw [told, if_neg Bool.false_ne_true, List.append_nil]

theorem step_waited (h : s.queue.WaitPopped (s.owner a) o) : Step s (s.waited a o) e := by
  cases o with
  | blocked => exact ⟨rfl, .inl rfl, .inl rfl, .inl rfl⟩
  | returned x => exact step_got h .inl

variable [DecidableEq τ] {contents : List τ}

section

variable (hr : s.queue.ring.Holds contents)
include hr

theorem move_gave (h : s.queue.Pushed (s.owner a) x) : Handover.Move s.handover (s.gave a x).handover := by
  refine Handover.Gives.move (s := s.handover) hr ?_
  cases h with
  | moved t told had gave ring opened room => exact .moved t told had gave ring room
  | kept told owner ring => exact .kept told owner ring

theorem move_got (h : s.queue.Popped (s.owner a) allowed x) :
    Handover.Move s.handover (s.got a x).handover := by
  refine Handover.Gets.move (s := s.handover) hr ?_
  cases h with
  | moved told had got ring full state => exact .moved told had got ring full
  | kept told owner ring => exact .kept told owner ring

theorem move_waited (h : s.queue.WaitPopped (s.owner a) o) :
    Handover.Move s.handover (s.waited a o).handover := by
  cases o with
  | blocked => exact .stay
  | returned x => exact move_got hr h.1

/-- **A step of the system is one move of the hand-over**, and respects the state of the queue. -/
theorem task_exec (hw : s.Waits) (e : QueueEvent α τ) :
    Handover.Move s.handover (s.exec e).handover ∧ (s.exec e).Waits ∧ Step s (s.exec e) e := by
  have idle : Handover.Move s.handover s.handover ∧ s.Waits ∧ Step s s e :=
    ⟨.stay, hw, rfl, .inl rfl, .inl rfl, .inl rfl⟩
  cases e with
  | supply a t =>
    rw [exec]
    split
    · exact idle
    rename_i h
    rw [not_or, not_or, Option.not_isSome_iff_eq_none] at h
    exact ⟨.supply a t h.2.1 h.2.2, waits_update hw h.1 rfl fun _ => id, rfl, .inl rfl, .inl rfl, .inl rfl⟩
  | dispose a =>
    rw [exec]
    split
    · exact idle
    rename_i t ht
    split
    · exact idle
    · rename_i h
      exact ⟨.dispose a t ht, waits_update hw h rfl fun _ => id, rfl, .inl rfl, .inl rfl, .inl rfl⟩
  | push a codes =>
    rw [exec]
    split
    · exact idle
    · rename_i h
      have hspec := TaskQueue.pushed_spec s.queue (s.owner a) codes
      exact ⟨move_gave hr hspec.1, waits_update hw h rfl fun _ => id, step_gave hspec⟩
  | pop a codes =>
    rw [exec]
    split
    · exact idle
    · rename_i h
      have hspec := TaskQueue.popped_spec s.queue (s.owner a) (by simp : TransferKind.pop ≠ .push) codes
      exact ⟨move_got hr hspec.1, waits_update hw h rfl got_waiting, step_got hspec .inl⟩
  | takeCancelled a codes =>
    rw [exec]
    split
    · exact idle
    · rename_i h
      have hspec := TaskQueue.popped_spec s.queue (s.owner a) (by simp : TransferKind.takeCancelled ≠ .push)
        codes
      exact ⟨move_got hr hspec.1, waits_update hw h rfl got_waiting,
        step_got hspec fun h => .inr ⟨h, a, codes, rfl⟩⟩
  | waitPop a codes =>
    rw [exec]
    split
    · exact idle
    · have hspec := TaskQueue.waitPop_spec s.queue (s.owner a) codes
      exact ⟨move_waited hr hspec, waits_waited hw hspec, step_waited hspec⟩
  | wake a wait unlock =>
    rw [exec]
    split
    · rename_i hwait
      have hspec := TaskQueue.waitPopWake_spec s.queue wait unlock
      rw [← hw a hwait] at hspec
      exact ⟨move_waited hr hspec, waits_waited hw hspec, step_waited hspec⟩
    · exact idle
  | close mode codes =>
    obtain ⟨hring, -, hret, hstate⟩ := TaskQueue.close_spec s.queue mode codes
    have e : (s.exec (.close mode codes)).handover = s.handover := by
      unfold exec handover
      simp only [hring]
    rw [e]
    exact ⟨.stay, hw, hret, hstate.imp id fun h => h.1, .inl rfl, .inl rfl⟩
  | prepareWait init =>
    obtain ⟨hring, hstate, hret, -⟩ := TaskQueue.prepareWait_spec s.queue init
    have e : (s.exec (.prepareWait init)).handover = s.handover := by
      unfold exec handover
      simp only [hring]
    rw [e]
    exact ⟨.stay, hw, hret, .inl hstate, .inl rfl, .inl rfl⟩

end

/-- The hands and the history after a returned taking call of `a`. -/
inductive Got (s : TaskSystem α τ) (a : α) (x : Exchange τ (TaskQueue τ)) (contents : List τ)
    (allowed : QueueState → Prop) : Prop
  | moved (t : τ) (rest : List τ) (first : contents = t :: rest) (had : s.owner a = none)
      (got : x.owner = some t) (told : x.report.transferred = true) (state : allowed s.queue.state)
      (owner : (s.got a x).owner = update s.owner a (some t))
      (popped : (s.got a x).popped = s.popped ++ [t])
  | kept (got : x.owner = s.owner a) (told : x.report.transferred = false)
      (owner : (s.got a x).owner = s.owner) (popped : (s.got a x).popped = s.popped)

omit [DecidableEq τ] in
theorem got_cases (hr : s.queue.ring.Holds contents) (h : s.queue.Popped (s.owner a) allowed x) :
    Got s a x contents allowed := by
  cases h with
  | moved told had got ring full state =>
    obtain ⟨t, rest, rfl⟩ := hr.ne_nil full
    rw [hr.head_full] at got
    refine .moved t rest rfl had got told state ?_ ?_
    · show update s.owner a x.owner = _
      rw [got]
    · show s.popped ++ (if x.report.transferred then x.owner.toList else []) = _
      rw [told, if_pos rfl, got, Option.toList_some]
  | kept told owner ring =>
    refine .kept owner told ?_ ?_
    · show update s.owner a x.owner = _
      rw [owner, update_eq_self]
    · show s.popped ++ (if x.report.transferred then x.owner.toList else []) = _
      rw [told, if_neg Bool.false_ne_true, List.append_nil]

end Steps

/-! ## Runs -/

section Runs

variable {α τ : Type} [DecidableEq α] [DecidableEq τ] {s : TaskSystem α τ} {contents : List τ}

/-- What every run keeps. -/
structure TaskInv (s : TaskSystem α τ) (contents : List τ) : Prop where
  hand : s.handover.Inv contents
  waits : s.Waits
  alive : s.queue.retiring = false

theorem taskInv_exec (inv : TaskInv s contents) (e : QueueEvent α τ) :
    ∃ contents', TaskInv (s.exec e) contents' := by
  obtain ⟨hmove, hwaits, hstep⟩ := task_exec inv.hand.ring inv.waits e
  obtain ⟨contents', h⟩ := inv.hand.move hmove
  exact ⟨contents', h, hwaits, hstep.retiring.trans inv.alive⟩

/-- A queue that gives nothing more to waiting consumers never will again. -/
theorem finished_exec (inv : TaskInv s contents) (h : s.queue.Finished) (e : QueueEvent α τ) :
    (s.exec e).queue.Finished := by
  obtain ⟨hmove, -, hstep⟩ := task_exec inv.hand.ring inv.waits e
  obtain ⟨contents', inv'⟩ := taskInv_exec inv e
  rcases h with hcancel | ⟨hdrain, hempty⟩
  · have hno : s.queue.state ≠ .opened := by rw [hcancel]; simp
    exact .inl ((hstep.state.resolve_right hno).trans hcancel)
  · have hno : s.queue.state ≠ .opened := by rw [hdrain]; simp
    refine .inr ⟨(hstep.state.resolve_right hno).trans hdrain, ?_⟩
    have hpushed := hstep.pushed.resolve_right fun h => hno h.1
    obtain ⟨l, hl⟩ := hmove.popped
    have horder : (s.exec e).pushed = (s.exec e).popped ++ contents' := inv'.hand.order
    have horder0 : s.pushed = s.popped ++ contents := inv.hand.order
    have hcontents : contents.length = 0 := inv.hand.ring.count_eq.symm.trans hempty
    have hlen := congrArg List.length horder
    change (s.exec e).popped = s.popped ++ l at hl
    rw [hpushed, horder0, hl] at hlen
    simp only [List.length_append] at hlen
    have hcount : (s.exec e).queue.ring.count = contents'.length := inv'.hand.ring.count_eq
    omega

theorem taskInv_of_run (run : TaskRun s) : ∃ contents, TaskInv s contents := by
  induction run with
  | create h =>
    obtain ⟨hpos, bytes, rfl⟩ := TaskQueue.create_fresh h
    exact ⟨[], Handover.inv_empty _ hpos, fun _ => nofun, rfl⟩
  | step _ e ih =>
    obtain ⟨contents, inv⟩ := ih
    exact taskInv_exec inv e

/-- **The transfer law of the task queue.** In every state that any interleaving reaches: what came out followed
    by what the ring holds is what went in, in order; every living task has exactly one holder; reports are
    true; and a drain or a cancellation is for good. -/
theorem task_queue_law (run : TaskRun s) :
    ∃ contents, s.queue.ring.Holds contents ∧ s.pushed = s.popped ++ contents ∧
      (∀ h t, s.handover.holds h = some t → t ∈ s.live) ∧
      (∀ t ∈ s.live, ∃! h, s.handover.holds h = some t) ∧
      (∀ a codes, s.queue.Pushed (s.owner a) (s.queue.transfer (s.owner a) .push codes)) ∧
      (∀ a kind codes, kind ≠ .push → s.queue.Popped (s.owner a) (TaskQueue.Takes kind)
        (s.queue.transfer (s.owner a) kind codes)) ∧
      (∀ a codes, s.queue.WaitPopped (s.owner a) (s.queue.waitPop (s.owner a) codes)) ∧
      (∀ a wait unlock, s.waiting a = true → s.queue.WaitPopped (s.owner a) (s.queue.waitPopWake wait unlock)) ∧
      (∀ mode codes, (s.queue.close mode codes).1 = .ok ∨
        (s.queue.close mode codes).2.1.changed = true →
        (s.exec (.close mode codes)).queue.state = mode) ∧
      (s.queue.state = .drain →
        (∀ e, (s.exec e).queue.state = .drain ∧ (s.exec e).pushed = s.pushed) ∧
        ∀ a codes t rest, contents = t :: rest → s.waiting a = false → s.owner a = none →
          codes.lock = 0 → (s.exec (.pop a codes)).owner a = some t ∧
            (s.exec (.pop a codes)).popped = s.popped ++ [t]) ∧
      (s.queue.state = .cancelPending →
        (∀ e, (s.exec e).queue.state = .cancelPending ∧ (s.exec e).pushed = s.pushed ∧
          ((s.exec e).popped = s.popped ∨ ∃ a codes, e = .takeCancelled a codes)) ∧
        ∀ a codes t rest, contents = t :: rest → s.waiting a = false → s.owner a = none →
          codes.lock = 0 → (s.exec (.takeCancelled a codes)).owner a = some t ∧
            (s.exec (.takeCancelled a codes)).popped = s.popped ++ [t]) := by
  obtain ⟨contents, inv⟩ := taskInv_of_run run
  have hr : s.queue.ring.Holds contents := inv.hand.ring
  -- what a taking call by a participant with empty hands does to it
  have takes : ∀ a kind codes t rest, contents = t :: rest → s.owner a = none → codes.lock = 0 →
      kind ≠ .push → TaskQueue.Takes kind s.queue.state →
      (s.got a (s.queue.transfer (s.owner a) kind codes)).owner a = some t ∧
        (s.got a (s.queue.transfer (s.owner a) kind codes)).popped = s.popped ++ [t] := by
    intro a kind codes t rest hc ho hlock hk hstate
    rw [hc] at hr
    obtain ⟨htold, hown⟩ := TaskQueue.transfer_takes hr inv.alive hlock hk hstate
    unfold got
    rw [ho]
    simp only [htold, hown, update_self, if_true, Option.toList_some, and_self]
  refine ⟨contents, hr, inv.hand.order, inv.hand.custody.sound,
    fun t ht => inv.hand.custody.existsUnique ht,
    fun a codes => (TaskQueue.pushed_spec s.queue (s.owner a) codes).1,
    fun a kind codes hk => (TaskQueue.popped_spec s.queue (s.owner a) hk codes).1,
    fun a codes => TaskQueue.waitPop_spec s.queue (s.owner a) codes, fun a wait unlock hwait => ?_,
    fun mode codes h => TaskQueue.close_state h, fun hdrain => ⟨fun e => ?_, ?_⟩,
    fun hcancel => ⟨fun e => ?_, ?_⟩⟩
  · rw [inv.waits a hwait]
    exact TaskQueue.waitPopWake_spec s.queue wait unlock
  · have hstep := (task_exec hr inv.waits e).2.2
    have hno : s.queue.state ≠ .opened := by rw [hdrain]; simp
    exact ⟨(hstep.state.resolve_right hno).trans hdrain, hstep.pushed.resolve_right fun h => hno h.1⟩
  · intro a codes t rest hc hwait ho hlock
    rw [exec]
    rw [hwait, if_neg Bool.false_ne_true]
    exact takes a .pop codes t rest hc ho hlock (by simp) (by rw [hdrain]; simp [TaskQueue.Takes])
  · have hstep := (task_exec hr inv.waits e).2.2
    have hno : s.queue.state ≠ .opened := by rw [hcancel]; simp
    refine ⟨(hstep.state.resolve_right hno).trans hcancel,
      hstep.pushed.resolve_right fun h => hno h.1, hstep.popped.imp id fun h => ?_⟩
    exact (h.resolve_left fun hne => hne hcancel).2
  · intro a codes t rest hc hwait ho hlock
    rw [exec]
    rw [hwait, if_neg Bool.false_ne_true]
    exact takes a .takeCancelled codes t rest hc ho hlock (by simp) hcancel

/-- Two producers, a failed unlock, a close and a late push: both tasks are in the ring, in order. -/
theorem task_queue_law_sample :
    ∃ s : TaskSystem Nat Nat, TaskRun s ∧ s.pushed = [7, 8] ∧ s.popped = [7] ∧
      s.queue.state = .drain ∧ ∃ contents, s.queue.ring.Holds contents ∧ [7, 8] = [7] ++ contents := by
  have hcreate : TaskQueue.create (τ := Nat) 4 4096 true 0 = .ok (.fresh 4 4096 336) := rfl
  have run := (((((((TaskRun.create (α := Nat) hcreate).step (.supply 0 7)).step
    (.push 0 ⟨0, 0, 1⟩)).step (.supply 1 8)).step (.push 1 ⟨0, 0, 0⟩)).step
    (.close .drain ⟨0, 0, 0⟩)).step (.supply 0 9)).step (.push 0 ⟨0, 0, 0⟩) |>.step
    (.pop 2 ⟨0, 0, 0⟩)
  obtain ⟨contents, hr, horder, -⟩ := task_queue_law run
  exact ⟨_, run, rfl, rfl, rfl, contents, hr, horder⟩

end Runs

end Vireo.Thread
