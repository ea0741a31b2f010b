/-
  File:      Vireo/Thread/CompletionTransfer.lean
  Subject:   PRODUCERS AND A CONSUMER ON ONE COMPLETION QUEUE, in any order.

  The participants are as in the task queue's system; a producer that waits for room keeps its
  completion in hand.
-/
import Vireo.Lib.Handover
import Vireo.Thread.CompletionQueue

namespace Vireo.Thread

open Vireo.Lib Function CompletionQueue

/-- A queue with its participants: their owner variables, who waits, what is alive, and what was
    transferred in and out so far. -/
structure CompletionSystem (α τ : Type) where
  queue : CompletionQueue τ
  owner : α → Option τ
  waiting : α → Bool
  live : List τ
  pushed : List τ
  popped : List τ

/-- What a participant can do next; `close` and `prepareWait` are anybody's. -/
inductive CompletionEvent (α τ : Type) where
  | supply (a : α) (t : τ)
  | dispose (a : α)
  | push (a : α) (codes : SyncCodes)
  | waitPush (a : α) (codes : SyncCodes)
  | wake (a : α) (wait unlock : Nat)
  | pop (a : α) (codes : SyncCodes)
  | close (codes : SyncCodes)
  | prepareWait (init : Nat)

namespace CompletionSystem

variable {α τ : Type}

/-- The hand-over that the system is. -/
def handover (s : CompletionSystem α τ) : Handover α τ :=
  ⟨s.queue.ring, s.owner, s.live, s.pushed, s.popped⟩

variable [DecidableEq α]

/-- A push of `a` has returned. -/
def gave (s : CompletionSystem α τ) (a : α) (x : Exchange τ (CompletionQueue τ)) :
    CompletionSystem α τ :=
  { s with
    queue := x.queue
    owner := update s.owner a x.owner
    waiting := update s.waiting a false
    pushed := s.pushed ++ if x.report.transferred then (s.owner a).toList else [] }

/-- A pop of `a` has returned. -/
def got (s : CompletionSystem α τ) (a : α) (x : Exchange τ (CompletionQueue τ)) :
    CompletionSystem α τ :=
  { s with
    queue := x.queue
    owner := update s.owner a x.owner
    popped := s.popped ++ if x.report.transferred then x.owner.toList else [] }

/-- A section of `wait_push` of `a` has ended. -/
def waited (s : CompletionSystem α τ) (a : α) :
    WaitOutcome τ (CompletionQueue τ) → CompletionSystem α τ
  | .blocked => { s with waiting := update s.waiting a true }
  | .returned x => s.gave a x

variable [DecidableEq τ]

/-- One step. A waiting participant can only be woken; nobody creates a second completion over one in
    hand, or a completion that is alive. -/
def exec (s : CompletionSystem α τ) : CompletionEvent α τ → CompletionSystem α τ
  | .supply a t =>
    if s.waiting a ∨ (s.owner a).isSome ∨ t ∈ s.live then s
    else { s with owner := update s.owner a (some t), live := t :: s.live }
  | .dispose a =>
    match s.owner a with
    | none => s
    | some t =>
      if s.waiting a then s
      else { s with owner := update s.owner a none, live := s.live.erase t }
  | .push a codes =>
    if s.waiting a then s else s.gave a (s.queue.tryPush (s.owner a) codes)
  | .waitPush a codes =>
    if s.waiting a then s else s.waited a (s.queue.waitPush (s.owner a) codes)
  | .wake a wait unlock =>
    match s.owner a with
    | none => s
    | some t => if s.waiting a then s.waited a (s.queue.waitPushWake t wait unlock) else s
  | .pop a codes =>
    if s.waiting a then s else s.got a (s.queue.tryPop (s.owner a) codes)
  | .close codes => { s with queue := (s.queue.close codes).2.2 }
  | .prepareWait init => { s with queue := (s.queue.prepareWait init).2 }

end CompletionSystem

open CompletionSystem

/-- The states reached from a created queue whose participants have empty hands. -/
inductive CompletionRun {α τ : Type} [DecidableEq α] [DecidableEq τ] :
    CompletionSystem α τ → Prop
  | create {capacity budget : UInt64} {memory : Bool} {init : Nat} {q : CompletionQueue τ}
      (h : create capacity budget memory init = .ok q) :
      CompletionRun ⟨q, fun _ => none, fun _ => false, [], [], []⟩
  | step {s : CompletionSystem α τ} (h : CompletionRun s) (e : CompletionEvent α τ) :
      CompletionRun (s.exec e)

/-! ## 1. One step -/

/-- What one step may do beside moving a completion: a queue once closed stays closed, and takes
    nothing in. -/
structure CompletionStep {α τ : Type} (s s' : CompletionSystem α τ) : Prop where
  retiring : s'.queue.retiring = s.queue.retiring
  closed : s.queue.closed = true → s'.queue.closed = true
  pushed : s.queue.closed = true → s'.pushed = s.pushed

section Steps

variable {α τ : Type} [DecidableEq α] {s : CompletionSystem α τ} {a : α} {x : Exchange τ (CompletionQueue τ)}
  {o : WaitOutcome τ (CompletionQueue τ)}

theorem completionStep_gave (h : s.queue.Pushed (s.owner a) x ∧ s.queue.SameMode x.queue) :
    CompletionStep s (s.gave a x) := by
  refine ⟨h.2.retiring, fun hc => h.2.closed.trans hc, fun hc => ?_⟩
  cases h.1 with
  | moved t told had gave ring opened room =>
    rw [hc] at opened
    cases opened
  | kept told owner ring =>
    show s.pushed ++ (if x.report.transferred then _ else []) = s.pushed
    rw [told, if_neg Bool.false_ne_true, List.append_nil]

theorem completionStep_waited (h : s.queue.WaitPushed (s.owner a) o) : CompletionStep s (s.waited a o) := by
  cases o with
  | blocked => exact ⟨rfl, id, fun _ => rfl⟩
  | returned x => exact completionStep_gave h

variable [DecidableEq τ] {contents : List τ}

section

variable (hr : s.queue.ring.Holds contents)
include hr

theorem completion_move_gave (h : s.queue.Pushed (s.owner a) x) :
    Handover.Move s.handover (s.gave a x).handover := by
  refine Handover.Gives.move (s := s.handover) hr ?_
  cases h with
  | moved t told had gave ring opened room => exact .moved t told had gave ring room
  | kept told owner ring => exact .kept told owner ring

theorem completion_move_got (h : s.queue.Popped (s.owner a) x) :
    Handover.Move s.handover (s.got a x).handover := by
  refine Handover.Gets.move (s := s.handover) hr ?_
  cases h with
  | moved told had got ring full => exact .moved told had got ring full
  | kept told owner ring => exact .kept told owner ring

theorem completion_move_waited (h : s.queue.WaitPushed (s.owner a) o) :
    Handover.Move s.handover (s.waited a o).handover := by
  cases o with
  | blocked => exact .stay
  | returned x => exact completion_move_gave hr h.1

/-- **A step of the system is one move of the hand-over**, and respects a close. -/
theorem completion_exec (e : CompletionEvent α τ) :
    Handover.Move s.handover (s.exec e).handover ∧ CompletionStep s (s.exec e) := by
  have idle : Handover.Move s.handover s.handover ∧ CompletionStep s s :=
    ⟨.stay, rfl, id, fun _ => rfl⟩
  cases e with
  | supply a t =>
    rw [exec]
    split
    · exact idle
    rename_i h
    rw [not_or, not_or, Option.not_isSome_iff_eq_none] at h
    exact ⟨.supply a t h.2.1 h.2.2, rfl, id, fun _ => rfl⟩
  | dispose a =>
    rw [exec]
    split
    · exact idle
    rename_i t ht
    split
    · exact idle
    · exact ⟨.dispose a t ht, rfl, id, fun _ => rfl⟩
  | push a codes =>
    rw [exec]
    split
    · exact idle
    · have h := pushed_spec s.queue (s.owner a) codes
      exact ⟨completion_move_gave hr h.1, completionStep_gave h⟩
  | waitPush a codes =>
    rw [exec]
    split
    · exact idle
    · have h := waitPush_spec s.queue (s.owner a) codes
      exact ⟨completion_move_waited hr h, completionStep_waited h⟩
  | wake a wait unlock =>
    rw [exec]
    split
    · exact idle
    rename_i t ht
    split
    · have h := waitPushWake_spec s.queue t wait unlock
      rw [← ht] at h
      exact ⟨completion_move_waited hr h, completionStep_waited h⟩
    · exact idle
  | pop a codes =>
    rw [exec]
    split
    · exact idle
    · have h := popped_spec s.queue (s.owner a) codes
      exact ⟨completion_move_got hr h.1, h.2.retiring, fun hc => h.2.closed.trans hc, fun _ => rfl⟩
  | close codes =>
    obtain ⟨hring, -, hret, hclosed, -⟩ := close_spec s.queue codes
    have e : (s.exec (.close codes)).handover = s.handover := by
      unfold exec handover
      simp only [hring]
    rw [e]
    exact ⟨.stay, hret, hclosed, fun _ => rfl⟩
  | prepareWait init =>
    obtain ⟨hring, hclosed, hret⟩ := prepareWait_spec s.queue init
    have e : (s.exec (.prepareWait init)).handover = s.handover := by
      unfold exec handover
      simp only [hring]
    rw [e]
    exact ⟨.stay, hret, fun hc => hclosed.trans hc, fun _ => rfl⟩

end

end Steps

/-! ## 2. Runs -/

section Runs

variable {α τ : Type} [DecidableEq α] [DecidableEq τ] {s : CompletionSystem α τ} {contents : List τ}
  {q : CompletionQueue τ} {owner : Option τ}

/-- What every run keeps. -/
structure CompletionInv (s : CompletionSystem α τ) (contents : List τ) : Prop where
  hand : s.handover.Inv contents
  alive : s.queue.retiring = false

theorem completionInv_exec (inv : CompletionInv s contents) (e : CompletionEvent α τ) :
    ∃ contents', CompletionInv (s.exec e) contents' := by
  obtain ⟨hmove, hstep⟩ := completion_exec inv.hand.ring e
  obtain ⟨contents', h⟩ := inv.hand.move hmove
  exact ⟨contents', h, hstep.retiring.trans inv.alive⟩

theorem completionInv_of_run (run : CompletionRun s) : ∃ contents, CompletionInv s contents := by
  induction run with
  | create h =>
    obtain ⟨hpos, bytes, rfl⟩ := create_fresh h
    exact ⟨[], Handover.inv_empty _ hpos, rfl⟩
  | step _ e ih =>
    obtain ⟨contents, inv⟩ := ih
    exact completionInv_exec inv e

theorem exec_pop_takes {a : α} {t : τ} (codes : SyncCodes) (inv : CompletionInv s (t :: contents))
    (hwait : s.waiting a = false) (ho : s.owner a = none) (hlock : codes.lock = 0) :
    (s.exec (.pop a codes)).owner a = some t ∧ (s.exec (.pop a codes)).waiting = s.waiting ∧
      (s.exec (.pop a codes)).popped = s.popped ++ [t] ∧
      CompletionInv (s.exec (.pop a codes)) contents := by
  have hr : s.queue.ring.Holds (t :: contents) := inv.hand.ring
  obtain ⟨htold, hown⟩ := tryPop_takes hr inv.alive hlock
  have hexec : s.exec (.pop a codes) = s.got a (s.queue.tryPop none codes) := by
    rw [exec]
    rw [hwait, if_neg Bool.false_ne_true, ho]
  have hpopped : (s.exec (.pop a codes)).popped = s.popped ++ [t] := by
    rw [hexec]
    unfold got
    simp only [htold, hown, if_true, Option.toList_some]
  obtain ⟨contents', inv'⟩ := completionInv_exec inv (.pop a codes)
  have hpushed : (s.exec (.pop a codes)).pushed = s.pushed := by rw [hexec]; rfl
  -- what is left in the ring is what the histories say
  have hc : contents' = contents := by
    have h₁ : (s.exec (.pop a codes)).pushed = (s.exec (.pop a codes)).popped ++ contents' :=
      inv'.hand.order
    have h₂ : s.pushed = s.popped ++ t :: contents := inv.hand.order
    rw [hpushed, hpopped, h₂, List.append_assoc, List.singleton_append] at h₁
    exact (List.cons.inj (List.append_cancel_left h₁)).2.symm
  refine ⟨?_, by rw [hexec]; rfl, hpopped, hc ▸ inv'⟩
  rw [hexec]
  unfold got
  simp only [hown, update_self]

/-- What a consumer does to take everything: pop and dispose, once for each completion. -/
def drainEvents (a : α) : Nat → List (CompletionEvent α τ)
  | 0 => []
  | n + 1 => .pop a ⟨0, 0, 0⟩ :: .dispose a :: drainEvents a n

theorem completion_drains {a : α} (inv : CompletionInv s contents) (hwait : s.waiting a = false)
    (ho : s.owner a = none) :
    ((drainEvents a contents.length).foldl exec s).popped = s.popped ++ contents := by
  induction contents generalizing s with
  | nil => exact (List.append_nil _).symm
  | cons t rest ih =>
    obtain ⟨hown, hw, hpopped, inv'⟩ := exec_pop_takes ⟨0, 0, 0⟩ inv hwait ho rfl
    have hwait' : (s.exec (.pop a ⟨0, 0, 0⟩)).waiting a = false := by rw [hw]; exact hwait
    have hdispose : (s.exec (.pop a ⟨0, 0, 0⟩)).exec (.dispose a) = { s.exec (.pop a ⟨0, 0, 0⟩) with
          owner := update (s.exec (.pop a ⟨0, 0, 0⟩)).owner a none
          live := (s.exec (.pop a ⟨0, 0, 0⟩)).live.erase t } := by
      generalize s.exec (.pop a ⟨0, 0, 0⟩) = u at hown hwait'
      unfold exec
      simp only [hown, hwait', Bool.false_eq_true, if_false]
    -- disposing moves nothing in the ring
    have inv'' : CompletionInv ((s.exec (.pop a ⟨0, 0, 0⟩)).exec (.dispose a)) rest := by
      obtain ⟨contents'', inv''⟩ := completionInv_exec inv' (.dispose a)
      have h₁ := inv''.hand.order
      have h₂ := inv'.hand.order
      rw [hdispose] at h₁
      have hc : contents'' = rest := List.append_cancel_left (h₁.symm.trans h₂)
      exact hc ▸ inv''
    have hrest := ih (s := (s.exec (.pop a ⟨0, 0, 0⟩)).exec (.dispose a)) inv''
      (by rw [hdispose]; exact hwait') (by rw [hdispose]; exact update_self ..)
    show ((drainEvents a rest.length).foldl exec _).popped = _
    rw [hrest, hdispose]
    show (s.exec (.pop a ⟨0, 0, 0⟩)).popped ++ rest = _
    rw [hpopped, List.append_assoc, List.singleton_append]

omit [DecidableEq τ] in
theorem pushed_closed {x : Exchange τ (CompletionQueue τ)} (hc : q.closed = true) (h : q.Pushed owner x) :
    x.report.transferred = false ∧ x.owner = owner := by
  cases h with
  | moved t told had gave ring opened room =>
    rw [hc] at opened
    cases opened
  | kept told owner ring => exact ⟨told, owner⟩

omit [DecidableEq τ] in
theorem waitPushed_closed {o : WaitOutcome τ (CompletionQueue τ)} (hc : q.closed = true)
    (h : q.WaitPushed owner o) :
    ∃ x, o = .returned x ∧ x.report.transferred = false ∧ x.owner = owner := by
  cases o with
  | blocked =>
    have hno := h.2.2
    rw [hc] at hno
    cases hno
  | returned x => exact ⟨x, rfl, pushed_closed hc h.1⟩

/-- **The transfer law of the completion queue.** In every state that any interleaving reaches: what was popped
    followed by what the ring holds is what was pushed, in order; every living completion has exactly one
    holder; reports are true; and a close closes the queue for good. -/
theorem completion_queue_law (run : CompletionRun s) :
    ∃ contents, s.queue.ring.Holds contents ∧ s.popped ++ contents = s.pushed ∧
      (∀ h t, s.handover.holds h = some t → t ∈ s.live) ∧
      (∀ t ∈ s.live, ∃! h, s.handover.holds h = some t) ∧
      (∀ a codes, s.queue.Pushed (s.owner a) (s.queue.tryPush (s.owner a) codes)) ∧
      (∀ a codes, s.queue.WaitPushed (s.owner a) (s.queue.waitPush (s.owner a) codes)) ∧
      (∀ a t wait unlock, s.owner a = some t →
        s.queue.WaitPushed (s.owner a) (s.queue.waitPushWake t wait unlock)) ∧
      (∀ a codes, s.queue.Popped (s.owner a) (s.queue.tryPop (s.owner a) codes)) ∧
      (∀ codes, (s.queue.close codes).1 = .ok ∨ (s.queue.close codes).2.1.changed = true →
        (s.exec (.close codes)).queue.closed = true) ∧
      (s.queue.closed = true →
        (∀ e, (s.exec e).queue.closed = true ∧ (s.exec e).pushed = s.pushed) ∧
        (∀ a codes, (s.queue.tryPush (s.owner a) codes).report.transferred = false ∧
          (s.queue.tryPush (s.owner a) codes).owner = s.owner a) ∧
        (∀ a codes, ∃ x, s.queue.waitPush (s.owner a) codes = .returned x ∧
          x.report.transferred = false ∧ x.owner = s.owner a) ∧
        (∀ t wait unlock, ∃ x, s.queue.waitPushWake t wait unlock = .returned x ∧
          x.report.transferred = false ∧ x.owner = some t) ∧
        ∀ a, s.waiting a = false → s.owner a = none →
          ((drainEvents a contents.length).foldl exec s).popped = s.pushed) ∧
      ∀ a codes, s.queue.waitPrepared = true → codes.lock = 0 →
        s.queue.ring.count ≠ s.queue.ring.capacity →
        s.queue.waitPush (s.owner a) codes = .returned (s.queue.tryPush (s.owner a) codes) := by
  obtain ⟨contents, inv⟩ := completionInv_of_run run
  have hr : s.queue.ring.Holds contents := inv.hand.ring
  have horder : s.pushed = s.popped ++ contents := inv.hand.order
  refine ⟨contents, hr, horder.symm, inv.hand.custody.sound,
    fun t ht => inv.hand.custody.existsUnique ht,
    fun a codes => (pushed_spec s.queue (s.owner a) codes).1,
    fun a codes => waitPush_spec s.queue (s.owner a) codes,
    fun a t wait unlock ho => ?_,
    fun a codes => (popped_spec s.queue (s.owner a) codes).1,
    fun codes => (close_spec s.queue codes).2.2.2.2,
    fun hc => ⟨fun e => ?_, fun a codes => ?_, fun a codes => ?_, fun t wait unlock => ?_,
      fun a hwait ho => ?_⟩,
    fun a codes hprep hlock hne => waitPush_eq hprep hlock hr.count_le (.inl hne)⟩
  · rw [ho]
    exact waitPushWake_spec s.queue t wait unlock
  · have hstep := (completion_exec hr e).2
    exact ⟨hstep.closed hc, hstep.pushed hc⟩
  · exact pushed_closed hc (pushed_spec s.queue (s.owner a) codes).1
  · exact waitPushed_closed hc (waitPush_spec s.queue (s.owner a) codes)
  · exact waitPushed_closed hc (waitPushWake_spec s.queue t wait unlock)
  · rw [completion_drains inv hwait ho, horder]

/-- Two completions pushed, one of them with a failed unlock, then a close. -/
theorem completion_queue_law_sample :
    ∃ s : CompletionSystem Nat Nat, CompletionRun s ∧ s.pushed = [7, 8] ∧ s.queue.closed = true ∧
      ∃ contents, s.queue.ring.Holds contents ∧ s.popped ++ contents = [7, 8] := by
  have hcreate : create (τ := Nat) 4 4096 true 0 = .ok (.fresh 4 4096 328) := rfl
  have run := (((((CompletionRun.create (α := Nat) hcreate).step (.prepareWait 0)).step
    (.supply 0 7)).step (.waitPush 0 ⟨0, 0, 1⟩)).step (.supply 1 8)).step (.push 1 ⟨0, 0, 0⟩) |>.step
    (.close ⟨0, 0, 0⟩)
  obtain ⟨contents, hr, horder, -⟩ := completion_queue_law run
  exact ⟨_, run, rfl, rfl, contents, hr, horder⟩

/-- On a queue that was not prepared for waiting, with all its room, try_push transfers and wait_push
    does not. -/
theorem waitPush_differs :
    ¬ ∀ s : CompletionSystem Nat Nat, CompletionRun s → ∀ a codes, codes.lock = 0 →
      s.queue.ring.count ≠ s.queue.ring.capacity →
      s.queue.waitPush (s.owner a) codes = .returned (s.queue.tryPush (s.owner a) codes) := by
  intro h
  have hcreate : create (τ := Nat) 4 4096 true 0 = .ok (.fresh 4 4096 328) := rfl
  have run := (CompletionRun.create (α := Nat) hcreate).step (.supply 0 7)
  have heq := h _ run 0 ⟨0, 0, 0⟩ rfl (by decide)
  have hres := congrArg (fun o => match o with
    | .blocked => Result.busy
    | .returned x => x.result) heq
  cases hres

end Runs

end Vireo.Thread
