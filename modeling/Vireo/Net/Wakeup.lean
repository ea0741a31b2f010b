/-
  File:      Vireo/Net/Wakeup.lean
  Subject:   NO WAKEUP IS LOST: a completion in the queue has a hint, or somebody is about to give one.
-/
import Vireo.Net.Drain

namespace Vireo.Net

open Thread Function
open CompletionPath (beginRound drained exec pop publish pushed recover renotify start wake)

/-! ## 1. What the parts do -/

theorem tryPop_notFound {τ : Type} {q : CompletionQueue τ} {owner : Option τ} {codes : SyncCodes}
    (h : (q.tryPop owner codes).result = .notFound) : q.ring.count = 0 := by
  by_contra hcount
  unfold CompletionQueue.tryPop at h
  cases owner with
  | some t => cases h
  | none =>
    rw [if_neg hcount] at h
    unfold reportUnlock at h
    by_cases hretiring : q.retiring = true
    · simp [hretiring] at h
    by_cases hlock : codes.lock = 0
    · by_cases hunlock : codes.unlock = 0
      · by_cases hsignal : q.waitPrepared = true ∧ codes.signal ≠ 0
        · simp [hretiring, hlock, hunlock, hsignal] at h
        · simp only [hretiring, hlock, hunlock, hsignal, ne_eq, not_true_eq_false, if_false,
            Bool.false_eq_true, reduceCtorEq] at h
      · simp [hretiring, hlock, hunlock] at h
    · by_cases hbusy : codes.lock = ebusy
      · simp [hretiring, hbusy, ebusy] at h
      · simp [hretiring, hlock, hbusy] at h

variable {result : Result}

theorem drainPop_error {Q : Type} {value drain : DrainReport} {x : Exchange CompletionMetadata Q}
    (h : drainPop value x = .error (result, drain)) (hok : result = .ok) :
    x.result = .notFound ∧ x.report.transferred = false := by
  unfold drainPop at h
  split at h
  · rename_i hfailed
    split at h
    · rename_i hempty
      exact hempty
    · cases h
      exact absurd hok hfailed
  · cases h

theorem drainConsume_error {value drain : DrainReport} {o : ConsumeOutcome}
    (h : drainConsume value o = .error (result, drain)) : result ≠ .ok := by
  unfold drainConsume at h
  split at h
  · rename_i hfailed
    cases h
    exact hfailed
  · cases h

theorem roundBegin_error {fd fd' : EventFd} {remaining : Option CompletionMetadata} {maxItems : Nat}
    {fault : Option SysFault} {report : RoundReport}
    (h : roundBegin fd remaining maxItems fault = (.error (result, report), fd')) : result ≠ .ok := by
  unfold roundBegin at h
  split at h
  · cases h
    simp
  · split at h
    · cases h
      simp
    · dsimp only at h
      split at h
      · rename_i hfailed
        cases h
        exact hfailed
      · cases h

/-- The end of a drain is the end of the round, or a hint is due; a round that ends well did not stop at its
    budget. -/
theorem drained_cases (s : CompletionPath) (value : RoundReport) (result : Result) (drain : DrainReport) :
    (∃ next, next.renotifyCalled = true ∧ s.drained value result drain = { s with round := .renotifying next }) ∨
      ∃ r, s.drained value result drain = s.finished r ∧
        (r = .ok → result = .ok ∧ drain.stopReason ≠ .budget) := by
  rw [drained]
  split
  · rename_i hcalled
    exact .inl ⟨_, hcalled, rfl⟩
  · rename_i hcalled
    refine .inr ⟨_, rfl, fun hok => ?_⟩
    unfold roundFinish at hok
    have hresult : result = .ok := by
      by_contra hfailed
      rw [if_pos (show (roundDrained value result drain).drainResult ≠ .ok from hfailed)] at hok
      exact hfailed hok
    refine ⟨hresult, fun hbudget => hcalled ?_⟩
    unfold roundDrained
    simp [hresult, hbudget]

theorem roundFinish_ok {value : RoundReport} {n : Notified} (hcalled : value.renotifyCalled = true)
    (h : (roundFinish (roundRenotified value n)).1 = .ok) : n.result = .ok := by
  by_contra hfailed
  unfold roundFinish at h
  split at h
  · rename_i hdrain
    exact hdrain h
  · rw [if_pos ⟨hcalled, hfailed⟩] at h
    exact hfailed h

/-! ## 2. The invariant -/

/-- Every notify of a worker and every round so far returned OK. -/
def CompletionPath.AllOk (s : CompletionPath) : Prop :=
  (∀ r ∈ s.notifies, r = .ok) ∧ ∀ r ∈ s.rounds, r = .ok

/-- Somebody is on the way: a worker to its notify, or the reactor. -/
def CompletionPath.UnderWay (s : CompletionPath) : Prop :=
  (∃ w progress, s.workers w = .notifying progress) ∨ s.round ≠ .idle

/-- What every run keeps. -/
structure WakeInv (s : CompletionPath) : Prop where
  hinted : s.AllOk → s.queue.ring.count ≠ 0 → 0 < s.hint.counter ∨ s.UnderWay
  called : ∀ value, s.round = .renotifying value → value.renotifyCalled = true

section Steps

variable {s : CompletionPath}

theorem forall_mem_concat {l : List Result} {r : Result} (h : ∀ x ∈ l ++ [r], x = .ok) :
    (∀ x ∈ l, x = .ok) ∧ r = .ok :=
  ⟨fun x hx => h x (List.mem_append_left _ hx), h r (List.mem_append_right _ (List.mem_singleton_self r))⟩

/-- **A push of a worker**: what came into the queue, the worker will notify. -/
theorem wakeInv_pushed (inv : WakeInv s) {w : Nat} (hw : ∀ progress, s.workers w ≠ .notifying progress)
    (progress : PublishReport) {completion : CompletionMetadata}
    {o : WaitOutcome CompletionMetadata (CompletionQueue CompletionMetadata)}
    (ho : s.queue.WaitPushed (some completion) o) : WakeInv (s.pushed w progress completion o) := by
  -- a worker that goes elsewhere was not the one who owed the notify
  have still : ∀ p : Publishing, (∃ w progress, s.workers w = .notifying progress) →
      ∃ v progress, update s.workers w p v = .notifying progress := by
    intro p ⟨v, progress, hv⟩
    have hne : v ≠ w := by
      intro heq
      rw [heq] at hv
      exact hw progress hv
    exact ⟨v, progress, by rw [update_of_ne hne, hv]⟩
  cases o with
  | blocked =>
    refine ⟨fun hok hcount => ?_, inv.called⟩
    exact (inv.hinted hok hcount).imp_right (Or.imp_left (still _))
  | returned x =>
    rw [pushed]
    cases hx : publishPushed progress x with
    | ok next =>
      refine ⟨fun _ _ => .inr (.inl ⟨w, next, ?_⟩), inv.called⟩
      exact update_self w (.notifying next) s.workers
    | error e =>
      refine ⟨fun hok hcount => ?_, inv.called⟩
      have hring : x.queue.ring = s.queue.ring := by
        cases ho.1 with
        | moved t told =>
          obtain ⟨next, hnext⟩ := (publishPushed_ok_iff progress x).mpr told
          rw [hx] at hnext
          cases hnext
        | kept told owner ring => exact ring
      have hcount' : x.queue.ring.count ≠ 0 := hcount
      rw [hring] at hcount'
      exact (inv.hinted hok hcount').imp_right (Or.imp_left (still _))

theorem wakeInv_drained (value : RoundReport) (result : Result) (drain : DrainReport)
    (h : result = .ok → drain.stopReason ≠ .budget → s.queue.ring.count = 0) :
    WakeInv (s.drained value result drain) := by
  rcases drained_cases s value result drain with due | ended
  · obtain ⟨next, hcalled, heq⟩ := due
    rw [heq]
    refine ⟨fun _ _ => .inr (.inr (by simp)), fun v hv => ?_⟩
    cases hv
    exact hcalled
  · obtain ⟨r, heq, hr⟩ := ended
    rw [heq]
    refine ⟨fun hok hcount => ?_, fun v hv => by cases hv⟩
    obtain ⟨hresult, hstop⟩ := hr (forall_mem_concat hok.2).2
    exact absurd (h hresult hstop) hcount

section

variable (inv : WakeInv s)
include inv

theorem wakeInv_publish (w : Nat) (task : TaskMetadata) (result : Result)
    (suggestedStatus : UInt16) (allocationBudget : Nat) (copy : Result) (codes : SyncCodes) :
    WakeInv (s.publish w task result suggestedStatus allocationBudget copy codes) := by
  unfold publish
  cases hw : s.workers w with
  | idle =>
    cases publishBegin task result suggestedStatus allocationBudget copy with
    | error e => exact inv
    | ok begun =>
      exact wakeInv_pushed inv (fun progress h => by rw [hw] at h; cases h) begun.1
        (CompletionQueue.waitPush_spec s.queue (some begun.2) codes)
  | waiting | notifying => exact inv

theorem wakeInv_wake (w wait unlock : Nat) : WakeInv (s.wake w wait unlock) := by
  unfold wake
  cases hw : s.workers w with
  | waiting progress completion =>
    exact wakeInv_pushed inv (fun progress h => by rw [hw] at h; cases h) progress
      (CompletionQueue.waitPushWake_spec s.queue completion wait unlock)
  | idle | notifying => exact inv

theorem wakeInv_notify (w : Nat) (fault : Option SysFault) : WakeInv (s.notify w fault) := by
  unfold CompletionPath.notify
  cases s.workers w with
  | notifying progress =>
    refine ⟨fun hok _ => .inl ?_, inv.called⟩
    exact notify_ok (forall_mem_concat hok.1).2
  | idle | waiting => exact inv

theorem wakeInv_beginRound (maxItems : Nat) (fault : Option SysFault) :
    WakeInv (s.beginRound maxItems fault) := by
  unfold beginRound
  cases s.round with
  | idle =>
    cases hbegin : roundBegin s.hint s.remaining maxItems fault with
    | mk begun fd =>
      cases begun with
      | error e =>
        refine ⟨fun hok _ => ?_, fun v hv => by cases hv⟩
        exact absurd (forall_mem_concat hok.2).2 (roundBegin_error hbegin)
      | ok value => exact ⟨fun _ _ => .inr (.inr (by simp)), fun v hv => by cases hv⟩
  | popping | consuming | renotifying => exact inv

theorem wakeInv_pop (codes : SyncCodes) : WakeInv (s.pop codes) := by
  unfold pop
  cases s.round with
  | popping value drain left =>
    dsimp only
    cases hpop : drainPop drain (s.queue.tryPop s.remaining codes) with
    | error ended =>
      refine wakeInv_drained value ended.1 ended.2 fun hok _ => ?_
      obtain ⟨hempty, htold⟩ := drainPop_error hpop hok
      have hcount := tryPop_notFound hempty
      cases (CompletionQueue.popped_spec s.queue s.remaining codes).1 with
      | moved told =>
        rw [htold] at told
        cases told
      | kept told owner ring => exact (congrArg (·.count) ring).trans hcount
    | ok drain => exact ⟨fun _ _ => .inr (.inr (by simp)), fun v hv => by cases hv⟩
  | idle | consuming | renotifying => exact inv

theorem wakeInv_consumed (o : ConsumeOutcome) : WakeInv (s.consumed o) := by
  unfold CompletionPath.consumed
  cases s.round with
  | consuming value drain left =>
    dsimp only
    cases hconsume : drainConsume drain o with
    | error ended =>
      exact wakeInv_drained value ended.1 ended.2 fun hok => absurd hok (drainConsume_error hconsume)
    | ok drain =>
      dsimp only
      split
      · exact wakeInv_drained value _ _ fun _ hstop => absurd rfl hstop
      · exact ⟨fun _ _ => .inr (.inr (by simp)), fun v hv => by cases hv⟩
  | idle | popping | renotifying => exact inv

/-- **A round that ends well behind a hint of its own has given it.** -/
theorem wakeInv_renotify (fault : Option SysFault) : WakeInv (s.renotify fault) := by
  unfold renotify
  cases hround : s.round with
  | renotifying value =>
    refine ⟨fun hok _ => .inl ?_, fun v hv => by cases hv⟩
    exact notify_ok (roundFinish_ok (inv.called value hround) (forall_mem_concat hok.2).2)
  | idle | popping | consuming => exact inv

theorem wakeInv_exec (e : PathEvent) : WakeInv (s.exec e) := by
  cases e with
  | publish w task result suggestedStatus allocationBudget copy codes =>
    exact wakeInv_publish inv w task result suggestedStatus allocationBudget copy codes
  | wake w wait unlock => exact wakeInv_wake inv w wait unlock
  | notify w fault => exact wakeInv_notify inv w fault
  | round maxItems fault => exact wakeInv_beginRound inv maxItems fault
  | pop codes => exact wakeInv_pop inv codes
  | consumed o => exact wakeInv_consumed inv o
  | renotify fault => exact wakeInv_renotify inv fault
  | recover =>
    unfold exec recover
    dsimp only
    split
    · exact { inv with }
    · exact inv
  | close codes =>
    have hring := (CompletionQueue.close_spec s.queue codes).1
    refine ⟨fun hok hcount => inv.hinted hok ?_, inv.called⟩
    have hcount' : (s.queue.close codes).2.2.ring.count ≠ 0 := hcount
    rwa [hring] at hcount'

end

end Steps

/-! ## 3. Every state of every run -/

theorem wakeInv_of_run {s : CompletionPath} (run : PathRun s) : WakeInv s := by
  induction run with
  | @start capacity budget memory init prepare q h =>
    refine ⟨fun _ hcount => absurd ?_ hcount, fun v hv => by cases hv⟩
    obtain ⟨-, bytes, hq⟩ := CompletionQueue.create_fresh h
    show (q.prepareWait prepare).2.ring.count = 0
    rw [(CompletionQueue.prepareWait_spec q prepare).1, hq]
    rfl
  | step _ e ih => exact wakeInv_exec ih e

/-- **No completion is left without a hint**: between the calls, when all so far returned OK, a queue with something
    in it has a pending hint. -/
theorem no_lost_wakeup {s : CompletionPath} (run : PathRun s)
    (hworkers : ∀ w progress, s.workers w ≠ .notifying progress) (hround : s.round = .idle)
    (hnotifies : ∀ r ∈ s.notifies, r = .ok) (hrounds : ∀ r ∈ s.rounds, r = .ok)
    (hqueue : s.queue.ring.count ≠ 0) : 0 < s.hint.counter := by
  rcases (wakeInv_of_run run).hinted ⟨hnotifies, hrounds⟩ hqueue with pending | under
  · exact pending
  · rcases under with worker | reactor
    · obtain ⟨w, progress, hw⟩ := worker
      exact absurd hw (hworkers w progress)
    · exact absurd hround reactor

/-- One completion was published and notified, and no round has begun. -/
theorem no_lost_wakeup_published :
    let queue : CompletionQueue CompletionMetadata := .fresh 1 1024 304
    let pushed := (start (queue.prepareWait 0).2).exec
      (.publish 0 ⟨⟨1, 0, 1, 1⟩, 1, 1, 0⟩ .ok 0 64 .ok ⟨0, 0, 0⟩)
    let s := pushed.exec (.notify 0 none)
    s.queue.ring.count = 1 ∧ 0 < s.hint.counter := by
  intro queue pushed s
  have created : CompletionQueue.create 1 1024 true 0 = .ok queue := rfl
  have run : PathRun s := .step (.step (.start created) _) _
  refine ⟨rfl, no_lost_wakeup run (fun w progress => ?_) rfl (by decide) (by decide) (by decide)⟩
  show update pushed.workers 0 .idle w ≠ .notifying progress
  by_cases hw : w = 0
  · rw [hw, update_self]
    exact nofun
  · rw [update_of_ne hw]
    show update (fun _ => Publishing.idle) 0 _ w ≠ .notifying progress
    rw [update_of_ne hw]
    exact nofun

end Vireo.Net
