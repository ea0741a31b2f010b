/-
  File:      Vireo/Thread/ThreadPoolLaw.lean
  Subject:   EVERY TASK OF A THREAD POOL IS ACCOUNTED FOR.
-/
import Vireo.Thread.ThreadPoolCensus

namespace Vireo.Thread

open Vireo.Lib List
open TaskSystem (exec)
open Function (update update_eq_self update_of_ne update_self)
open PoolSystem (begin took workerStep)
open Sum (inl inr)

variable {α τ : Type} {s s' : PoolSystem α τ} {i : Nat}

/-! ## 1. The invariants -/

structure Hands (s : PoolSystem α τ) : Prop where
  waits : ∀ i, s.tasks.waiting (.inr i) = true ↔ s.phase i = .waiting
  calls : ∀ a, s.tasks.waiting (.inl a) = false
  empty : ∀ i, s.phase i ≠ .holding → s.phase i ≠ .spent → s.phase i ≠ .discarding →
    s.tasks.owner (.inr i) = none
  holding : ∀ i, s.phase i = .holding → ∃ t, s.tasks.owner (.inr i) = some t ∧ t ∉ s.executed
  spent : ∀ i t, s.phase i = .spent → s.tasks.owner (.inr i) = some t → t ∈ s.executed

structure Ends (s : PoolSystem α τ) : Prop where
  ended : ∀ i, s.phase i = .ended →
    (s.pool.stopRequested = true ∧ s.pool.executionEnabled = false) ∨ s.tasks.queue.Finished
  failed : ∀ i, s.phase i = .discarding ∨ s.phase i = .broken → (s.pool.workers i).workerResult ≠ .ok

structure Ledger (s : PoolSystem α τ) : Prop where
  live : ∀ t ∈ s.tasks.live, t ∈ s.born
  accepted : ∀ t ∈ s.tasks.pushed, t ∈ s.born
  fresh : ∀ a t, s.tasks.owner (.inl a) = some t → t ∈ s.tasks.pushed → s.tasks.queue.state = .cancelPending
  once : s.tasks.pushed.Nodup
  taken : ∀ t ∈ s.tasks.popped, t ∈ s.destroyed ∨ t ∈ s.cancelled ∨ ∃ i, s.tasks.owner (.inr i) = some t
  held : ∀ i t, s.tasks.owner (.inr i) = some t → t ∈ s.tasks.popped ∧ t ∉ s.destroyed ∧ t ∉ s.cancelled
  destroyed : ∀ t ∈ s.destroyed, t ∈ s.tasks.popped ∧ t ∉ s.cancelled
  cancelled : ∀ t ∈ s.cancelled, t ∈ s.tasks.popped ∧ t ∉ s.executed
  executed : ∀ t ∈ s.executed, t ∈ s.tasks.popped
  destroyedOnce : s.destroyed.Nodup
  executedOnce : s.executed.Nodup
  cancelledOnce : s.cancelled.Nodup
  missed : ∀ t ∈ s.destroyed, t ∈ s.executed ∨ ∃ i, s.phase i = .broken
  closed : s.cancelled ≠ [] → s.tasks.queue.state = .cancelPending

/-! ## 2. The pieces of a worker -/

/-- Where a parked worker can go: on, to its normal end because it was stopped first, or to a bad
    end. -/
inductive ParkOutcome (pool : ThreadPool) : WorkerSlot × WorkerPhase → Prop
  | on (w : WorkerSlot) (p : WorkerPhase) (stay : p = .parked ∨ p = .taking) : ParkOutcome pool (w, p)
  | ended (w : WorkerSlot) (stop : pool.stopRequested = true) (off : pool.executionEnabled = false) :
      ParkOutcome pool (w, .ended)
  | broken (w : WorkerSlot) (error : w.workerResult ≠ .ok) : ParkOutcome pool (w, .broken)

theorem record_ne_ok (w : WorkerSlot) (stage : PoolStage) (error : Nat) :
    (w.recordWorkerError stage error).workerResult ≠ .ok := by
  unfold WorkerSlot.recordWorkerError
  split
  · nofun
  · assumption

variable {w : WorkerSlot}

theorem parkFinish_outcome {pool : ThreadPool} (unlock : Nat)
    (h : w.workerResult = .ok → pool.stopRequested = true ∨ pool.executionEnabled = true) :
    ParkOutcome pool (pool.parkFinish w unlock) := by
  rw [ThreadPool.parkFinish]
  split
  · exact .broken _ (record_ne_ok _ _ _)
  split
  · exact .on w .taking (.inr rfl)
  rename_i hexec
  rw [Bool.and_eq_true, not_and, decide_eq_true_iff] at hexec
  split
  · rename_i hok
    have hoff : pool.executionEnabled = false := Bool.eq_false_iff.mpr fun he => hexec he hok
    exact .ended w ((h hok).resolve_right (Bool.eq_false_iff.mp hoff)) hoff
  · rename_i hne
    exact .broken w hne

theorem parkTest_outcome (pool : ThreadPool) (w : WorkerSlot) (unlock : Nat) :
    ParkOutcome pool (pool.parkTest w unlock) := by
  unfold ThreadPool.parkTest
  split
  · exact .on w .parked (.inl rfl)
  rename_i h
  refine parkFinish_outcome unlock fun _ => ?_
  rw [not_and_or, Bool.not_eq_false, Bool.not_eq_false] at h
  exact h

theorem enter_outcome (pool : ThreadPool) (w : WorkerSlot) (cancel lock unlock : Nat) :
    ParkOutcome pool (pool.enter w cancel lock unlock) := by
  unfold ThreadPool.enter
  split
  · exact .broken _ (record_ne_ok _ _ _)
  split
  · exact .broken _ (record_ne_ok _ _ _)
  · exact parkTest_outcome ..

theorem unpark_outcome (pool : ThreadPool) (w : WorkerSlot) (wait unlock : Nat) :
    ParkOutcome pool (pool.unpark w wait unlock) := by
  unfold ThreadPool.unpark
  split
  · exact parkFinish_outcome unlock fun hok => absurd hok (record_ne_ok _ _ _)
  · exact parkTest_outcome ..

/-- Where a worker goes with what `wait_pop` returned. -/
inductive ReceiveOutcome (x : Exchange τ (TaskQueue τ)) (w : WorkerSlot) :
    WorkerSlot × WorkerPhase → Prop
  | ended (cancelled : x.result = .cancelled) : ReceiveOutcome x w (w, .ended)
  | failed (w' : WorkerSlot) (error : w'.workerResult ≠ .ok) (bad : x.result ≠ .ok) :
      ReceiveOutcome x w (w', .discarding)
  | task (ok : x.result = .ok) : ReceiveOutcome x w (w, .holding)

theorem received_outcome (w : WorkerSlot) (x : Exchange τ (TaskQueue τ)) :
    ReceiveOutcome x w (w.received x) := by
  unfold WorkerSlot.received
  split
  · rename_i h
    exact .ended h.1
  · split
    · rename_i hbad
      refine .failed _ ?_ hbad
      split
      · exact hbad
      · assumption
    · rename_i hok
      exact .task (not_not.mp hok)

/-! ## 3. The ledger -/

/-- A step that moves no task in or out of the queue and executes or destroys none. -/
theorem Ledger.frame (h : Ledger s)
    (hcaller : ∀ a t, s'.tasks.owner (.inl a) = some t → s.tasks.owner (.inl a) = some t)
    (hworker : ∀ i, s'.tasks.owner (.inr i) = s.tasks.owner (.inr i))
    (hlive : ∀ t ∈ s'.tasks.live, t ∈ s.tasks.live) (hpushed : s'.tasks.pushed = s.tasks.pushed)
    (hpopped : s'.tasks.popped = s.tasks.popped)
    (hstate : s.tasks.queue.state = .cancelPending → s'.tasks.queue.state = .cancelPending)
    (hborn : s'.born = s.born) (hexecuted : s'.executed = s.executed)
    (hdestroyed : s'.destroyed = s.destroyed) (hcancelled : s'.cancelled = s.cancelled)
    (hbroken : ∀ i, s.phase i = .broken → s'.phase i = .broken) : Ledger s' := by
  refine ⟨?_, ?_, ?_, ?_, ?_, ?_, ?_, ?_, ?_, ?_, ?_, ?_, ?_, ?_⟩
  · rw [hborn]
    exact fun t ht => h.live t (hlive t ht)
  · rw [hborn, hpushed]
    exact h.accepted
  · rw [hpushed]
    exact fun a t ho ht => hstate (h.fresh a t (hcaller a t ho) ht)
  · rw [hpushed]
    exact h.once
  · rw [hpopped, hdestroyed, hcancelled]
    intro t ht
    refine (h.taken t ht).imp id (Or.imp id fun ⟨i, hi⟩ => ⟨i, ?_⟩)
    rw [hworker i]
    exact hi
  · rw [hpopped, hdestroyed, hcancelled]
    intro i t ho
    rw [hworker i] at ho
    exact h.held i t ho
  · rw [hpopped, hdestroyed, hcancelled]
    exact h.destroyed
  · rw [hpopped, hexecuted, hcancelled]
    exact h.cancelled
  · rw [hpopped, hexecuted]
    exact h.executed
  · rw [hdestroyed]
    exact h.destroyedOnce
  · rw [hexecuted]
    exact h.executedOnce
  · rw [hcancelled]
    exact h.cancelledOnce
  · rw [hdestroyed, hexecuted]
    intro t ht
    exact (h.missed t ht).imp id fun ⟨i, hi⟩ => ⟨i, hbroken i hi⟩
  · rw [hcancelled]
    exact fun hne => hstate (h.closed hne)

theorem Ledger.first_new {t : τ} {rest : List τ} (h : Ledger s) (inv : TaskInv s.tasks (t :: rest)) :
    t ∉ s.tasks.popped := by
  have horder : s.tasks.pushed = s.tasks.popped ++ t :: rest := inv.hand.order
  have honce := h.once
  rw [horder, nodup_append] at honce
  exact fun ht => honce.2.2 t ht t (mem_cons_self ..) rfl

theorem nodup_snoc {l : List τ} {t : τ} (h : l.Nodup) (ht : t ∉ l) : (l ++ [t]).Nodup := by
  rw [nodup_append]
  refine ⟨h, nodup_singleton t, fun x hx y hy => ?_⟩
  rw [mem_singleton] at hy
  rintro rfl
  exact ht (hy ▸ hx)

section Moves

variable [DecidableEq α] {t : τ} {s' : TaskSystem (α ⊕ Nat) τ} {phase : Nat → WorkerPhase} {a : α}
  {rest : List τ} {pool : ThreadPool}

section

variable (h : Ledger s)
include h

theorem ledger_supply (hnew : t ∉ s.born) : Ledger { s with
      tasks := { s.tasks with
        owner := update s.tasks.owner (.inl a) (some t)
        live := t :: s.tasks.live }
      born := t :: s.born } := by
  have hworker : ∀ i, update s.tasks.owner (.inl a) (some t) (.inr i) =
      s.tasks.owner (.inr i) := fun i => update_of_ne (by simp) _ _
  refine { h with
      live := fun x hx => ?_, accepted := fun x hx => mem_cons_of_mem _ (h.accepted x hx),
      fresh := fun b x ho hx => ?_, taken := fun x hx => ?_, held := fun i x ho => ?_ }
  · rcases mem_cons.mp hx with rfl | hx
    · exact mem_cons_self ..
    · exact mem_cons_of_mem _ (h.live x hx)
  · change update s.tasks.owner (.inl a) (some t) (.inl b) = some x at ho
    by_cases hb : b = a
    · rw [hb, update_self] at ho
      rw [← Option.some.inj ho] at hx
      exact absurd (h.accepted t hx) hnew
    · rw [update_of_ne (fun e => hb (inl.inj e))] at ho
      exact h.fresh b x ho hx
  · refine (h.taken x hx).imp id (Or.imp id fun ⟨i, hi⟩ => ⟨i, ?_⟩)
    exact (hworker i).trans hi
  · exact h.held i x ((hworker i).symm.trans ho)

theorem ledger_push {admitted : α → Bool} (inv : ∃ contents, TaskInv s.tasks contents)
    (had : s.tasks.owner (.inl a) = some t) (hopen : s.tasks.queue.state = .opened)
    (hstate : s'.queue.state = s.tasks.queue.state) (howner : s'.owner = update s.tasks.owner (.inl a) none)
    (hpushed : s'.pushed = s.tasks.pushed ++ [t]) (hpopped : s'.popped = s.tasks.popped)
    (hlive : s'.live = s.tasks.live) : Ledger { s with tasks := s', admitted := admitted } := by
  obtain ⟨contents, inv⟩ := inv
  obtain ⟨q, owner, waiting, live, pushed, popped⟩ := s'
  subst howner hpushed hpopped hlive
  have hworker : ∀ i, update s.tasks.owner (.inl a) none (.inr i) = s.tasks.owner (.inr i) := fun i =>
    update_of_ne (by simp) _ _
  have hnew : t ∉ s.tasks.pushed := fun ht => by
    have hc := h.fresh a t had ht
    rw [hopen] at hc
    cases hc
  have hlive_t : t ∈ s.tasks.live := inv.hand.custody.sound (.inl (.inl a)) t had
  refine { h with
      accepted := forall_mem_append.mpr ⟨h.accepted, forall_mem_singleton.mpr (h.live t hlive_t)⟩,
      fresh := fun b x ho hx => ?_, once := nodup_snoc h.once hnew, taken := fun x hx => ?_,
      held := fun i x ho => h.held i x ((hworker i).symm.trans ho),
      closed := fun hne => hstate.trans (h.closed hne) }
  · change update s.tasks.owner (.inl a) none (.inl b) = some x at ho
    by_cases hb : b = a
    · rw [hb, update_self] at ho
      cases ho
    · rw [update_of_ne (fun e => hb (inl.inj e))] at ho
      rcases mem_append.mp hx with hx | hx
      · exact hstate.trans (h.fresh b x ho hx)
      -- nobody else has the task that was pushed
      rw [mem_singleton] at hx
      subst hx
      have he := inv.hand.custody.unique (.inl (.inl b)) (.inl (.inl a)) x ho had
      exact absurd (inl.inj (inl.inj he)) hb
  · refine (h.taken x hx).imp id (Or.imp id fun ⟨i, hi⟩ => ⟨i, ?_⟩)
    exact (hworker i).trans hi

variable {i : Nat}

theorem ledger_take (inv : TaskInv s.tasks (t :: rest)) (hstate : s'.queue.state = s.tasks.queue.state)
    (hempty : s.tasks.owner (.inr i) = none) (howner : s'.owner = update s.tasks.owner (.inr i) (some t))
    (hpushed : s'.pushed = s.tasks.pushed) (hpopped : s'.popped = s.tasks.popped ++ [t])
    (hlive : s'.live = s.tasks.live) (hbroken : ∀ k, s.phase k = .broken → phase k = .broken) :
    Ledger { s with tasks := s', pool := pool, phase := phase } := by
  obtain ⟨q, owner, waiting, live, pushed, popped⟩ := s'
  subst howner hpushed hpopped hlive
  have hnew := h.first_new inv
  have hmem : ∀ x ∈ s.tasks.popped, x ∈ s.tasks.popped ++ [t] := fun _ => mem_append_left _
  have hcaller : ∀ a, update s.tasks.owner (.inr i) (some t) (.inl a) = s.tasks.owner (.inl a) := fun a =>
    update_of_ne (by simp) _ _
  refine { h with fresh := fun a x ho hx => ?_
                  taken := forall_mem_append.mpr ⟨fun x hx => ?_, forall_mem_singleton.mpr
                    (.inr (.inr ⟨i, update_self ..⟩))⟩
                  held := fun k x ho => ?_
                  destroyed := fun x hx => ⟨hmem x (h.destroyed x hx).1, (h.destroyed x hx).2⟩
                  cancelled := fun x hx => ⟨hmem x (h.cancelled x hx).1, (h.cancelled x hx).2⟩
                  executed := fun x hx => hmem x (h.executed x hx)
                  missed := fun x hx => (h.missed x hx).imp id fun ⟨k, hk⟩ => ⟨k, hbroken k hk⟩
                  closed := fun hne => hstate.trans (h.closed hne) }
  · exact hstate.trans (h.fresh a x ((hcaller a).symm.trans ho) hx)
  · refine (h.taken x hx).imp id (Or.imp id fun ⟨k, hk⟩ => ⟨k, ?_⟩)
    have hki : k ≠ i := fun e => by rw [e, hempty] at hk; cases hk
    exact (update_of_ne (fun e => hki (inr.inj e)) _ _).trans hk
  · change update s.tasks.owner (.inr i) (some t) (.inr k) = some x at ho
    by_cases hki : k = i
    · rw [hki, update_self] at ho
      obtain rfl : t = x := Option.some.inj ho
      exact ⟨mem_append_right _ (mem_singleton.mpr rfl), fun hd => hnew (h.destroyed t hd).1,
        fun hc => hnew (h.cancelled t hc).1⟩
    · rw [update_of_ne (fun e => hki (inr.inj e))] at ho
      obtain ⟨hp, hd, hc⟩ := h.held k x ho
      exact ⟨hmem x hp, hd, hc⟩

theorem ledger_cancel (inv : TaskInv s.tasks (t :: rest)) (hcancel : s'.queue.state = .cancelPending)
    (howner : s'.owner = update s.tasks.owner (.inl a) (some t)) (hpushed : s'.pushed = s.tasks.pushed)
    (hpopped : s'.popped = s.tasks.popped ++ [t]) (hlive : s'.live = s.tasks.live) :
    Ledger { s with tasks := s', cancelled := s.cancelled ++ [t] } := by
  obtain ⟨q, owner, waiting, live, pushed, popped⟩ := s'
  subst howner hpushed hpopped hlive
  have hnew := h.first_new inv
  have hmem : ∀ x ∈ s.tasks.popped, x ∈ s.tasks.popped ++ [t] := fun _ => mem_append_left _
  have hworker : ∀ i, update s.tasks.owner (.inl a) (some t) (.inr i) = s.tasks.owner (.inr i) := fun i =>
    update_of_ne (by simp) _ _
  -- what was taken before is not the task taken now
  have hother : ∀ x ∈ s.tasks.popped, x ∉ s.cancelled → x ∉ s.cancelled ++ [t] := by
    intro x hx hc hx'
    rcases mem_append.mp hx' with hx' | hx'
    · exact hc hx'
    · rw [mem_singleton] at hx'
      exact hnew (hx' ▸ hx)
  refine ⟨h.live, h.accepted, fun _ _ _ _ => hcancel, h.once, forall_mem_append.mpr
    ⟨fun x hx => (h.taken x hx).imp id (Or.imp (mem_append_left _) fun ⟨k, hk⟩ => ⟨k, (hworker k).trans hk⟩),
      fun x hx => .inr (.inl (mem_append_right _ hx))⟩, fun k x ho => ?_, fun x hx => ?_,
    forall_mem_append.mpr ⟨fun x hx => ⟨hmem x (h.cancelled x hx).1, (h.cancelled x hx).2⟩,
      forall_mem_singleton.mpr
        ⟨mem_append_right _ (mem_singleton.mpr rfl), fun he => hnew (h.executed t he)⟩⟩,
    fun x hx => hmem x (h.executed x hx), h.destroyedOnce, h.executedOnce, ?_, h.missed, fun _ => hcancel⟩
  · obtain ⟨hp, hd, hc⟩ := h.held k x ((hworker k).symm.trans ho)
    exact ⟨hmem x hp, hd, hother x hp hc⟩
  · obtain ⟨hp, hc⟩ := h.destroyed x hx
    exact ⟨hmem x hp, hother x hp hc⟩
  · exact nodup_snoc h.cancelledOnce fun hc => hnew (h.cancelled t hc).1

omit [DecidableEq α] in
theorem ledger_execute (hhas : s.tasks.owner (.inr i) = some t) (hnew : t ∉ s.executed)
    (hbroken : ∀ k, s.phase k = .broken → phase k = .broken) :
    Ledger { s with pool := pool, phase := phase, executed := s.executed ++ [t] } := by
  obtain ⟨hp, -, hc⟩ := h.held i t hhas
  refine { h with
      cancelled := fun x hx => ?_, executed := forall_mem_append.mpr ⟨h.executed,
      forall_mem_singleton.mpr hp⟩, executedOnce := nodup_snoc h.executedOnce hnew, missed := fun x hx => ?_ }
  · refine ⟨(h.cancelled x hx).1, fun he => ?_⟩
    rcases mem_append.mp he with he | he
    · exact (h.cancelled x hx).2 he
    · rw [mem_singleton] at he
      exact hc (he ▸ hx)
  · exact (h.missed x hx).imp (mem_append_left _) fun ⟨k, hk⟩ => ⟨k, hbroken k hk⟩

/-- A worker destroys its task, which it has run or else ends badly. -/
theorem ledger_destroy {contents : List τ} (inv : TaskInv s.tasks contents)
    (hhas : s.tasks.owner (.inr i) = some t) (hstate : s'.queue.state = s.tasks.queue.state)
    (howner : s'.owner = update s.tasks.owner (.inr i) none) (hpushed : s'.pushed = s.tasks.pushed)
    (hpopped : s'.popped = s.tasks.popped) (hlive : ∀ x ∈ s'.live, x ∈ s.tasks.live)
    (hbroken : ∀ k, s.phase k = .broken → phase k = .broken) (hran : t ∈ s.executed ∨ phase i = .broken) :
    Ledger { s with tasks := s', phase := phase, destroyed := s.destroyed ++ [t] } := by
  obtain ⟨q, owner, waiting, live, pushed, popped⟩ := s'
  subst howner hpushed hpopped
  obtain ⟨hp, hd, hc⟩ := h.held i t hhas
  have hcaller : ∀ a, update s.tasks.owner (.inr i) none (.inl a) = s.tasks.owner (.inl a) := fun a =>
    update_of_ne (by simp) _ _
  refine ⟨fun x hx => h.live x (hlive x hx), h.accepted, fun a x ho hx => ?_, h.once, fun x hx => ?_,
    fun k x ho => ?_, forall_mem_append.mpr ⟨h.destroyed, forall_mem_singleton.mpr ⟨hp, hc⟩⟩, h.cancelled,
    h.executed, nodup_snoc h.destroyedOnce hd, h.executedOnce, h.cancelledOnce, forall_mem_append.mpr
      ⟨fun x hx => (h.missed x hx).imp id fun ⟨k, hk⟩ => ⟨k, hbroken k hk⟩,
        forall_mem_singleton.mpr (hran.imp id fun hk => ⟨i, hk⟩)⟩, fun hne => hstate.trans (h.closed hne)⟩
  · exact hstate.trans (h.fresh a x ((hcaller a).symm.trans ho) hx)
  · rcases h.taken x hx with hx | hx | ⟨k, hk⟩
    · exact .inl (mem_append_left _ hx)
    · exact .inr (.inl hx)
    by_cases hki : k = i
    · rw [hki, hhas] at hk
      exact .inl (mem_append_right _ (mem_singleton.mpr (Option.some.inj hk).symm))
    · exact .inr (.inr ⟨k, (update_of_ne (fun e => hki (inr.inj e)) _ _).trans hk⟩)
  · change update s.tasks.owner (.inr i) none (.inr k) = some x at ho
    have hki : k ≠ i := fun e => by rw [e, update_self] at ho; cases ho
    rw [update_of_ne (fun e => hki (inr.inj e))] at ho
    obtain ⟨hp', hd', hc'⟩ := h.held k x ho
    refine ⟨hp', fun hx => ?_, hc'⟩
    rcases mem_append.mp hx with hx | hx
    · exact hd' hx
    · -- the task that is destroyed is in no other hands
      rw [mem_singleton] at hx
      subst hx
      have he := inv.hand.custody.unique (.inl (.inr k)) (.inl (.inr i)) x ho hhas
      exact hki (inr.inj (inl.inj he))

end

end Moves

/-! ## 4. Callers -/

section Callers

variable [DecidableEq α] [DecidableEq τ] {t t' : TaskSystem (α ⊕ Nat) τ} {contents : List τ}

/-- What the steps of the task system leave to the workers when a caller makes them. -/
structure CallerTasks (t t' : TaskSystem (α ⊕ Nat) τ) : Prop where
  owner : ∀ i, t'.owner (.inr i) = t.owner (.inr i)
  waiting : t'.waiting = t.waiting

omit [DecidableEq α] [DecidableEq τ] in
theorem CallerTasks.refl (t : TaskSystem (α ⊕ Nat) τ) : CallerTasks t t := ⟨fun _ => rfl, rfl⟩

variable {a : α}

omit [DecidableEq τ] in
theorem CallerTasks.hand {x : Option τ} (ho : t'.owner = update t.owner (.inl a) x)
    (hw : t'.waiting = t.waiting) :
    CallerTasks t t' := by
  refine ⟨fun i => ?_, hw⟩
  rw [ho, update_of_ne (by simp)]

omit [DecidableEq τ] in
theorem update_waiting {f : α ⊕ Nat → Bool} (h : f (.inl a) = false) : update f (.inl a) false = f := by
  rw [← h, update_eq_self]

theorem callerTasks (h : Hands s) (m : CallerMove s a s') : CallerTasks s.tasks s'.tasks := by
  cases m with
  | stay | admitted | close | prepareWait => exact ⟨fun _ => rfl, rfl⟩
  | supply t =>
    rw [exec]
    split
    · exact .refl _
    · exact .hand rfl rfl
  | dispose =>
    rw [exec]
    split
    · exact .refl _
    split
    · exact .refl _
    · exact .hand rfl rfl
  | push codes =>
    rw [exec]
    split
    · exact .refl _
    · exact .hand rfl rfl
  | takeCancelled codes =>
    rw [exec]
    split
    · exact .refl _
    · exact .hand rfl (update_waiting (h.calls a))

theorem hands_caller (h : Hands s) (m : CallerMove s a s') : Hands s' := by
  have hf := callerFrame m
  have ht := callerTasks h m
  refine ⟨?_, ?_, ?_, ?_, ?_⟩
  · rw [ht.waiting, hf.phase]
    exact h.waits
  · rw [ht.waiting]
    exact h.calls
  · intro i
    rw [hf.phase, ht.owner i]
    exact h.empty i
  · intro i
    rw [hf.phase, ht.owner i, hf.executed]
    exact h.holding i
  · intro i t
    rw [hf.phase, ht.owner i, hf.executed]
    exact h.spent i t

section

variable (inv : TaskInv t contents) (hbelow : Below t t')
include inv hbelow

theorem finished_below (h : t.queue.Finished) : t'.queue.Finished := by
  rcases hbelow with rfl | ⟨e, rfl⟩
  · exact h
  · exact finished_exec inv h e

theorem cancel_below (h : t.queue.state = .cancelPending) : t'.queue.state = .cancelPending := by
  rw [below_state inv hbelow (by rw [h]; nofun)]
  exact h

end

variable {a : α} (inv : TaskInv s.tasks contents)
include inv

theorem ends_caller (h : Ends s) (m : CallerMove s a s') : Ends s' := by
  have hf := callerFrame m
  refine ⟨fun i hi => ?_, fun i hi => ?_⟩
  · rw [hf.phase] at hi
    rw [hf.pool]
    exact (h.ended i hi).imp id (finished_below inv (below_caller m))
  · rw [hf.phase] at hi
    rw [hf.pool]
    exact h.failed i hi

theorem ledger_caller (hands : Hands s) (h : Ledger s) (m : CallerMove s a s') : Ledger s' := by
  have hcalls := hands.calls a
  have hbelow := below_caller m
  cases m with
  | stay => exact h
  | supply t hnew hempty =>
    have hexec : s.tasks.exec (.supply (.inl a) t) = { s.tasks with
        owner := update s.tasks.owner (.inl a) (some t)
        live := t :: s.tasks.live } := by
      rw [exec]
      rw [if_neg]
      rw [hcalls, hempty]
      simp only [Bool.false_eq_true, Option.isSome_none, false_or]
      exact fun hl => hnew (h.live t hl)
    rw [hexec]
    exact ledger_supply h hnew
  | dispose =>
    rw [exec]
    split
    · exact h
    split
    · exact h
    rename_i t ht _
    refine h.frame (fun b x hb => ?_) (fun i => ?_) (fun x hx => mem_of_mem_erase hx) rfl rfl
      id rfl rfl rfl rfl fun _ => id
    swap
    · show update s.tasks.owner (.inl a) none (.inr i) = _
      rw [update_of_ne (by simp)]
    change update s.tasks.owner (.inl a) none (.inl b) = some x at hb
    by_cases hba : b = a
    · rw [hba, update_self] at hb
      cases hb
    · rwa [update_of_ne (fun e => hba (inl.inj e))] at hb
  | admitted => exact h.frame (fun _ _ => id) (fun _ => rfl) (fun _ => id) rfl rfl id rfl rfl rfl rfl fun _ => id
  | push codes =>
    have hexec : s.tasks.exec (.push (.inl a) codes) =
        s.tasks.gave (.inl a) (s.tasks.queue.transfer (s.tasks.owner (.inl a)) .push codes) := by
      rw [exec]
      rw [hcalls, if_neg Bool.false_ne_true]
    rw [hexec]
    obtain ⟨hspec, hmode⟩ := TaskQueue.pushed_spec s.tasks.queue (s.tasks.owner (.inl a)) codes
    cases gave_cases hspec with
    | moved t had opened owner pushed =>
      exact ledger_push h ⟨contents, inv⟩ had opened hmode.state owner pushed rfl rfl
    | kept owner pushed =>
      exact h.frame (fun b t hb => by rw [← owner]; exact hb) (fun i => by rw [owner]) (fun _ => id)
        pushed rfl (fun hc => hmode.state.trans hc) rfl rfl rfl rfl fun _ => id
  | takeCancelled codes x answer =>
    have hexec : s.tasks.exec (.takeCancelled (.inl a) codes) = s.tasks.got (.inl a) x := by
      rw [answer]
      rw [exec]
      rw [hcalls, if_neg Bool.false_ne_true]
    rw [hexec]
    have hkind : TransferKind.takeCancelled ≠ .push := by decide
    obtain ⟨hspec, hmode⟩ := TaskQueue.popped_spec s.tasks.queue (s.tasks.owner (.inl a)) hkind codes
    rw [← answer] at hspec hmode
    cases got_cases inv.hand.ring hspec with
    | moved t rest first had got told state owner popped =>
      rw [told, if_pos rfl, got, Option.toList_some]
      exact ledger_cancel h (first ▸ inv) (hmode.state.trans state) owner rfl popped rfl
    | kept got told owner popped =>
      rw [told, if_neg Bool.false_ne_true, List.append_nil]
      exact h.frame (fun b t hb => by rw [← owner]; exact hb) (fun i => by rw [owner]) (fun _ => id)
        rfl popped (fun hc => hmode.state.trans hc) rfl rfl rfl rfl fun _ => id
  -- the queue is closed or gets its condition, which only its own fields see
  | close | prepareWait =>
    exact h.frame (fun _ _ => id) (fun _ => rfl) (fun _ => id) rfl rfl (cancel_below inv hbelow) rfl rfl rfl rfl
      fun _ => id

end Callers

/-! ## 5. Workers -/

/-- The three books together. -/
structure Account (s : PoolSystem α τ) : Prop where
  hands : Hands s
  ends : Ends s
  ledger : Ledger s

variable {p : WorkerPhase}

/-- Worker `i` goes to phase `p`; nobody else's hands change. -/
theorem Hands.worker (h : Hands s) (hphase : s'.phase = update s.phase i p)
    (hwait : ∀ b, b ≠ .inr i → s'.tasks.waiting b = s.tasks.waiting b)
    (howner : ∀ k, k ≠ i → s'.tasks.owner (.inr k) = s.tasks.owner (.inr k))
    (hexecuted : ∀ k t, k ≠ i → s.tasks.owner (.inr k) = some t → (t ∈ s'.executed ↔ t ∈ s.executed))
    (hwaits : s'.tasks.waiting (.inr i) = true ↔ p = .waiting)
    (hempty : p ≠ .holding → p ≠ .spent → p ≠ .discarding → s'.tasks.owner (.inr i) = none)
    (hholding : p = .holding → ∃ t, s'.tasks.owner (.inr i) = some t ∧ t ∉ s'.executed)
    (hspent : ∀ t, p = .spent → s'.tasks.owner (.inr i) = some t → t ∈ s'.executed) : Hands s' := by
  refine ⟨fun k => ?_, fun a => ?_, fun k => ?_, fun k => ?_, fun k t => ?_⟩
  · rw [hphase]
    by_cases hk : k = i
    · rw [hk, update_self]
      exact hwaits
    · rw [update_of_ne hk, hwait _ fun e => hk (inr.inj e)]
      exact h.waits k
  · rw [hwait _ (by simp)]
    exact h.calls a
  · rw [hphase]
    by_cases hk : k = i
    · rw [hk, update_self]
      exact hempty
    · rw [update_of_ne hk, howner k hk]
      exact h.empty k
  · rw [hphase]
    by_cases hk : k = i
    · rw [hk, update_self]
      exact hholding
    · rw [update_of_ne hk, howner k hk]
      intro hp
      obtain ⟨t, ht, hnew⟩ := h.holding k hp
      exact ⟨t, ht, fun he => hnew ((hexecuted k t hk ht).mp he)⟩
  · rw [hphase]
    by_cases hk : k = i
    · rw [hk, update_self]
      exact hspent t
    · rw [update_of_ne hk, howner k hk]
      exact fun hp ht => (hexecuted k t hk ht).mpr (h.spent k t hp ht)

/-- Worker `i` goes to phase `p` with slot `w`. -/
theorem Ends.worker (h : Ends s) (hphase : s'.phase = update s.phase i p)
    (hpool : s'.pool = { s.pool with workers := update s.pool.workers i w })
    (hfinished : s.tasks.queue.Finished → s'.tasks.queue.Finished)
    (hended : p = .ended → (s.pool.stopRequested = true ∧ s.pool.executionEnabled = false) ∨
      s.tasks.queue.Finished) (hfailed : p = .discarding ∨ p = .broken → w.workerResult ≠ .ok) : Ends s' := by
  refine ⟨fun k => ?_, fun k => ?_⟩
  · rw [hphase, hpool]
    by_cases hk : k = i
    · rw [hk, update_self]
      exact fun hp => (hended hp).imp id hfinished
    · rw [update_of_ne hk]
      exact fun hp => (h.ended k hp).imp id hfinished
  · rw [hphase, hpool]
    show _ → (update s.pool.workers i w k).workerResult ≠ .ok
    by_cases hk : k = i
    · rw [hk, update_self, update_self]
      exact hfailed
    · rw [update_of_ne hk, update_of_ne hk]
      exact h.failed k

theorem broken_update (h : s.phase i ≠ .broken) (k : Nat) (hk : s.phase k = .broken) :
    update s.phase i p k = .broken := by
  have hki : k ≠ i := fun e => h (e ▸ hk)
  rw [update_of_ne hki]
  exact hk

theorem account_parked {x : WorkerSlot × WorkerPhase} (h : Account s)
    (hp : s.phase i = .entering ∨ s.phase i = .parked) (hx : ParkOutcome s.pool x) :
    Account (s.moved i x) := by
  have hempty : s.tasks.owner (.inr i) = none := by
    refine h.hands.empty i ?_ ?_ ?_ <;> rcases hp with hp | hp <;> rw [hp] <;> nofun
  have hwait : ¬ s.tasks.waiting (.inr i) = true := by
    rw [h.hands.waits i]
    rcases hp with hp | hp <;> rw [hp] <;> nofun
  have hbroken : s.phase i ≠ .broken := by rcases hp with hp | hp <;> rw [hp] <;> nofun
  have hnot : x.2 ≠ .waiting ∧ x.2 ≠ .holding ∧ x.2 ≠ .spent ∧ x.2 ≠ .discarding := by
    cases hx with
    | on w p stay => rcases stay with rfl | rfl <;> exact ⟨nofun, nofun, nofun, nofun⟩
    | ended w stop off => exact ⟨nofun, nofun, nofun, nofun⟩
    | broken w error => exact ⟨nofun, nofun, nofun, nofun⟩
  refine ⟨?_, ?_, ?_⟩
  · exact h.hands.worker rfl (fun _ _ => rfl) (fun _ _ => rfl) (fun _ _ _ _ => .rfl)
      ⟨fun hw => absurd hw hwait, fun hw => absurd hw hnot.1⟩ (fun _ _ _ => hempty)
      (fun hh => absurd hh hnot.2.1) (fun _ hh => absurd hh hnot.2.2.1)
  · refine h.ends.worker rfl rfl id ?_ ?_
    · cases hx with
      | on w p stay => rcases stay with rfl | rfl <;> nofun
      | ended w stop off => exact fun _ => .inl ⟨stop, off⟩
      | broken w error => nofun
    · cases hx with
      | on w p stay => rcases stay with rfl | rfl <;> nofun
      | ended w stop off => nofun
      | broken w error => exact fun _ => error
  · exact h.ledger.frame (fun _ _ => id) (fun _ => rfl) (fun _ => id) rfl rfl id rfl rfl rfl rfl
      (broken_update hbroken)

section Workers

variable [DecidableEq α] [DecidableEq τ] {i : Nat} {contents : List τ}

section

variable (inv : TaskInv s.tasks contents)
include inv

theorem account_took {e : QueueEvent (α ⊕ Nat) τ} {o : WaitOutcome τ (TaskQueue τ)} (h : Account s) (hp : s.phase i = .taking ∨ s.phase i = .waiting)
    (hexec : s.tasks.exec e = s.tasks.waited (.inr i) o)
    (hspec : s.tasks.queue.WaitPopped (s.tasks.owner (.inr i)) o)
    (htruth : ∀ x, o = .returned x → s.tasks.queue.Truthful x) : Account (s.took i e o) := by
  have hempty : s.tasks.owner (.inr i) = none := by
    refine h.hands.empty i ?_ ?_ ?_ <;> rcases hp with hp | hp <;> rw [hp] <;> nofun
  have hbroken : s.phase i ≠ .broken := by rcases hp with hp | hp <;> rw [hp] <;> nofun
  have hfinished : s.tasks.queue.Finished → (s.tasks.exec e).queue.Finished :=
    fun hf => finished_exec inv hf e
  cases o with
  | blocked =>
    unfold took
    rw [hexec] at hfinished ⊢
    have hwaiting : ∀ b, b ≠ .inr i → update s.tasks.waiting (.inr i) true b = s.tasks.waiting b :=
      fun b hb => update_of_ne hb _ _
    refine ⟨?_, ?_, ?_⟩
    · refine h.hands.worker rfl hwaiting (fun _ _ => rfl) (fun _ _ _ _ => .rfl)
        ⟨fun _ => rfl, fun _ => ?_⟩ (fun _ _ _ => hempty) nofun (fun _ => nofun)
      exact update_self ..
    · refine h.ends.worker (w := s.pool.workers i) rfl ?_ hfinished nofun nofun
      rw [update_eq_self]
    · exact h.ledger.frame (fun _ _ => id) (fun _ => rfl) (fun _ => id) rfl rfl id rfl rfl rfl rfl
        (broken_update hbroken)
  | returned x =>
    have htrue := htruth x rfl
    obtain ⟨hpop, hmode⟩ := hspec
    unfold took
    rw [hexec] at hfinished ⊢
    change s.tasks.queue.Finished → x.queue.Finished at hfinished
    show Account ({ s with tasks := s.tasks.got (.inr i) x }.moved i ((s.pool.workers i).received x))
    have hout := received_outcome (s.pool.workers i) x
    generalize (s.pool.workers i).received x = r at hout
    have hwaiting : ∀ b, b ≠ .inr i → update s.tasks.waiting (.inr i) false b = s.tasks.waiting b :=
      fun b hb => update_of_ne hb _ _
    have hends : Ends ({ s with tasks := s.tasks.got (.inr i) x }.moved i r) := by
      refine h.ends.worker rfl rfl hfinished ?_ ?_
      · cases hout with
        | ended cancelled => exact fun _ => .inr (htrue.cancelled cancelled).2
        | failed w error bad => nofun
        | task ok => nofun
      · cases hout with
        | ended cancelled => nofun
        | failed w error bad => exact fun _ => error
        | task ok => nofun
    have hnot : r.2 ≠ .waiting ∧ r.2 ≠ .spent := by
      cases hout <;> exact ⟨nofun, nofun⟩
    have hwaits : update s.tasks.waiting (.inr i) false (.inr i) = true ↔ r.2 = .waiting := by
      rw [update_self]
      exact ⟨nofun, fun hw => absurd hw hnot.1⟩
    cases got_cases inv.hand.ring hpop with
    | moved t rest first had got told state owner popped =>
      have hnew := h.ledger.first_new (first ▸ inv)
      have hself : (s.tasks.got (.inr i) x).owner (.inr i) = some t := by
        rw [owner, update_self]
      have hother : ∀ k, k ≠ i → (s.tasks.got (.inr i) x).owner (.inr k) = s.tasks.owner (.inr k) := by
        intro k hk
        rw [owner, update_of_ne (fun e => hk (inr.inj e))]
      refine ⟨?_, hends, ?_⟩
      · refine h.hands.worker rfl hwaiting hother (fun _ _ _ _ => .rfl) hwaits (fun h1 _ h3 => ?_)
          (fun _ => ⟨t, hself, fun he => hnew (h.ledger.executed t he)⟩) (fun _ hh => absurd hh hnot.2)
        -- a task was taken, so the call did not say CANCELLED
        cases hout with
        | ended cancelled => exact absurd (told.symm.trans (htrue.cancelled cancelled).1) nofun
        | failed w error bad => exact absurd rfl h3
        | task ok => exact absurd rfl h1
      · exact ledger_take (s := s) h.ledger (first ▸ inv) hmode.state hempty owner rfl popped rfl
          (broken_update hbroken)
    | kept got told owner popped =>
      have hsame : ∀ k, (s.tasks.got (.inr i) x).owner (.inr k) = s.tasks.owner (.inr k) :=
        fun k => by rw [owner]
      refine ⟨?_, hends, ?_⟩
      · refine h.hands.worker rfl hwaiting (fun k _ => hsame k) (fun _ _ _ _ => .rfl) hwaits
          (fun _ _ _ => (hsame i).trans hempty) (fun hh => ?_) (fun _ hh => absurd hh hnot.2)
        -- the call said OK, so a task was taken
        cases hout with
        | ended cancelled => cases hh
        | failed w error bad => cases hh
        | task ok => exact absurd (told.symm.trans (htrue.ok ok)) nofun
      · exact h.ledger.frame (fun a t ho => by rw [← owner]; exact ho) hsame (fun _ => id) rfl popped
          (fun hc => hmode.state.trans hc) rfl rfl rfl rfl (broken_update hbroken)

theorem account_waitPop (h : Account s) (hp : s.phase i = .taking) (codes : SyncCodes) :
    Account (s.took i (.waitPop (.inr i) codes)
      (s.tasks.queue.waitPop (s.tasks.owner (.inr i)) codes)) := by
  have hempty : s.tasks.owner (.inr i) = none := by
    refine h.hands.empty i ?_ ?_ ?_ <;> rw [hp] <;> nofun
  have hwait : ¬ s.tasks.waiting (.inr i) = true := by
    rw [h.hands.waits i, hp]
    nofun
  refine account_took inv h (.inl hp) ?_ (TaskQueue.waitPop_spec ..) fun x hx => ?_
  · rw [exec]
    rw [if_neg hwait]
  · rw [hempty] at hx
    exact TaskQueue.waitPop_truthful inv.alive hx

theorem account_wake (h : Account s) (hp : s.phase i = .waiting) (wait unlock : Nat) :
    Account (s.took i (.wake (.inr i) wait unlock) (s.tasks.queue.waitPopWake wait unlock)) := by
  have hempty : s.tasks.owner (.inr i) = none := by
    refine h.hands.empty i ?_ ?_ ?_ <;> rw [hp] <;> nofun
  refine account_took inv h (.inr hp) ?_ ?_ fun x hx => TaskQueue.waitPopWake_truthful hx
  · rw [exec]
    rw [if_pos ((h.hands.waits i).mpr hp)]
  · rw [hempty]
    exact TaskQueue.waitPopWake_spec ..

end

omit [DecidableEq α] [DecidableEq τ] in
theorem account_execute (inv : TaskInv s.tasks contents) (h : Account s) (hp : s.phase i = .holding)
    (result : Result) :
    Account { s.moved i ((s.pool.workers i).ran result, .spent) with
      executed := s.executed ++ (s.tasks.owner (.inr i)).toList } := by
  obtain ⟨t, ht, hnew⟩ := h.hands.holding i hp
  have hwait : ¬ s.tasks.waiting (.inr i) = true := by
    rw [h.hands.waits i, hp]
    nofun
  have hbroken : s.phase i ≠ .broken := by
    rw [hp]
    nofun
  rw [ht, Option.toList_some]
  refine ⟨?_, ?_, ?_⟩
  · refine h.hands.worker rfl (fun _ _ => rfl) (fun _ _ => rfl) (fun k x hk hx => ?_)
      ⟨fun hw => absurd hw hwait, nofun⟩ (fun _ hs => absurd rfl hs) nofun (fun x _ hx => ?_)
    · refine ⟨fun he => ?_, mem_append_left _⟩
      rcases mem_append.mp he with he | he
      · exact he
      rw [mem_singleton] at he
      subst he
      have hsame := inv.hand.custody.unique (.inl (.inr k)) (.inl (.inr i)) x hx ht
      exact absurd (inr.inj (inl.inj hsame)) hk
    · refine mem_append_right _ (mem_singleton.mpr ?_)
      exact Option.some.inj (hx.symm.trans ht)
  · exact h.ends.worker rfl rfl id nofun nofun
  · exact ledger_execute (s := s) h.ledger ht hnew (broken_update hbroken)

theorem account_destroy (inv : TaskInv s.tasks contents) (h : Account s)
    (hp : s.phase i = .spent ∨ s.phase i = .discarding) :
    Account { s with
      tasks := s.tasks.exec (.dispose (.inr i))
      phase := update s.phase i (if s.phase i = .spent then .taking else .broken)
      destroyed := s.destroyed ++ (s.tasks.owner (.inr i)).toList } := by
  have hwait : ¬ s.tasks.waiting (.inr i) = true := by
    rw [h.hands.waits i]
    rcases hp with hp | hp <;> rw [hp] <;> nofun
  have hbroken : s.phase i ≠ .broken := by rcases hp with hp | hp <;> rw [hp] <;> nofun
  have hfinished : s.tasks.queue.Finished → (s.tasks.exec (.dispose (.inr i))).queue.Finished :=
    fun hf => finished_exec inv hf _
  have hends : Ends { s with
      tasks := s.tasks.exec (.dispose (.inr i))
      phase := update s.phase i (if s.phase i = .spent then .taking else .broken)
      destroyed := s.destroyed ++ (s.tasks.owner (.inr i)).toList } := by
    refine h.ends.worker (w := s.pool.workers i) rfl ?_ hfinished ?_ ?_
    · rw [update_eq_self]
    · split <;> nofun
    rcases hp with hp | hp
    · rw [if_pos hp]
      nofun
    · exact fun _ => h.ends.failed i (.inl hp)
  have hphase : ∀ q : WorkerPhase, (if s.phase i = .spent then WorkerPhase.taking else .broken) = q →
      q ≠ .waiting ∧ q ≠ .holding ∧ q ≠ .spent := by
    rintro q rfl
    split <;> exact ⟨nofun, nofun, nofun⟩
  obtain ⟨hnw, hnh, hns⟩ := hphase _ rfl
  cases ho : s.tasks.owner (.inr i) with
  | none =>
    have hexec : s.tasks.exec (.dispose (.inr i)) = s.tasks := by
      rw [exec]
      rw [ho]
    rw [ho, Option.toList_none, List.append_nil, hexec] at hends
    rw [hexec, Option.toList_none, List.append_nil]
    refine ⟨?_, hends, ?_⟩
    · exact h.hands.worker rfl (fun _ _ => rfl) (fun _ _ => rfl) (fun _ _ _ _ => .rfl)
        ⟨fun hw => absurd hw hwait, fun hw => absurd hw hnw⟩ (fun _ _ _ => ho)
        (fun hh => absurd hh hnh) (fun _ hh => absurd hh hns)
    · exact h.ledger.frame (fun _ _ => id) (fun _ => rfl) (fun _ => id) rfl rfl id rfl rfl rfl rfl
        (broken_update hbroken)
  | some t =>
    have hexec : s.tasks.exec (.dispose (.inr i)) = { s.tasks with
        owner := update s.tasks.owner (.inr i) none
        live := s.tasks.live.erase t } := by
      rw [exec]
      rw [ho]
      dsimp only
      rw [if_neg hwait]
    rw [ho, Option.toList_some, hexec] at hends
    rw [hexec, Option.toList_some]
    refine ⟨?_, hends, ?_⟩
    · refine h.hands.worker rfl (fun _ _ => rfl) (fun k hk => ?_) (fun _ _ _ _ => .rfl)
        ⟨fun hw => absurd hw hwait, fun hw => absurd hw hnw⟩ (fun _ _ _ => ?_)
        (fun hh => absurd hh hnh) (fun _ hh => absurd hh hns)
      · exact update_of_ne (fun e => hk (inr.inj e)) _ _
      · exact update_self ..
    · refine ledger_destroy (s := s) h.ledger inv ho rfl rfl rfl rfl
        (fun x hx => mem_of_mem_erase hx) (broken_update hbroken) ?_
      rcases hp with hp | hp
      · exact .inl (h.hands.spent i t hp ho)
      refine .inr ?_
      rw [update_self, hp]
      rfl

theorem account_worker (inv : TaskInv s.tasks contents) (h : Account s) (i : Nat) (e : WorkerEvent) :
    Account (s.workerStep i e) := by
  cases e with
  | enter cancel lock unlock =>
    rw [workerStep]
    split
    · rename_i hp
      exact account_parked h (.inl hp) (enter_outcome ..)
    · exact h
  | unpark wait unlock =>
    rw [workerStep]
    split
    · rename_i hp
      exact account_parked h (.inr hp) (unpark_outcome ..)
    · exact h
  | waitPop codes =>
    rw [workerStep]
    split
    · rename_i hp
      exact account_waitPop inv h hp codes
    · exact h
  | wake wait unlock =>
    rw [workerStep]
    split
    · rename_i hp
      exact account_wake inv h hp wait unlock
    · exact h
  | execute result =>
    rw [workerStep]
    split
    · rename_i hp
      exact account_execute inv h hp result
    · exact h
  | destroyTask =>
    rw [workerStep]
    split
    · rename_i hp
      exact account_destroy inv h hp
    · exact h

end Workers

/-! ## 6. The manager -/

section Managers

variable [DecidableEq α] [DecidableEq τ] {contents : List τ}

theorem Account.managed (inv : TaskInv s.tasks contents) (h : Account s)
    (htasks : s'.tasks = s.tasks ∨ ∃ mode codes, s'.tasks = s.tasks.exec (.close mode codes))
    (hphase : ∀ i, s'.phase i = s.phase i ∨ (s.phase i = .unborn ∧ s'.phase i = .entering))
    (hborn : s'.born = s.born) (hexecuted : s'.executed = s.executed) (hdestroyed : s'.destroyed = s.destroyed)
    (hcancelled : s'.cancelled = s.cancelled)
    (hstop : s.pool.stopRequested = true ∧ s.pool.executionEnabled = false →
      s'.pool.stopRequested = true ∧ s'.pool.executionEnabled = false)
    (hresult : ∀ i, (s'.pool.workers i).workerResult = (s.pool.workers i).workerResult) :
    Account s' := by
  have hbelow : Below s.tasks s'.tasks := htasks.imp id fun ⟨mode, codes, e⟩ => ⟨_, e⟩
  obtain ⟨howner, hwaiting, hlive, hpushed, hpopped⟩ : s'.tasks.owner = s.tasks.owner ∧
      s'.tasks.waiting = s.tasks.waiting ∧ s'.tasks.live = s.tasks.live ∧
      s'.tasks.pushed = s.tasks.pushed ∧ s'.tasks.popped = s.tasks.popped := by
    rcases htasks with e | ⟨mode, codes, e⟩
    · rw [e]
      exact ⟨rfl, rfl, rfl, rfl, rfl⟩
    · rw [e]
      exact ⟨rfl, rfl, rfl, rfl, rfl⟩
  -- a phase other than the first two was the worker's phase before
  have hold : ∀ i p, s'.phase i = p → p ≠ .entering → s.phase i = p := by
    intro i p hp hne
    rcases hphase i with e | ⟨-, e⟩
    · exact e.symm.trans hp
    · exact absurd (hp.symm.trans e) hne
  refine ⟨⟨fun i => ?_, fun a => ?_, fun i h1 h2 h3 => ?_, fun i hp => ?_, fun i t hp => ?_⟩,
    ⟨fun i hp => ?_, fun i hp => ?_⟩, ?_⟩
  · rw [hwaiting, h.hands.waits i]
    rcases hphase i with e | ⟨e, e'⟩
    · rw [e]
    · rw [e, e']
      exact ⟨nofun, nofun⟩
  · rw [hwaiting]
    exact h.hands.calls a
  · rw [howner]
    rcases hphase i with e | ⟨e, -⟩
    · rw [e] at h1 h2 h3
      exact h.hands.empty i h1 h2 h3
    · refine h.hands.empty i ?_ ?_ ?_ <;> rw [e] <;> nofun
  · rw [howner, hexecuted]
    exact h.hands.holding i (hold i _ hp nofun)
  · rw [howner, hexecuted]
    exact h.hands.spent i t (hold i _ hp nofun)
  · exact (h.ends.ended i (hold i _ hp nofun)).imp hstop (finished_below inv hbelow)
  · rw [hresult i]
    exact h.ends.failed i (hp.imp (fun hp => hold i _ hp nofun) fun hp => hold i _ hp nofun)
  · refine h.ledger.frame (fun a t ho => by rw [← howner]; exact ho) (fun i => by rw [howner])
      (fun t ht => by rw [← hlive]; exact ht) hpushed hpopped (cancel_below inv hbelow) hborn
      hexecuted hdestroyed hcancelled fun i hi => ?_
    rcases hphase i with e | ⟨e, -⟩
    · rw [e]
      exact hi
    · rw [hi] at e
      cases e

theorem account_manager (inv : TaskInv s.tasks contents) (c : Census s) (st : Stance s) (h : Account s)
    (m : ManagerMove s s') : Account s' := by
  have hsame : ∀ i, s.phase i = s.phase i ∨ (s.phase i = .unborn ∧ s.phase i = .entering) :=
    fun _ => .inl rfl
  have hstand := st.standing
  cases m with
  | stay => exact h
  | answer pool freed r same plain =>
    refine h.managed inv (.inl rfl) hsame rfl rfl rfl rfl ?_ fun i => ?_
    · show _ → pool.stopRequested = true ∧ pool.executionEnabled = false
      rw [same.stopRequested, same.executionEnabled]
      exact id
    · show (pool.workers i).workerResult = _
      rw [same.workers]
  | started pool same first attempted =>
    refine h.managed inv (.inl rfl) hsame rfl rfl rfl rfl ?_ fun i => ?_
    · show _ → pool.stopRequested = true ∧ pool.executionEnabled = false
      rw [same.stopRequested, same.executionEnabled]
      exact id
    · show (pool.workers i).workerResult = _
      rw [same.workers]
  | created i at_ room =>
    rw [at_] at hstand
    refine h.managed inv (.inl rfl) (fun k => ?_) rfl rfl rfl rfl id fun k => ?_
    · show update s.phase i .entering k = _ ∨ _ ∧ update s.phase i .entering k = _
      by_cases hk : k = i
      · rw [hk, update_self]
        exact .inr ⟨(c.unborn i).mpr hstand.2.1.le, rfl⟩
      · rw [update_of_ne hk]
        exact .inl rfl
    · show (update s.pool.workers i { s.pool.workers i with threadCreated := true } k).workerResult = _
      by_cases hk : k = i
      · rw [hk, update_self]
      · rw [update_of_ne hk]
  | failed i result code at_ =>
    exact h.managed inv (.inl rfl) hsame rfl rfl rfl rfl id fun _ => rfl
  | enabling stop all attempted =>
    exact h.managed inv (.inl rfl) hsame rfl rfl rfl rfl id fun _ => rfl
  | enabled r at_ plain =>
    rw [at_] at hstand
    -- execution is enabled only before a stop was requested
    refine h.managed inv (.inl rfl) hsame rfl rfl rfl rfl (fun hs => ?_) fun _ => rfl
    exact absurd (hstand.1.symm.trans hs.1) nofun
  | closing mode codes r plain =>
    exact h.managed inv (.inr ⟨mode, codes, rfl⟩) hsame rfl rfl rfl rfl id fun _ => rfl
  | closed mode codes close enabled all ok mode_ =>
    exact h.managed inv (.inr ⟨mode, codes, rfl⟩) hsame rfl rfl rfl rfl id fun _ => rfl
  | stopping why before from_ =>
    exact h.managed inv (.inl rfl) hsame rfl rfl rfl rfl id fun _ => rfl
  | halted r plain =>
    exact h.managed inv (.inl rfl) hsame rfl rfl rfl rfl (fun hs => ⟨rfl, hs.2⟩) fun _ => rfl
  | stopped why before at_ =>
    exact h.managed inv (.inl rfl) hsame rfl rfl rfl rfl (fun hs => ⟨rfl, hs.2⟩) fun _ => rfl
  | skipped why before i out at_ skip =>
    exact h.managed inv (.inl rfl) hsame rfl rfl rfl rfl id fun _ => rfl
  | joined why before i out code at_ here new gone =>
    obtain ⟨-, -, hstop, henabled, -⟩ := joinWorker_flags s.pool i code out
    refine h.managed inv (.inl rfl) hsame rfl rfl rfl rfl (fun hs => ?_)
      fun k => (joinWorker_workers s.pool i code out k).2.1
    exact ⟨hstop.trans hs.1, henabled.trans hs.2⟩
  | reclaimed why before out r at_ return_ =>
    exact h.managed inv (.inl rfl) hsame rfl rfl rfl rfl id fun _ => rfl

end Managers

/-! ## 7. Runs -/

section Runs

variable [DecidableEq α] [DecidableEq τ] {contents : List τ} {mode : QueueState} {before : Nat}

/-- What every run keeps. -/
structure PoolInv (s : PoolSystem α τ) : Prop where
  tasks : TaskRun s.tasks
  census : Census s
  stance : Stance s
  account : Account s

theorem poolInv_exec (h : PoolInv s) (e : PoolEvent α τ) : PoolInv (s.exec e) := by
  obtain ⟨contents, inv⟩ := taskInv_of_run h.tasks
  have htasks : TaskRun (s.exec e).tasks := by
    rcases below_exec (s := s) e with heq | ⟨q, heq⟩
    · rw [heq]
      exact h.tasks
    · rw [heq]
      exact h.tasks.step q
  refine ⟨htasks, ?_, ?_, ?_⟩
  · cases e with
    | caller a e =>
      have hf := callerFrame (callerMove (s := s) a e)
      exact h.census.same (hf.pool.symm ▸ .refl _) hf.phase
    | worker i e =>
      rcases workerFrame (s := s) i e with heq | hf
      · show Census (s.workerStep i e)
        rw [heq]
        exact h.census
      · exact census_worker h.census hf
    | manager e => exact census_manager h.census h.stance (managerMove e)
  · cases e with
    | caller a e => exact stance_caller inv h.stance (callerMove a e)
    | worker i e =>
      rcases workerFrame (s := s) i e with heq | hf
      · show Stance (s.workerStep i e)
        rw [heq]
        exact h.stance
      · exact stance_worker inv (below_worker i e) h.census h.stance hf
    | manager e => exact stance_manager inv h.census h.stance (managerMove e)
  · cases e with
    | caller a e =>
      have m := callerMove (s := s) a e
      exact ⟨hands_caller h.account.hands m, ends_caller inv h.account.ends m,
        ledger_caller inv h.account.hands h.account.ledger m⟩
    | worker i e => exact account_worker inv h.account i e
    | manager e => exact account_manager inv h.census h.stance h.account (managerMove e)

theorem create_pool {workerCount maxMemoryBytes : UInt64} {memory : Bool} {pool : ThreadPool}
    (h : ThreadPool.create workerCount maxMemoryBytes memory = .ok pool) :
    0 < workerCount.toNat ∧ ∃ bytes, pool = .fresh workerCount maxMemoryBytes bytes := by
  unfold ThreadPool.create at h
  split at h
  · cases h
  rename_i hpos
  split at h
  · cases h
  split at h
  · cases h
  rename_i bytes _
  split at h
  · cases h
  split at h
  · cases h
  · refine ⟨Nat.pos_of_ne_zero fun hz => hpos (.inl ?_), bytes, (Except.ok.inj h).symm⟩
    rw [← UInt64.toNat_inj, hz, UInt64.toNat_zero]

theorem poolInv_begin {workerCount maxMemoryBytes bytes : UInt64} {q : TaskQueue τ}
    (hpos : 0 < workerCount.toNat)
    (hq : TaskRun (⟨q, fun _ => none, fun _ => false, [], [], []⟩ : TaskSystem (α ⊕ Nat) τ)) :
    PoolInv (begin (.fresh workerCount maxMemoryBytes bytes) q : PoolSystem α τ) := by
  refine ⟨hq, ⟨hpos, Nat.zero_le _, fun i => ⟨nofun, fun h => absurd h (Nat.not_lt_zero i)⟩,
    fun i => ⟨fun _ => Nat.zero_le i, fun _ => rfl⟩, nofun, rfl⟩,
    ⟨fun _ => rfl, nofun, trivial, fun _ _ _ h => absurd h not_mem_nil⟩, ?_⟩
  refine ⟨⟨fun i => ⟨nofun, nofun⟩, fun _ => rfl, fun _ _ _ _ => rfl, nofun, nofun⟩, ⟨nofun, fun i h => ?_⟩, ?_⟩
  · rcases h with h | h <;> cases h
  · exact ⟨nofun, nofun, nofun, nodup_nil, nofun, nofun, nofun, nofun, nofun, nodup_nil,
      nodup_nil, nodup_nil, nofun, fun h => absurd rfl h⟩

theorem poolInv_of_run (run : PoolRun s) : PoolInv s := by
  induction run with
  | create hpool hqueue =>
    obtain ⟨hpos, bytes, rfl⟩ := create_pool hpool
    exact poolInv_begin hpos (.create hqueue)
  | step _ e ih => exact poolInv_exec ih e

theorem PoolRun.steps (run : PoolRun s) (l : List (PoolEvent α τ)) : PoolRun (l.foldl (·.exec ·) s) := by
  induction l generalizing s with
  | nil => exact run
  | cons e l ih => exact ih (run.step e)

/-- Where an accepted task is: one of four places, and in no other. -/
inductive Whereabouts (s : PoolSystem α τ) (contents : List τ) (t : τ) : Prop
  | queued (here : t ∈ contents) (idle : ∀ i, s.tasks.owner (.inr i) ≠ some t)
      (unrun : t ∉ s.executed) (intact : t ∉ s.destroyed) (kept : t ∉ s.cancelled)
  | held (here : ∃! i, s.tasks.owner (.inr i) = some t) (out : t ∉ contents)
      (intact : t ∉ s.destroyed) (kept : t ∉ s.cancelled)
  | destroyed (once : s.destroyed.count t = 1) (out : t ∉ contents)
      (idle : ∀ i, s.tasks.owner (.inr i) ≠ some t) (kept : t ∉ s.cancelled)
  | handedBack (once : s.cancelled.count t = 1) (out : t ∉ contents)
      (idle : ∀ i, s.tasks.owner (.inr i) ≠ some t) (unrun : t ∉ s.executed)
      (intact : t ∉ s.destroyed)

theorem PoolInv.whereabouts (h : PoolInv s) (inv : TaskInv s.tasks contents) {t : τ} (ht : t ∈ s.tasks.pushed) :
    Whereabouts s contents t := by
  have ledger := h.account.ledger
  have horder : s.tasks.pushed = s.tasks.popped ++ contents := inv.hand.order
  have honce := ledger.once
  rw [horder, nodup_append] at honce
  have hdisjoint : ∀ x ∈ s.tasks.popped, x ∉ contents := fun x hx hc => honce.2.2 x hx x hc rfl
  rw [horder, mem_append] at ht
  rcases ht with hpopped | hqueued
  · have hout := hdisjoint t hpopped
    rcases ledger.taken t hpopped with hd | hc | ⟨i, hi⟩
    · refine .destroyed (count_eq_one_of_mem ledger.destroyedOnce hd) hout (fun i hi => ?_)
        (ledger.destroyed t hd).2
      exact (ledger.held i t hi).2.1 hd
    · refine .handedBack (count_eq_one_of_mem ledger.cancelledOnce hc) hout (fun i hi => ?_)
        (ledger.cancelled t hc).2 fun hd => (ledger.destroyed t hd).2 hc
      exact (ledger.held i t hi).2.2 hc
    · obtain ⟨-, hd, hc⟩ := ledger.held i t hi
      refine .held ⟨i, hi, fun k hk => ?_⟩ hout hd hc
      have he := inv.hand.custody.unique (.inl (.inr k)) (.inl (.inr i)) t hk hi
      exact inr.inj (inl.inj he)
  · have hnew : t ∉ s.tasks.popped := fun hp => hdisjoint t hp hqueued
    exact .queued hqueued (fun i hi => hnew (ledger.held i t hi).1)
      (fun he => hnew (ledger.executed t he)) (fun hd => hnew (ledger.destroyed t hd).1)
      fun hc => hnew (ledger.cancelled t hc).1

theorem PoolInv.idle (h : PoolInv s) (hall : s.pool.joinedCount = s.pool.createdCount) (i : Nat) :
    s.tasks.owner (.inr i) = none := by
  by_cases hi : i < s.pool.createdCount
  · have hover := h.census.gone i (joinedAmong_eq (h.census.count.symm.trans hall) hi)
    refine h.account.hands.empty i ?_ ?_ ?_ <;> rcases hover with e | e <;> rw [e] <;> nofun
  · have hunborn := (h.census.unborn i).mpr (Nat.le_of_not_lt hi)
    refine h.account.hands.empty i ?_ ?_ ?_ <;> rw [hunborn] <;> nofun

omit [DecidableEq α] [DecidableEq τ] in
theorem ShutDown.joinedCount (c : Census s) (h : ShutDown s mode before) :
    s.pool.joinedCount = s.pool.createdCount := by
  have hall : ∀ i ∈ Finset.range s.pool.createdCount, (s.pool.workers i).threadJoined = true :=
    fun i hi => h.joined i (Finset.mem_range.mp hi)
  rw [c.count]
  unfold joinedAmong
  rw [Finset.filter_true_of_mem hall, Finset.card_range]

theorem PoolInv.shutDown (h : PoolInv s) (inv : TaskInv s.tasks contents) (hdown : ShutDown s mode before)
    (hgood : ∀ i, s.phase i ≠ .broken) {t : τ} (ht : t ∈ s.tasks.pushed) :
    t ∈ s.executed ∨ (mode = .cancelPending ∧ (t ∈ contents ∨ t ∈ s.cancelled)) := by
  have ledger := h.account.ledger
  have horder : s.tasks.pushed = s.tasks.popped ++ contents := inv.hand.order
  have hjoined := hdown.joinedCount h.census
  -- there is a worker; it was not stopped first, so it has seen the end of the queue
  have hfirst : 0 < s.pool.createdCount := hdown.shutting.all ▸ h.census.some
  have hended : s.phase 0 = .ended :=
    (h.census.gone 0 (hdown.joined 0 hfirst)).resolve_right (hgood 0)
  have hfinished : s.tasks.queue.Finished := by
    refine (h.account.ends.ended 0 hended).resolve_left fun hs => ?_
    exact Bool.false_ne_true (hs.2.symm.trans hdown.shutting.enabled)
  have hcancel : s.tasks.queue.state = .cancelPending → mode = .cancelPending :=
    fun hc => hdown.shutting.state.symm.trans hc
  rw [horder, mem_append] at ht
  rcases ht with hpopped | hqueued
  · rcases ledger.taken t hpopped with hd | hc | ⟨i, hi⟩
    · exact .inl ((ledger.missed t hd).resolve_right fun ⟨i, hi⟩ => hgood i hi)
    · exact .inr ⟨hcancel (ledger.closed (ne_nil_of_mem hc)), .inr hc⟩
    · rw [h.idle hjoined i] at hi
      cases hi
  · rcases hfinished with hc | ⟨-, hempty⟩
    · exact .inr ⟨hcancel hc, .inl hqueued⟩
    · have hlen : contents.length = 0 := inv.hand.ring.count_eq.symm.trans hempty
      rw [length_eq_zero_iff.mp hlen] at hqueued
      exact absurd hqueued not_mem_nil

/-- **The accounting of a thread pool.** In every state that any interleaving reaches: an accepted task is in
    one place, and was executed and destroyed at most once, by a worker; what a shutdown that returned OK leaves
    is what its mode says; and a destruction succeeds only when every worker created was joined. -/
theorem pool_accounts (run : PoolRun s) :
    ∃ contents, s.tasks.queue.ring.Holds contents ∧
      (∀ t ∈ s.tasks.pushed, s.executed.count t ≤ 1 ∧ Whereabouts s contents t) ∧
      (s.pool.joinedCount = s.pool.createdCount → ∀ t ∈ s.tasks.pushed,
        s.destroyed.count t = 1 ∨ t ∈ contents ∨ t ∈ s.cancelled) ∧
      (∀ mode report before, .shutdown mode .ok report before ∈ s.returns →
        s.pool.executionEnabled = true ∧ s.pool.joinedCount = s.pool.createdCount ∧
        s.tasks.queue.state = mode ∧
        (before = 0 ∨ (∀ i < s.pool.workerCount, (s.pool.workers i).workerResult = .ok) →
          ∀ i, s.phase i ≠ .broken) ∧
        ((∀ i, s.phase i ≠ .broken) →
          (mode = .drain → ∀ t ∈ s.tasks.pushed, t ∈ s.executed) ∧
          (mode = .cancelPending → ∀ t ∈ s.tasks.pushed, t ∈ s.executed ∨ t ∈ contents ∨ t ∈ s.cancelled))) ∧
      s.pool.joinedCount ≤ s.pool.createdCount ∧ s.pool.createdCount ≤ s.pool.workerCount ∧
      (∀ condition mutex, (s.pool.destroy condition mutex).1 = .ok →
        s.pool.joinedCount = s.pool.createdCount ∧
        ∀ i, (s.pool.workers i).threadCreated = true → (s.phase i).Over) := by
  have h := poolInv_of_run run
  obtain ⟨contents, inv⟩ := taskInv_of_run h.tasks
  refine ⟨contents, inv.hand.ring, fun t ht => ⟨?_, h.whereabouts inv ht⟩, fun hall t ht => ?_,
    fun mode report before hr => ?_, h.census.joined_le, h.census.bound, fun condition mutex hok => ?_⟩
  · exact nodup_iff_count_le_one.mp h.account.ledger.executedOnce t
  · cases h.whereabouts inv ht with
    | queued here idle unrun intact kept => exact .inr (.inl here)
    | held here out intact kept =>
      obtain ⟨i, hi, -⟩ := here
      rw [h.idle hall i] at hi
      cases hi
    | destroyed once out idle kept => exact .inl once
    | handedBack once out idle unrun intact =>
      exact .inr (.inr (count_pos_iff.mp (by rw [once]; exact Nat.one_pos)))
  · have hdown := h.stance.returns mode report before hr
    refine ⟨hdown.shutting.enabled, hdown.joinedCount h.census, hdown.shutting.state, fun hfine i hi => ?_,
      fun hgood => ⟨fun hmode t ht => ?_, fun hmode t ht => ?_⟩⟩
    · have hlt : i < s.pool.createdCount := Nat.lt_of_not_le fun hle => by
        rw [(h.census.unborn i).mpr hle] at hi
        cases hi
      refine h.account.ends.failed i (.inr hi) ?_
      rcases hfine with hzero | hfine
      · exact hdown.fine hzero i hlt
      · exact hfine i (hlt.trans_le h.census.bound)
    · refine (h.shutDown inv hdown hgood ht).resolve_right fun hc => ?_
      rw [hmode] at hc
      cases hc.1
    · exact (h.shutDown inv hdown hgood ht).imp id fun hc => hc.2
  · have hall : s.pool.joinedCount = s.pool.createdCount := by
      unfold ThreadPool.destroy at hok
      split at hok
      · cases hok
      · rename_i hne
        exact not_not.mp hne
    refine ⟨hall, fun i hi => h.census.gone i ?_⟩
    exact joinedAmong_eq (h.census.count.symm.trans hall) ((h.census.created i).mp hi)

end Runs

/-! ## 8. Two runs -/

/-- One worker is started, enabled, and given task 7 by caller 0. -/
def opening : List (PoolEvent Nat Nat) :=
  [.caller 0 (.prepareWait 0), .manager (.configure ⟨0, 0, 0⟩), .manager (.start ⟨0, 0, 0⟩ 0 0),
    .manager (.create 0), .manager (.create 0), .worker 0 (.enter 0 0 0),
    .manager (.enableCheck ⟨0, 0, 0⟩), .manager (.enable ⟨0, 0, 0⟩), .worker 0 (.unpark 0 0),
    .caller 0 (.supply 7), .caller 0 .trySubmit, .caller 0 (.push ⟨0, 0, 0⟩)]

/-- The worker runs the task while the pool is shut down. -/
def draining : List (PoolEvent Nat Nat) :=
  [.worker 0 (.waitPop ⟨0, 0, 0⟩), .manager (.shutdown .drain ⟨0, 0, 0⟩), .worker 0 (.execute .ok),
    .manager (.stopAndJoin ⟨0, 0, 0⟩), .worker 0 .destroyTask, .manager (.stop ⟨0, 0, 0⟩),
    .worker 0 (.waitPop ⟨0, 0, 0⟩), .manager (.join 0), .manager (.join 0)]

/-- The worker cannot lock the queue and returns; the shutdown that joins it reports that, and is made
    a second time. -/
def losing : List (PoolEvent Nat Nat) :=
  [.worker 0 (.waitPop ⟨22, 0, 0⟩), .worker 0 .destroyTask, .manager (.shutdown .drain ⟨0, 0, 0⟩),
    .manager (.stopAndJoin ⟨0, 0, 0⟩), .manager (.stop ⟨0, 0, 0⟩), .manager (.join 0),
    .manager (.join 0), .manager (.shutdown .drain ⟨0, 0, 0⟩), .manager (.stopAndJoin ⟨0, 0, 0⟩),
    .manager (.stop ⟨0, 0, 0⟩)]

/-- A pool of one worker over a queue of four. -/
def smallPool : PoolSystem Nat Nat := .begin (.fresh 1 4096 352) (.fresh 4 4096 336)

theorem smallPool_run (l : List (PoolEvent Nat Nat)) : PoolRun (l.foldl (·.exec ·) smallPool) := by
  have hpool : ThreadPool.create 1 4096 true = .ok (.fresh 1 4096 352) := rfl
  have hqueue : (TaskQueue.create 4 4096 true 0 : Except Result (TaskQueue Nat)) =
    .ok (.fresh 4 4096 336) := rfl
  exact (PoolRun.create hpool hqueue).steps l

/-- A task taken before the shutdown and run during it. -/
theorem pool_accounts_sample :
    ((opening ++ draining).foldl (·.exec ·) smallPool).tasks.pushed = [7] ∧
      7 ∈ ((opening ++ draining).foldl (·.exec ·) smallPool).executed := by
  obtain ⟨contents, -, -, -, hshut, -⟩ := pool_accounts (smallPool_run (opening ++ draining))
  have hreturn : (.shutdown .drain .ok ⟨.none, true, ⟨.none, true, 0⟩, true,
      ⟨.none, 0, true, true, 1, 1, .ok, .none, 0, true, .zero⟩⟩ 0) ∈
        ((opening ++ draining).foldl (·.exec ·) smallPool).returns := by decide
  obtain ⟨-, -, -, hgood, hall⟩ := hshut _ _ _ hreturn
  exact ⟨rfl, (hall (hgood (.inl rfl))).1 rfl 7 (mem_singleton.mpr rfl)⟩

/-- A shutdown in DRAIN mode has returned OK with task 7 accepted and not executed: the second call does not
    report what the first did. -/
theorem drained_without_execution :
    ∃ s : PoolSystem Nat Nat, PoolRun s ∧
      (∃ report before, .shutdown .drain .ok report before ∈ s.returns) ∧
      s.pool.executionEnabled = true ∧ 7 ∈ s.tasks.pushed ∧ 7 ∉ s.executed := by
  refine ⟨(opening ++ losing).foldl (·.exec ·) smallPool, smallPool_run _,
    ⟨⟨.none, true, ⟨.none, false, 0⟩, true, ⟨.none, 0, true, true, 1, 1, .ok, .none, 0, true, .zero⟩⟩, 1,
      ?_⟩, rfl, ?_, ?_⟩ <;> decide

end Vireo.Thread
