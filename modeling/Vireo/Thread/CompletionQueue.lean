/-
  File:      Vireo/Thread/CompletionQueue.lean
  Subject:   THE COMPLETION QUEUE (`src/thread/completion_queue.c`): producers that may wait for room,
             one consumer, one way to close.

  Modelled as the task queue is: a call is its critical section with the pthread codes passed in.
  Here it is the producer that waits, with its completion in hand, and the pop that signals.
-/
import Vireo.Thread.TaskQueue

namespace Vireo.Thread

open Vireo.Lib

/-- `struct vireo_completion_queue` without its operation tables; the completions are opaque. -/
structure CompletionQueue (τ : Type) where
  ring : RingBuffer τ
  highWatermark : Nat
  fullRejections : UInt64
  closedRejections : UInt64
  rejectionCountSaturated : Bool
  allocatedBytes : UInt64
  maxMemoryBytes : UInt64
  closed : Bool
  waitPrepared : Bool
  retiring : Bool

namespace CompletionQueue

variable {τ : Type}

/-- `VIREO_COMPLETION_QUEUE_MAX_CAPACITY`. -/
def maxCapacity : UInt64 := 65536

/-- `VIREO_COMPLETION_QUEUE_MAX_ALLOCATION_BYTES`. -/
def maxAllocationBytes : UInt64 := 67108864

/-- `sizeof(vireo_completion_queue_t)` on LP64. -/
def controlBytes : UInt64 := 296

/-- The queue that `create_with_ops` publishes. -/
def fresh (capacity budget bytes : UInt64) : CompletionQueue τ where
  ring := .empty capacity.toNat
  highWatermark := 0
  fullRejections := 0
  closedRejections := 0
  rejectionCountSaturated := false
  allocatedBytes := bytes
  maxMemoryBytes := budget
  closed := false
  waitPrepared := false
  retiring := false

/-- `vireo_completion_queue_create_with_ops`; `memory` says whether the block was allocated and
    `init` is the code of the mutex initialisation. -/
def create (capacity budget : UInt64) (memory : Bool) (init : Nat) :
    Except Result (CompletionQueue τ) :=
  if capacity = 0 ∨ budget = 0 then .error .invalidArgument
  else
    match checkedU64Mul capacity 8 with
    | .error e => .error e
    | .ok slotBytes =>
      match checkedU64Add controlBytes slotBytes with
      | .error e => .error e
      | .ok allocatedBytes =>
        if capacity > maxCapacity ∨ budget > maxAllocationBytes ∨ allocatedBytes > budget then
          .error .range
        else if memory = false then .error .noMemory
        else if init ≠ 0 then .error (if init = enomem then .noMemory else .internal)
        else .ok (fresh capacity budget allocatedBytes)

/-! ## 1. Transfers -/

variable (q : CompletionQueue τ)

/-- A push that a closed queue refuses. -/
def rejectClosed : CompletionQueue τ :=
  let (count, saturated) := countRejection q.closedRejections q.rejectionCountSaturated
  { q with closedRejections := count, rejectionCountSaturated := saturated }

/-- A push that a full queue refuses. -/
def rejectFull : CompletionQueue τ :=
  let (count, saturated) := countRejection q.fullRejections q.rejectionCountSaturated
  { q with fullRejections := count, rejectionCountSaturated := saturated }

/-- A completion goes to the tail, and the high watermark with it. -/
def accept (t : τ) : CompletionQueue τ :=
  let ring := q.ring.put t
  { q with
    ring := ring
    highWatermark := if ring.count > q.highWatermark then ring.count else q.highWatermark }

/-- The push part of the section of `transfer`. -/
def pushSection (t : τ) :
    Result × Bool × Option τ × CompletionQueue τ :=
  let rejected :=
    if q.closed then q.rejectClosed
    else if q.ring.count = q.ring.capacity then q.rejectFull
    else q
  if q.closed = false ∧ q.ring.count < q.ring.capacity then (.ok, true, none, rejected.accept t)
  else (if q.closed then .cancelled else .busy, false, some t, rejected)

/-- `transfer` with `pushing`. -/
def tryPush (owner : Option τ) (codes : SyncCodes) :
    Exchange τ (CompletionQueue τ) :=
  match owner with
  | none => ⟨.notFound, ⟨.none, false, 0⟩, none, q⟩
  | some t =>
    if q.retiring then ⟨.cancelled, ⟨.none, false, 0⟩, some t, q⟩
    else if codes.lock ≠ 0 then
      ⟨if codes.lock = ebusy then .busy else .internal, ⟨.lock, false, codes.lock⟩, some t, q⟩
    else
      let (result, transferred, owner', q') := q.pushSection t
      let (result, report) := reportUnlock result ⟨.none, transferred, 0⟩ codes.unlock
      ⟨result, report, owner', q'⟩

/-- `transfer` without `pushing`: a pop that took something signals one waiting producer. -/
def tryPop (owner : Option τ) (codes : SyncCodes) :
    Exchange τ (CompletionQueue τ) :=
  match owner with
  | some t => ⟨.invalidArgument, ⟨.none, false, 0⟩, some t, q⟩
  | none =>
    if q.retiring then ⟨.cancelled, ⟨.none, false, 0⟩, none, q⟩
    else if codes.lock ≠ 0 then
      ⟨if codes.lock = ebusy then .busy else .internal, ⟨.lock, false, codes.lock⟩, none, q⟩
    else if q.ring.count = 0 then
      let (result, report) := reportUnlock (if q.closed then .cancelled else .notFound)
        ⟨.none, false, 0⟩ codes.unlock
      ⟨result, report, none, q⟩
    else
      let (result, report) : Result × TransferReport :=
        if q.waitPrepared ∧ codes.signal ≠ 0 then (.internal, ⟨.wake, true, codes.signal⟩)
        else (.ok, ⟨.none, true, 0⟩)
      let (result, report) := reportUnlock result report codes.unlock
      ⟨result, report, q.ring.slots q.ring.head, { q with ring := q.ring.drop }⟩

/-! ## 2. Waiting for room -/

/-- The end of `wait_push`, from the mutex held to the return. -/
def waitPushFinish (t : τ) (unlock : Nat) : Exchange τ (CompletionQueue τ) :=
  if q.closed then
    let (result, report) := reportUnlock .cancelled ⟨.none, false, 0⟩ unlock
    ⟨result, report, some t, q.rejectClosed⟩
  else
    let (result, report) := reportUnlock .ok ⟨.none, true, 0⟩ unlock
    ⟨result, report, none, q.accept t⟩

/-- The loop test of `wait_push` with the mutex held. -/
def waitPushTest (t : τ) (unlock : Nat) :
    WaitOutcome τ (CompletionQueue τ) :=
  if q.ring.count = q.ring.capacity ∧ q.closed = false then .blocked
  else .returned (q.waitPushFinish t unlock)

/-- `vireo_completion_queue_wait_push` up to its first wait. -/
def waitPush (owner : Option τ) (codes : SyncCodes) :
    WaitOutcome τ (CompletionQueue τ) :=
  match owner with
  | none => .returned ⟨.notFound, ⟨.none, false, 0⟩, none, q⟩
  | some t =>
    if q.retiring then .returned ⟨.cancelled, ⟨.none, false, 0⟩, some t, q⟩
    else if q.waitPrepared = false then .returned ⟨.notFound, ⟨.none, false, 0⟩, some t, q⟩
    else if codes.lock ≠ 0 then .returned ⟨.internal, ⟨.lock, false, codes.lock⟩, some t, q⟩
    else q.waitPushTest t codes.unlock

/-- `wait_push` after a wait: a failed wait ends the call, else the test is made again. -/
def waitPushWake (t : τ) (wait unlock : Nat) :
    WaitOutcome τ (CompletionQueue τ) :=
  if wait ≠ 0 then
    let (result, report) := reportUnlock .internal ⟨.wait, false, wait⟩ unlock
    .returned ⟨result, report, some t, q⟩
  else q.waitPushTest t unlock

/-! ## 3. Closing -/

/-- `vireo_completion_queue_close`; the signal code is that of the broadcast. -/
def close (codes : SyncCodes) : Result × CloseReport × CompletionQueue τ :=
  if q.retiring then (.cancelled, ⟨.none, false, 0⟩, q)
  else if codes.lock ≠ 0 then
    (if codes.lock = ebusy then .busy else .internal, ⟨.lock, false, codes.lock⟩, q)
  else
    let changed := !q.closed
    let q' := { q with closed := true }
    let (result, report) : Result × CloseReport :=
      if q.waitPrepared ∧ codes.signal ≠ 0 then (.internal, ⟨.wake, changed, codes.signal⟩)
      else (.ok, ⟨.none, changed, 0⟩)
    if codes.unlock ≠ 0 then (.internal, ⟨.unlock, changed, codes.unlock⟩, q')
    else (result, report, q')

/-- `vireo_completion_queue_prepare_wait_with_ops`; `init` is the code of the condition's
    initialisation. -/
def prepareWait (init : Nat) : Result × CompletionQueue τ :=
  if q.retiring then (.cancelled, q)
  else if q.ring.count ≠ 0 ∨ q.closed then (.busy, q)
  else if q.waitPrepared then (.ok, q)
  else if init ≠ 0 then (if init = enomem then .noMemory else .internal, q)
  else (.ok, { q with waitPrepared := true })

/-! ## 4. What a section does to the ring -/

/-- The flags that a transfer only reads. -/
structure SameMode (q q' : CompletionQueue τ) : Prop where
  closed : q'.closed = q.closed
  waitPrepared : q'.waitPrepared = q.waitPrepared
  retiring : q'.retiring = q.retiring

theorem SameMode.refl : SameMode q q := ⟨rfl, rfl, rfl⟩

/-- A push has moved the caller's completion to the end of the ring of an open queue, if it says so, or nothing. -/
inductive Pushed (q : CompletionQueue τ) (owner : Option τ) (x : Exchange τ (CompletionQueue τ)) :
    Prop
  | moved (t : τ) (told : x.report.transferred = true) (had : owner = some t)
      (gave : x.owner = none) (ring : x.queue.ring = q.ring.put t) (opened : q.closed = false)
      (room : q.ring.count ≠ q.ring.capacity)
  | kept (told : x.report.transferred = false) (owner : x.owner = owner)
      (ring : x.queue.ring = q.ring)

/-- A pop has moved the first completion of the ring to the caller, if it says so, or nothing. -/
inductive Popped (q : CompletionQueue τ) (owner : Option τ) (x : Exchange τ (CompletionQueue τ)) :
    Prop
  | moved (told : x.report.transferred = true) (had : owner = none)
      (got : x.owner = q.ring.slots q.ring.head) (ring : x.queue.ring = q.ring.drop)
      (full : q.ring.count ≠ 0)
  | kept (told : x.report.transferred = false) (owner : x.owner = owner)
      (ring : x.queue.ring = q.ring)

/-- What a section of `wait_push` may end in: a wait happens only in front of a full open queue. -/
def WaitPushed (owner : Option τ) :
    WaitOutcome τ (CompletionQueue τ) → Prop
  | .blocked => (∃ t, owner = some t) ∧ q.ring.count = q.ring.capacity ∧ q.closed = false
  | .returned x => Pushed q owner x ∧ SameMode q x.queue

section

variable (q : CompletionQueue τ)

theorem pushed_spec (owner : Option τ) (codes : SyncCodes) :
    Pushed q owner (q.tryPush owner codes) ∧ SameMode q (q.tryPush owner codes).queue := by
  unfold tryPush
  split
  · exact ⟨.kept rfl rfl rfl, .refl q⟩
  rename_i t
  split
  · exact ⟨.kept rfl rfl rfl, .refl q⟩
  split
  · exact ⟨.kept rfl rfl rfl, .refl q⟩
  rw [pushSection]
  by_cases hc : q.closed = true
  · rw [if_pos hc, if_neg (by simp [hc])]
    exact ⟨.kept (by simp) rfl rfl, ⟨rfl, rfl, rfl⟩⟩
  · have hc' : q.closed = false := Bool.not_eq_true _ ▸ hc
    rw [if_neg hc]
    by_cases hlt : q.ring.count < q.ring.capacity
    · have hne : q.ring.count ≠ q.ring.capacity := Nat.ne_of_lt hlt
      rw [if_neg hne, if_pos ⟨hc', hlt⟩]
      exact ⟨.moved t (by simp) rfl rfl rfl hc' hne, ⟨rfl, rfl, rfl⟩⟩
    · rw [if_neg fun h => hlt h.2]
      by_cases hfull : q.ring.count = q.ring.capacity
      · rw [if_pos hfull]
        exact ⟨.kept (by simp) rfl rfl, ⟨rfl, rfl, rfl⟩⟩
      · rw [if_neg hfull]
        exact ⟨.kept (by simp) rfl rfl, .refl q⟩

theorem waitPushTest_spec (t : τ) (unlock : Nat) : WaitPushed q (some t) (q.waitPushTest t unlock) := by
  unfold waitPushTest
  split
  · rename_i h
    exact ⟨⟨t, rfl⟩, h⟩
  · rename_i hgo
    unfold waitPushFinish
    split
    · exact ⟨.kept (by simp) rfl rfl, ⟨rfl, rfl, rfl⟩⟩
    rename_i hc
    have hc' : q.closed = false := Bool.not_eq_true _ ▸ hc
    exact ⟨.moved t (by simp) rfl rfl rfl hc' fun h => hgo ⟨h, hc'⟩, ⟨rfl, rfl, rfl⟩⟩

theorem waitPush_spec (owner : Option τ) (codes : SyncCodes) :
    WaitPushed q owner (q.waitPush owner codes) := by
  unfold waitPush
  split
  · exact ⟨.kept rfl rfl rfl, .refl q⟩
  rename_i t
  split
  · exact ⟨.kept rfl rfl rfl, .refl q⟩
  split
  · exact ⟨.kept rfl rfl rfl, .refl q⟩
  split
  · exact ⟨.kept rfl rfl rfl, .refl q⟩
  · exact waitPushTest_spec q t codes.unlock

theorem waitPushWake_spec (t : τ) (wait unlock : Nat) :
    WaitPushed q (some t) (q.waitPushWake t wait unlock) := by
  unfold waitPushWake
  split
  · exact ⟨.kept (reportUnlock_transferred ..) rfl rfl, .refl q⟩
  · exact waitPushTest_spec q t unlock

theorem popped_spec (owner : Option τ) (codes : SyncCodes) :
    Popped q owner (q.tryPop owner codes) ∧ SameMode q (q.tryPop owner codes).queue := by
  unfold tryPop
  split
  · exact ⟨.kept rfl rfl rfl, .refl q⟩
  split
  · exact ⟨.kept rfl rfl rfl, .refl q⟩
  split
  · exact ⟨.kept rfl rfl rfl, .refl q⟩
  split
  · exact ⟨.kept (reportUnlock_transferred ..) rfl rfl, .refl q⟩
  rename_i hcount
  refine ⟨.moved ?_ rfl rfl rfl hcount, ⟨rfl, rfl, rfl⟩⟩
  show (reportUnlock _ _ _).2.transferred = true
  rw [reportUnlock_transferred]
  split <;> rfl

theorem close_spec (codes : SyncCodes) :
    (q.close codes).2.2.ring = q.ring ∧ (q.close codes).2.2.waitPrepared = q.waitPrepared ∧
    (q.close codes).2.2.retiring = q.retiring ∧
    (q.closed = true → (q.close codes).2.2.closed = true) ∧
    ((q.close codes).1 = .ok ∨ (q.close codes).2.1.changed = true → (q.close codes).2.2.closed = true) := by
  unfold close
  split
  · exact ⟨rfl, rfl, rfl, id, by simp⟩
  split
  · refine ⟨rfl, rfl, rfl, id, ?_⟩
    simp only [Bool.false_eq_true, or_false]
    split <;> exact nofun
  · dsimp only
    split <;> exact ⟨rfl, rfl, rfl, fun _ => rfl, fun _ => rfl⟩

theorem prepareWait_spec (init : Nat) :
    (q.prepareWait init).2.ring = q.ring ∧ (q.prepareWait init).2.closed = q.closed ∧
      (q.prepareWait init).2.retiring = q.retiring := by
  unfold prepareWait
  split
  · exact ⟨rfl, rfl, rfl⟩
  split
  · exact ⟨rfl, rfl, rfl⟩
  split
  · exact ⟨rfl, rfl, rfl⟩
  · split <;> exact ⟨rfl, rfl, rfl⟩

end

variable {q : CompletionQueue τ} {codes : SyncCodes}

/-- **With the mutex and room, or closed, a waiting push is a push.** -/
theorem waitPush_eq {owner : Option τ} (hprep : q.waitPrepared = true) (hlock : codes.lock = 0)
    (hle : q.ring.count ≤ q.ring.capacity)
    (hroom : q.ring.count ≠ q.ring.capacity ∨ q.closed = true) :
    q.waitPush owner codes = .returned (q.tryPush owner codes) := by
  unfold waitPush tryPush
  cases owner with
  | none => rfl
  | some t =>
    by_cases hret : q.retiring = true
    · simp [hret]
    by_cases hc : q.closed = true
    · simp [hret, hprep, hlock, hc, waitPushTest, waitPushFinish, pushSection]
    have hne := hroom.resolve_right hc
    simp [hret, hprep, hlock, hc, hne, Nat.lt_of_le_of_ne hle hne, waitPushTest, waitPushFinish, pushSection]

theorem create_fresh {capacity budget : UInt64} {memory : Bool} {init : Nat} (h : create capacity budget memory init = .ok q) :
    0 < capacity.toNat ∧ ∃ bytes, q = fresh capacity budget bytes := by
  unfold create at h
  split at h
  · cases h
  rename_i hpos
  split at h
  · cases h
  split at h
  · cases h
  rename_i bytes _
  split at h
  · cases h
  split at h
  · cases h
  split at h
  · cases h
  · refine ⟨Nat.pos_of_ne_zero fun hz => hpos (.inl ?_), bytes, (Except.ok.inj h).symm⟩
    rw [← UInt64.toNat_inj, hz, UInt64.toNat_zero]

theorem tryPop_takes {t : τ} {rest : List τ}
    (hr : q.ring.Holds (t :: rest)) (halive : q.retiring = false) (hlock : codes.lock = 0) :
    (q.tryPop none codes).report.transferred = true ∧ (q.tryPop none codes).owner = some t := by
  have hcount : q.ring.count ≠ 0 := by
    rw [hr.count_eq]
    simp
  rw [tryPop]
  rw [halive, hlock, if_neg (by simp), if_neg (by simp), if_neg hcount]
  refine ⟨?_, hr.head_full⟩
  rw [reportUnlock_transferred]
  split <;> rfl

end CompletionQueue

end Vireo.Thread
