/-
  File:      Vireo/Service/FailureAudit.lean
  Subject:   THE QUEUE OF FAILED AUTHENTICATIONS (`src/service/auth_failure_audit.c`): a ring between two
             token buckets.

  The counters are changed under the lock, apart from that of the contention. Null arguments do not exist
  here; `errno` is restored by every entry and is left out, and so is the hook of the tests.
-/
import Vireo.Base.Result
import Mathlib.Logic.Function.Basic

namespace Vireo.Service

/-! ## 1. Events -/

/-- `vireo_auth_failure_event_t`. -/
structure FailureEvent where
  requestId : Vector UInt8 16
  occurredAtMs : UInt64
  latencyUs : UInt64
  action : UInt16
  status : UInt16
  origin : UInt8
deriving DecidableEq

/-- A slot that was cleared. -/
def FailureEvent.zero : FailureEvent := ⟨Vector.replicate 16 0, 0, 0, 0, 0, 0⟩

/-- `valid_event`. -/
def FailureEvent.valid (e : FailureEvent) : Bool :=
  if e.action < 1 ∨ e.action > 4 ∨ (e.origin ≠ 1 ∧ e.origin ≠ 2) then false
  else
    let bits := e.requestId.toList.foldl (· ||| ·) 0
    if (e.origin = 1 ∧ bits ≠ 0) ∨ (e.origin = 2 ∧ bits = 0) then false
    else decide (e.status ∈ [1001, 1008, 1104, 1105, 1106, 1901, 1902, 1906, 1907, 1908])

/-! ## 2. Buckets -/

/-- `vireo_auth_failure_bucket_t`. -/
structure FailureBucket where
  tokens : UInt64
  remainder : UInt64
  last : UInt64
deriving DecidableEq

/-- `vireo_auth_failure_bucket_refill`. -/
def FailureBucket.refill (b : FailureBucket) (now burst interval : UInt64) : FailureBucket :=
  let now := if now < b.last then b.last else now
  let delta := now - b.last
  let tail := b.remainder + delta % interval
  let whole := delta / interval + tail / interval
  if whole ≥ burst - b.tokens then ⟨burst, 0, now⟩ else ⟨b.tokens + whole, tail % interval, now⟩

/-- A token is taken. -/
def FailureBucket.charge (b : FailureBucket) : FailureBucket := { b with tokens := b.tokens - 1 }

/-! ## 3. The queue -/

/-- `vireo_auth_failure_audit_options_t`. -/
structure AuditOptions where
  capacity : Nat
  maxMemoryBytes : Nat
  burst : UInt64
  refillNs : UInt64
deriving DecidableEq

/-- The counters of `enum counter`. -/
structure AuditCounters where
  queued : UInt64
  taken : UInt64
  rate : UInt64
  full : UInt64
  contention : UInt64
  closed : UInt64
  disabled : UInt64
  discarded : UInt64

/-- `struct vireo_auth_failure_audit`; `slots i` is meaningful for `i < capacity`. -/
structure FailureAudit where
  options : AuditOptions
  head : Nat
  depth : Nat
  closed : Bool
  disabled : Bool
  offer : FailureBucket
  take : FailureBucket
  counters : AuditCounters
  slots : Nat → FailureEvent

/-- `vireo_auth_failure_disposition_t`. -/
inductive AuditDisposition where
  | queued
  | dropRate
  | dropFull
  | dropContention
  | dropClosed
  | dropDisabled
deriving DecidableEq

/-- `vireo_auth_failure_close_reason_t`. -/
inductive AuditCloseReason where
  | stop
  | disable
deriving DecidableEq

/-- What `pthread_mutex_trylock` comes to. -/
inductive TryLock where
  | locked
  | busy
  | failed

/-- What a section of a taker comes to: it returns, or it waits, up to a time where the queue is not
    empty. -/
inductive TakeOutcome where
  | returned (result : Result)
  | taken (event : FailureEvent)
  | waits
  | waitsUntil (time : UInt64)
deriving DecidableEq

namespace FailureAudit

/-- `sizeof(vireo_auth_failure_audit_t)` and `sizeof(vireo_auth_failure_event_t)` on LP64 with glibc. -/
def controlBytes : Nat := 272
def eventBytes : Nat := 40

/-- `vireo_auth_failure_audit_create`; `memory` and `sync` say whether the block was allocated and the
    synchronisation came to be. -/
def create (o : AuditOptions) (now : UInt64) (memory sync : Bool) : Except Result FailureAudit :=
  if o.capacity = 0 ∨ o.capacity > 1024 ∨ o.maxMemoryBytes = 0 ∨ o.maxMemoryBytes > 1048576 ∨ o.burst = 0 ∨
      o.burst > 256 ∨ o.refillNs = 0 ∨ o.refillNs > 60000000000 then .error .range
  else if controlBytes + o.capacity * eventBytes > o.maxMemoryBytes then .error .range
  else if memory = false then .error .noMemory
  else if sync = false then .error .internal
  else
    .ok {
      options := o
      head := 0
      depth := 0
      closed := false
      disabled := false
      offer := ⟨o.burst, 0, now⟩
      take := ⟨o.burst, 0, now⟩
      counters := ⟨0, 0, 0, 0, 0, 0, 0, 0⟩
      slots := fun _ => .zero }

variable (q : FailureAudit)

/-- The section of `vireo_auth_failure_audit_try_offer`, with the lock. -/
def offerSection (e : FailureEvent) (now : UInt64) : AuditDisposition × FailureAudit :=
  if q.disabled then
    (.dropDisabled, { q with counters := { q.counters with disabled := q.counters.disabled + 1 } })
  else if q.closed then
    (.dropClosed, { q with counters := { q.counters with closed := q.counters.closed + 1 } })
  else
    let q := { q with offer := q.offer.refill now q.options.burst q.options.refillNs }
    if q.offer.tokens = 0 then
      (.dropRate, { q with counters := { q.counters with rate := q.counters.rate + 1 } })
    else if q.depth = q.options.capacity then
      (.dropFull, { q with counters := { q.counters with full := q.counters.full + 1 } })
    else
      (.queued, { q with
        slots := Function.update q.slots ((q.head + q.depth) % q.options.capacity) e
        depth := q.depth + 1
        offer := q.offer.charge
        counters := { q.counters with queued := q.counters.queued + 1 } })

/-- `vireo_auth_failure_audit_try_offer`. -/
def tryOffer (e : FailureEvent) (now : UInt64) (lock : TryLock) :
    Except Result AuditDisposition × FailureAudit :=
  if e.valid = false then (.error .invalidArgument, q)
  else
    match lock with
    | .busy =>
      (.ok .dropContention, { q with counters := { q.counters with contention := q.counters.contention + 1 } })
    | .failed => (.error .internal, q)
    | .locked =>
      let offered := q.offerSection e now
      (.ok offered.1, offered.2)

/-- A section of `vireo_auth_failure_audit_wait_take`, from the lock to its release; `clock` is the sample of
    the monotonic clock. -/
def takeSection (clock : Except Failure UInt64) : TakeOutcome × FailureAudit :=
  if q.closed then (.returned .notFound, q)
  else
    match clock with
    | .error e => (.returned e.val, q)
    | .ok now =>
      let q := { q with take := q.take.refill now q.options.burst q.options.refillNs }
      if q.depth ≠ 0 ∧ q.take.tokens ≠ 0 then
        (.taken (q.slots q.head), { q with
          slots := Function.update q.slots q.head .zero
          head := (q.head + 1) % q.options.capacity
          depth := q.depth - 1
          take := q.take.charge
          counters := { q.counters with taken := q.counters.taken + 1 } })
      else if q.depth = 0 then (.waits, q)
      else
        let add := q.options.refillNs - q.take.remainder
        if q.take.last > u64Max - add then (.returned .overflow, q) else (.waitsUntil (q.take.last + add), q)

/-- `vireo_auth_failure_audit_close`. -/
def close (why : AuditCloseReason) : FailureAudit :=
  { q with
    closed := true
    disabled := q.disabled || why == .disable
    counters := { q.counters with discarded := q.counters.discarded + UInt64.ofNat q.depth }
    slots := fun _ => .zero
    depth := 0 }

end FailureAudit

/-! ## 4. Runs -/

/-- What happens to a queue: an offer, a taker that has the lock, a close; a lock or a wait that fails changes
    nothing. -/
inductive AuditCall where
  | offer (event : FailureEvent) (now : UInt64) (lock : TryLock)
  | take (clock : Except Failure UInt64)
  | close (why : AuditCloseReason)

/-- What a call says, with the sample of the clock that it read. -/
inductive AuditReport where
  | offered (event : FailureEvent) (now : UInt64) (answer : Except Result AuditDisposition)
  | took (now : Option UInt64) (outcome : TakeOutcome)
  | closed

namespace AuditReport

/-- The event that an offer reported as queued. -/
def queued : AuditReport → Option FailureEvent
  | .offered event _ (.ok .queued) => some event
  | _ => none

/-- The event that a taker was given. -/
def taken : AuditReport → Option FailureEvent
  | .took _ (.taken event) => some event
  | _ => none

/-- The sample that an offer asked its bucket with, and whether it was queued. -/
def offerSample : AuditReport → Option (UInt64 × Bool)
  | .offered _ now (.ok .queued) => some (now, true)
  | .offered _ now (.ok .dropRate) => some (now, false)
  | .offered _ now (.ok .dropFull) => some (now, false)
  | _ => none

/-- The sample that a taker asked its bucket with, and whether it was given an event. -/
def takeSample : AuditReport → Option (UInt64 × Bool)
  | .took (some now) (.taken _) => some (now, true)
  | .took (some now) _ => some (now, false)
  | _ => none

end AuditReport

namespace FailureAudit

/-- One call. -/
def exec (q : FailureAudit) : AuditCall → AuditReport × FailureAudit
  | .offer event now lock =>
    let offered := q.tryOffer event now lock
    (.offered event now offered.1, offered.2)
  | .take clock =>
    let took := q.takeSection clock
    (.took (if q.closed then none else clock.toOption) took.1, took.2)
  | .close why => (.closed, q.close why)

/-- The queue behind the calls. -/
def run (q : FailureAudit) (calls : List AuditCall) : FailureAudit := calls.foldl (fun q c => (q.exec c).2) q

/-- What the calls say, in their order. -/
def reports (q : FailureAudit) : List AuditCall → List AuditReport
  | [] => []
  | c :: calls => (q.exec c).1 :: reports (q.exec c).2 calls

end FailureAudit

end Vireo.Service
