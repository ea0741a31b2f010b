/-
  File:      Vireo/Persistence/Pool.lean
  Subject:   THE CONNECTION POOL (`src/persistence/mysql_pool.c`): its critical sections.

  Every function below is the code between one lock and the next unlock (or condition wait) of a
  pool call, as a function of the pool. The calls that talk to the database while the pool is
  unlocked (release, refill, destroy) are cut at those places; `PoolRun.lean` puts the pieces
  together for any number of threads.

  The pthread calls and the clock are taken to succeed. Connections are numbers, threads an
  arbitrary type. What a caller must pass as valid (addresses, the thread guard of the pool's
  runtime) is a flag of the call where the code tests it. The diagnostic record (`stage` and native
  codes) of a failed call is not part of the pool's state and is left out.
-/
import Vireo.Base.Result
import Mathlib.Data.Finset.Card
import Mathlib.Data.Finset.Range

namespace Vireo.Persistence

/-- `vireo_mysql_slot_state_t`. -/
inductive SlotState where
  | idle
  | leased
  | returning
  | vacant
  | refilling
  | retired
deriving DecidableEq

/-- `vireo_mysql_pool_state_t`. -/
inductive PoolState where
  | opened
  | closed
deriving DecidableEq

/-- `vireo_mysql_pool_disposition_t`. -/
inductive Disposition where
  | recycle
  | discard
deriving DecidableEq

/-- `vireo_mysql_pool_slot_t`. -/
structure PoolSlot (T : Type*) where
  state : SlotState
  generation : UInt64
  borrower : Option T
  connection : Option Nat

/-- `vireo_mysql_lease_t` of a non-empty token; the caller's token is an `Option Lease`, with
    `none` for the all-zero one. -/
structure Lease where
  owner : Nat
  slot : Nat
  generation : UInt64
deriving DecidableEq

/-- `struct vireo_mysql_pool`; `slots i` is meaningful for `i < capacity`. -/
structure Pool (T : Type*) where
  id : Nat
  capacity : Nat
  maxWaiters : Nat
  slots : Nat → PoolSlot T
  waiters : Nat
  leased : Nat
  highWatermark : Nat
  state : PoolState
  destroying : Bool

/-- `struct timespec`. -/
structure Timespec where
  sec : Int
  nsec : Int
deriving DecidableEq

/-- `expired`. -/
def Timespec.expired (time deadline : Timespec) : Bool :=
  decide (time.sec > deadline.sec) ||
    (decide (time.sec = deadline.sec) && decide (time.nsec ≥ deadline.nsec))

/-- The absolute deadline of a wait, refused when `time_t` cannot hold it. -/
def Timespec.deadlineAfter (now : Timespec) (timeoutMs : Nat) : Option Timespec :=
  if now.sec < 0 ∨ now.sec > 2 ^ 63 - 1 - ((timeoutMs / 1000 : Nat) + 1) then none
  else
    let sec := now.sec + (timeoutMs / 1000 : Nat)
    let nsec := now.nsec + (timeoutMs % 1000 : Nat) * 1000000
    if nsec ≥ 1000000000 then some ⟨sec + 1, nsec - 1000000000⟩ else some ⟨sec, nsec⟩

namespace Pool

variable {T : Type*} [DecidableEq T]

/-- `VIREO_MYSQL_POOL_WAIT_MS_MAX`. -/
def waitMsMax : Nat := 60000

variable (p : Pool T)

def setSlot (i : Nat) (slot : PoolSlot T) : Pool T :=
  { p with slots := Function.update p.slots i slot }

/-- The pool `vireo_mysql_pool_create` publishes, holding the connections `0 .. capacity - 1`. -/
def created (id capacity maxWaiters : Nat) : Pool T where
  id := id
  capacity := capacity
  maxWaiters := maxWaiters
  slots i :=
    if i < capacity then ⟨.idle, 0, none, some i⟩ else ⟨.vacant, 0, none, none⟩
  waiters := 0
  leased := 0
  highWatermark := 0
  state := .opened
  destroying := false

/-- The opening loop of `vireo_mysql_pool_create`; after a failure those opened so far are disposed, the last
    first. -/
def create (id capacity maxWaiters : Nat) (opens : Nat → Bool) : Except (List Nat) (Pool T) :=
  match (List.range capacity).find? fun i => !opens i with
  | none => .ok (created id capacity maxWaiters)
  | some failed => .error (List.range failed).reverse

/-! ## 1. Acquire -/

/-- The first idle slot. -/
def firstIdle : Option Nat :=
  (List.range p.capacity).find? fun i => (p.slots i).state = .idle

/-- The number of retired slots. -/
def retiredCount : Nat :=
  (List.range p.capacity).countP fun i => (p.slots i).state = .retired

/-- Lease the idle slot `i` to the calling thread. -/
def grant (t : T) (i : Nat) : Pool T :=
  let slot := p.slots i
  let leased := p.leased + 1
  { p.setSlot i { slot with
      generation := slot.generation + 1, state := .leased, borrower := some t } with
    leased := leased
    highWatermark := if leased > p.highWatermark then leased else p.highWatermark }

/-- How one turn of the acquire loop ends: the call returns, or the thread waits. -/
inductive Turn where
  | finish (result : Result) (lease : Option Lease)
  | sleep (deadline : Timespec)
deriving DecidableEq

/-- One turn of the loop of `vireo_mysql_pool_acquire`: from the lock, or a wake-up with its deadline, to the
    return or the next wait. -/
def acquireTurn (t : T) (timeoutMs : Nat) (deadline : Option Timespec) (clock : Timespec) : Turn × Pool T :=
  let left := if deadline.isSome then { p with waiters := p.waiters - 1 } else p
  if p.state = .closed then (.finish .cancelled none, left)
  else if deadline.any (Timespec.expired clock) then (.finish .timeout none, left)
  else
    match p.firstIdle with
    | some i =>
      (.finish .ok (some ⟨p.id, i, (p.slots i).generation + 1⟩), left.grant t i)
    | none =>
      if p.retiredCount = p.capacity then (.finish .overflow none, left)
      else
        match deadline with
        | some d => (.sleep d, p)
        | none =>
          if timeoutMs = 0 ∨ p.waiters = p.maxWaiters then (.finish .busy none, p)
          else
            match clock.deadlineAfter timeoutMs with
            | none => (.finish .io none, p)
            | some d => (.sleep d, { p with waiters := p.waiters + 1 })

/-- The entry of `vireo_mysql_pool_acquire` with its argument checks. -/
def acquire (t : T) (guard outEmpty : Bool) (timeoutMs : Nat) (clock : Timespec) :
    Turn × Pool T :=
  if outEmpty = false ∨ guard = false then (.finish .invalidArgument none, p)
  else if timeoutMs > waitMsMax then (.finish .range none, p)
  else p.acquireTurn t timeoutMs none clock

/-! ## 2. Identity, borrow, release -/

/-- `identity`: shape, then state and generation, then the thread. -/
def identity (t : T) (guard : Bool) (l : Lease) : Result :=
  if l.owner ≠ p.id ∨ l.generation = 0 ∨ l.slot ≥ p.capacity then .invalidArgument
  else if (p.slots l.slot).state ≠ .leased ∨ (p.slots l.slot).generation ≠ l.generation then
    .notFound
  else if guard = false ∨ (p.slots l.slot).borrower ≠ some t then .invalidArgument
  else .ok

/-- `vireo_mysql_pool_borrow`. -/
def borrow (t : T) (guard : Bool) (l : Lease) : Except Result (Option Nat) :=
  if p.destroying then .error .cancelled
  else
    match p.identity t guard l with
    | .ok => .ok (p.slots l.slot).connection
    | e => .error e

/-- What a thread takes along from the first section of a release: the slot, its connection, whether it will
    try to restore it. -/
structure Return where
  slot : Nat
  connection : Option Nat
  recycle : Bool
deriving DecidableEq

/-- The first section of `vireo_mysql_pool_release`: the lease is consumed, the slot becomes RETURNING. -/
def release (t : T) (guard : Bool) (lease : Option Lease) (disposition : Disposition) (statements : Nat)
    (unusable : Bool) :
    Except Result (Option Return) × Pool T :=
  match lease with
  | none => (.ok none, p)
  | some l =>
    match p.identity t guard l with
    | .ok =>
      if statements ≠ 0 then (.error .busy, p)
      else
        let slot := p.slots l.slot
        let recycle := disposition = .recycle ∧ unusable = false ∧ p.state = .opened ∧ slot.generation ≠ u64Max
        (.ok (some ⟨l.slot, slot.connection, recycle⟩),
          { p.setSlot l.slot { slot with state := .returning } with leased := p.leased - 1 })
    | e => (.error e, p)

/-- The last section of a release; `none` tells the thread to dispose the connection first. -/
def publishReturn (i : Nat) (connection : Option Nat) : Option (Pool T) :=
  if connection.isSome ∧ p.state = .closed then none
  else
    let slot := p.slots i
    some (p.setSlot i { slot with
      connection := connection
      state := if connection.isSome then .idle
        else if slot.generation = u64Max then .retired else .vacant })

/-! ## 3. Refill, close, destroy -/

/-- The first critical section of `vireo_mysql_pool_refill`: reserve a vacant slot. -/
def refill (guard : Bool) : Except Result Nat × Pool T :=
  if guard = false then (.error .invalidArgument, p)
  else if p.state = .closed then (.error .cancelled, p)
  else
    match (List.range p.capacity).find? fun i => (p.slots i).state = .vacant with
    | none => (.error .busy, p)
    | some i => (.ok i, p.setSlot i { p.slots i with state := .refilling })

/-- The last section of a refill; a connection for a pool that was closed meanwhile is disposed first. -/
def publishRefill (i : Nat) (connection : Option Nat) : Option (Pool T) :=
  if connection.isSome ∧ p.state = .closed then none
  else
    let slot := p.slots i
    some (p.setSlot i { slot with
      connection := connection
      state := if connection.isSome then .idle else .vacant })

/-- `vireo_mysql_pool_close`. -/
def close : Pool T := { p with state := .closed }

/-- The test of `vireo_mysql_pool_destroy`. -/
def busy : Bool :=
  decide (p.state ≠ .closed) || decide (p.waiters ≠ 0) ||
    (List.range p.capacity).any fun i =>
      (p.slots i).state = .leased ∨ (p.slots i).state = .returning ∨ (p.slots i).state = .refilling

/-- The critical section of `vireo_mysql_pool_destroy`. -/
def destroy : Result × Pool T :=
  if p.busy then (.busy, p) else (.ok, { p with destroying := true })

/-- One turn of the dispose loop of `vireo_mysql_pool_destroy`. -/
def clearSlot (i : Nat) : Pool T :=
  p.setSlot i { p.slots i with connection := none }

/-- The number of LEASED slots. -/
def leasedSlots : Nat :=
  ((Finset.range p.capacity).filter fun i => (p.slots i).state = .leased).card

end Pool

end Vireo.Persistence
