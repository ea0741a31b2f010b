/-
  File:      Vireo/Security/RateLimiter.lean
  Subject:   THE RATE LIMITER (`src/security/rate_limiter.c`): token buckets in a fixed table.

  A check plans the whole batch first: every request gets a full bucket, or that of the slot that has its
  policy and key, refilled. Only when every bucket suffices and every new key finds a slot, free or with a
  bucket that is full again, is anything written.

  Null arguments do not exist here; `errno` is restored by every entry and is left out.
-/
import Vireo.Base.Result
import Mathlib.Logic.Function.Basic

namespace Vireo.Security

/-- `VIREO_RATE_LIMIT_KEY_BYTES`. -/
def keyBytes : Nat := 32

/-- The key of a request; only its equality matters. -/
abbrev Key := Vector UInt8 keyBytes

/-- `VIREO_RATE_LIMIT_MAX_KEYS` and the other hard limits. -/
def maxKeysLimit : UInt64 := 4096
def maxPolicies : Nat := 16
def maxBatch : Nat := 8
def maxMemoryLimit : UInt64 := 1048576
def maxBurstTokens : UInt32 := 1000000
def maxRefillIntervalNs : UInt64 := 3600000000000

/-- `sizeof(vireo_rate_limiter_t)` and `sizeof(vireo_rate_limit_entry_t)` on LP64. -/
def controlBytes : UInt64 := 328
def entryBytes : UInt64 := 64

/-- `vireo_rate_limit_policy_t`, as a caller may write it. -/
structure Policy where
  policyId : UInt32
  burstTokens : UInt32
  refillIntervalNs : UInt64
deriving DecidableEq

/-- What `create` lets through. -/
structure Policy.Valid (p : Policy) : Prop where
  named : p.policyId ≠ 0
  burst : p.burstTokens ≠ 0
  interval : p.refillIntervalNs ≠ 0
  burst_le : p.burstTokens ≤ maxBurstTokens
  interval_le : p.refillIntervalNs ≤ maxRefillIntervalNs

/-- A policy that a limiter has copied. -/
abbrev StoredPolicy := { p : Policy // p.Valid }

instance : Inhabited StoredPolicy := ⟨⟨⟨1, 1, 1⟩, by constructor <;> decide⟩⟩

/-- `vireo_rate_limit_request_t`. -/
structure Request where
  policyId : UInt32
  key : Key
  cost : UInt32
deriving DecidableEq

/-- `vireo_rate_limit_entry_t`. -/
structure Entry where
  occupied : Bool
  policyIndex : Nat
  key : Key
  tokens : UInt32
  anchor : UInt64
deriving DecidableEq

/-- An entry of the zeroed table. -/
def Entry.zero : Entry := ⟨false, 0, Vector.replicate keyBytes 0, 0, 0⟩

/-- `vireo_rate_limit_outcome_t`. -/
inductive RateOutcome where
  | admitted
  | throttled
  | capacity
deriving DecidableEq

/-- `vireo_rate_limit_decision_t`. -/
structure Decision where
  outcome : RateOutcome
  retryAfterNs : UInt64
  trackedKeys : Nat

/-- `struct vireo_rate_limiter` without its allocator. -/
structure RateLimiter where
  maxKeys : Nat
  trackedKeys : Nat
  allocatedBytes : UInt64
  maxMemoryBytes : UInt64
  lastNow : UInt64
  policies : List StoredPolicy
  entries : Nat → Entry

/-! ## 1. Creation -/

instance (p : Policy) : Decidable p.Valid :=
  decidable_of_iff (p.policyId ≠ 0 ∧ p.burstTokens ≠ 0 ∧ p.refillIntervalNs ≠ 0 ∧
    p.burstTokens ≤ maxBurstTokens ∧ p.refillIntervalNs ≤ maxRefillIntervalNs)
    ⟨fun ⟨a, b, c, d, e⟩ => ⟨a, b, c, d, e⟩, fun ⟨a, b, c, d, e⟩ => ⟨a, b, c, d, e⟩⟩

/-- The loop of `create` over the policies; `seen` are those before. Limits are checked after zeros and
    duplicates. -/
def checkPolicies (seen : List StoredPolicy) : List Policy → Except Result (List StoredPolicy)
  | [] => .ok seen
  | p :: ps =>
    if p.policyId = 0 ∨ p.burstTokens = 0 ∨ p.refillIntervalNs = 0 then .error .invalidArgument
    else if seen.any (fun q => q.1.policyId = p.policyId) then .error .invalidArgument
    else if h : p.Valid then checkPolicies (seen ++ [⟨p, h⟩]) ps
    else .error .range

/-- `vireo_rate_limiter_create_with_allocator`; `memory` says whether the block was allocated. -/
def create (maxKeys maxMemoryBytes : UInt64) (policies : List Policy) (now : UInt64) (memory : Bool) :
    Except Result RateLimiter :=
  if maxKeys = 0 ∨ maxMemoryBytes = 0 ∨ policies.length = 0 then .error .invalidArgument
  else
    match checkedU64Mul maxKeys entryBytes with
    | .error e => .error e
    | .ok slots =>
      match checkedU64Add controlBytes slots with
      | .error e => .error e
      | .ok total =>
        if maxKeys > maxKeysLimit ∨ policies.length > maxPolicies ∨ maxMemoryBytes > maxMemoryLimit ∨
            total > maxMemoryBytes then .error .range
        else
          match checkPolicies [] policies with
          | .error e => .error e
          | .ok stored =>
            if memory = false then .error .noMemory
            else .ok ⟨maxKeys.toNat, 0, total, maxMemoryBytes, now, stored, fun _ => .zero⟩

/-! ## 2. Planning -/

/-- A request with the index of its policy. -/
structure Item where
  request : Request
  policyIndex : Nat
deriving DecidableEq

/-- The first loop of `check`; `seen` are the items before. -/
def validate (policies : List StoredPolicy) (seen : List Item) : List Request → Except Result (List Item)
  | [] => .ok seen
  | q :: qs =>
    if q.policyId = 0 ∨ q.cost = 0 then .error .invalidArgument
    else
      match policies.findIdx? (fun p => p.1.policyId = q.policyId) with
      | none => .error .notFound
      | some p =>
        if q.cost > (policies.getD p default).1.burstTokens then .error .range
        else if seen.any (fun e => e.policyIndex = p ∧ e.request.key = q.key) then
          .error .invalidArgument
        else validate policies (seen ++ [⟨q, p⟩]) qs

/-- `plan_t` with the request it is for; a slot that was not found or chosen yet is `none`. -/
structure Plan where
  item : Item
  slot : Option Nat
  tokens : UInt32
  anchor : UInt64
deriving DecidableEq

/-- `refill`. -/
def refill (entry : Entry) (policy : StoredPolicy) (now : UInt64) : UInt32 × UInt64 :=
  let elapsed := now - entry.anchor
  let periods := elapsed / policy.1.refillIntervalNs
  if periods ≥ (policy.1.burstTokens - entry.tokens).toUInt64 then (policy.1.burstTokens, now)
  else (entry.tokens + periods.toUInt32, entry.anchor + periods * policy.1.refillIntervalNs)

/-- What a plan writes. -/
def Plan.entry (plan : Plan) : Entry :=
  ⟨true, plan.item.policyIndex, plan.item.request.key, plan.tokens - plan.item.request.cost, plan.anchor⟩

namespace RateLimiter

variable (l : RateLimiter)

/-- The policy at an index. -/
def policy (p : Nat) : StoredPolicy := l.policies.getD p default

variable (now : UInt64)

/-- The plan that the first loop leaves: a full bucket. -/
def fresh (item : Item) : Plan :=
  ⟨item, none, (l.policy item.policyIndex).1.burstTokens, now⟩

/-- Slot `i` holds this policy and key. -/
def Has (i p : Nat) (key : Key) : Prop :=
  (l.entries i).occupied = true ∧ (l.entries i).policyIndex = p ∧ (l.entries i).key = key

instance (l : RateLimiter) (i p : Nat) (key : Key) : Decidable (l.Has i p key) :=
  inferInstanceAs (Decidable (_ ∧ _))

/-- The body of the second loop: slot `i` against one plan. -/
def matchEntry (i : Nat) (plan : Plan) : Plan :=
  if l.Has i plan.item.policyIndex plan.item.request.key then
    let x := refill (l.entries i) (l.policy (l.entries i).policyIndex) now
    { plan with slot := some i, tokens := x.1, anchor := x.2 }
  else plan

variable (plans : List Plan)

/-- The second loop: every slot against every plan. -/
def matchAll : List Plan :=
  (List.range l.maxKeys).foldl (fun plans i => plans.map (l.matchEntry now i)) plans

/-- How long a plan is short of its cost. -/
def wait (plan : Plan) : UInt64 :=
  if plan.tokens < plan.item.request.cost then
    (plan.item.request.cost - plan.tokens).toUInt64 *
      (l.policy plan.item.policyIndex).1.refillIntervalNs - (now - plan.anchor)
  else 0

/-- The third loop: the longest wait. -/
def retryAfter : UInt64 :=
  plans.foldl (fun longest plan => if l.wait now plan > longest then l.wait now plan else longest) 0

/-- How many plans have no slot. -/
def missing : Nat := plans.countP fun plan => plan.slot.isNone

/-- `referenced`. -/
def referenced (i : Nat) : Bool := plans.any fun plan => plan.slot = some i

/-- A slot that a new key may have: nobody's, or that of a bucket which is full at this time. -/
def usable (i : Nat) : Bool :=
  !referenced plans i && (!(l.entries i).occupied ||
    decide ((refill (l.entries i) (l.policy (l.entries i).policyIndex) now).1 =
      (l.policy (l.entries i).policyIndex).1.burstTokens))

/-- The fourth loop, which stops when it has found enough. -/
def candidates : List Nat :=
  ((List.range l.maxKeys).filter (l.usable now plans)).take (missing plans)

/-- The fifth loop: the candidates go to the plans without a slot, in order. -/
def assign : List Plan → List Nat → List Plan
  | [], _ => []
  | plan :: plans, slots =>
    match plan.slot, slots with
    | none, i :: slots => { plan with slot := some i } :: assign plans slots
    | _, slots => plan :: assign plans slots

variable {plan : Plan}

theorem assign_some {i : Nat} (h : plan.slot = some i) (plans : List Plan) (slots : List Nat) :
    assign (plan :: plans) slots = plan :: assign plans slots := by
  conv_lhs => unfold assign
  rw [h]

theorem assign_none (h : plan.slot = none) (plans : List Plan) (i : Nat) (slots : List Nat) :
    assign (plan :: plans) (i :: slots) = { plan with slot := some i } :: assign plans slots := by
  conv_lhs => unfold assign
  rw [h]

theorem missing_some {i : Nat} (h : plan.slot = some i) (plans : List Plan) :
    missing (plan :: plans) = missing plans := by
  unfold missing
  rw [List.countP_cons_of_neg (by rw [h]; nofun)]

theorem missing_none (h : plan.slot = none) (plans : List Plan) :
    missing (plan :: plans) = missing plans + 1 := by
  unfold missing
  rw [List.countP_cons_of_pos (by rw [h]; rfl)]

/-- The body of the last loop. -/
def commitPlan (l : RateLimiter) (plan : Plan) : RateLimiter :=
  match plan.slot with
  | none => l
  | some i =>
    { l with
      trackedKeys := if (l.entries i).occupied then l.trackedKeys else l.trackedKeys + 1
      entries := Function.update l.entries i plan.entry }

/-- The last loop. -/
def commit (l : RateLimiter) (plans : List Plan) : RateLimiter := plans.foldl commitPlan l

/-- The answer is published, and the time kept. -/
def publish (l : RateLimiter) (now : UInt64) (outcome : RateOutcome) (retryAfterNs : UInt64) :
    Except Result Decision × RateLimiter :=
  (.ok ⟨outcome, retryAfterNs, l.trackedKeys⟩, { l with lastNow := now })

/-- `vireo_rate_limiter_check`, from the planned batch on. -/
def settle (l : RateLimiter) (now : UInt64) (items : List Item) : Except Result Decision × RateLimiter :=
  let plans := l.matchAll now (items.map (l.fresh now))
  if l.retryAfter now plans ≠ 0 then l.publish now .throttled (l.retryAfter now plans)
  else
    let found := l.candidates now plans
    if found.length < missing plans then l.publish now .capacity 0
    else (l.commit (assign plans found)).publish now .admitted 0

/-- `vireo_rate_limiter_check`. -/
def check (l : RateLimiter) (now : UInt64) (requests : List Request) :
    Except Result Decision × RateLimiter :=
  if requests.length = 0 then (.error .invalidArgument, l)
  else if requests.length > maxBatch then (.error .range, l)
  else
    match validate l.policies [] requests with
    | .error e => (.error e, l)
    | .ok items => if now < l.lastNow then (.error .invalidArgument, l) else l.settle now items

end RateLimiter

end Vireo.Security
