/-
  File:      Vireo/Security/RateLimiterSpec.lean
  Subject:   WHAT THE RATE LIMITER IS FOR: a token bucket of its own for every policy and key.

  The ideal limiter has no table. Its buckets all drip with the time, one token per interval; a batch
  is paid as a whole or not at all. A limiter refines it when every slot of its table drips like
  the ideal bucket, and every bucket without a slot is full.
-/
import Vireo.Lib.TokenBucket
import Vireo.Security.RateLimiter

namespace Vireo.Security

open Vireo.Lib List

/-! ## 1. The ideal limiter -/

/-- The rate of a policy. -/
def rate (p : StoredPolicy) : Rate where
  burst := p.1.burstTokens.toNat
  interval := p.1.refillIntervalNs.toNat
  pos := Nat.pos_of_ne_zero fun h => p.2.interval (UInt64.toNat_inj.mp h)

/-- A bucket for every policy and key. -/
abbrev Buckets := Nat → Key → Bucket

/-- What a caller is told; running out of slots is nothing the ideal limiter can say. -/
inductive Verdict where
  | admitted
  | throttled (retryAfter : Nat)
deriving DecidableEq

variable (policies : List StoredPolicy)

/-- The policy at an index. -/
def rateAt (p : Nat) : Rate := rate (policies.getD p default)

/-- Every bucket full. -/
def fullBuckets (now : Nat) : Buckets :=
  fun p _ => ⟨(rateAt policies p).burst, now⟩

/-- Every bucket drips. -/
def dripAll (now : Nat) (bs : Buckets) : Buckets :=
  fun p key => (bs p key).drip (rateAt policies p) now

/-- What a batch costs a bucket. -/
def costOf (items : List Item) (p : Nat) (key : Key) : Nat :=
  ((items.filter fun i => decide (i.policyIndex = p ∧ i.request.key = key)).map
    (·.request.cost.toNat)).sum

/-- Every item finds its cost in its bucket. -/
abbrev Covers (bs : Buckets) (items : List Item) : Prop :=
  ∀ i ∈ items, i.request.cost.toNat ≤ (bs i.policyIndex i.request.key).tokens

/-- How long a bucket is short of a cost. -/
def shortOf (now : Nat) (bs : Buckets) (i : Item) : Nat :=
  i.request.cost.toNat * (rateAt policies i.policyIndex).interval -
    (bs i.policyIndex i.request.key).credit (rateAt policies i.policyIndex) now

/-- The ideal check of a well-formed batch: all of it, or nothing. -/
def idealSettle (bs : Buckets) (now : Nat) (items : List Item) :
    Verdict × Buckets :=
  let bs := dripAll policies now bs
  if ∀ i ∈ items, i.request.cost.toNat ≤ (bs i.policyIndex i.request.key).tokens then
    (.admitted, fun p key => (bs p key).take (costOf items p key))
  else (.throttled ((items.map (shortOf policies now bs)).foldl max 0), bs)

/-- The ideal check. A limiter that was made at `start` has no time before it. -/
def idealCheck (start : UInt64) (bs : Buckets) (now : UInt64) (requests : List Request) :
    Except Result Verdict × Buckets :=
  if requests.length = 0 then (.error .invalidArgument, bs)
  else if requests.length > maxBatch then (.error .range, bs)
  else
    match validate policies [] requests with
    | .error e => (.error e, bs)
    | .ok items =>
      if now < start then (.error .invalidArgument, bs)
      else
        let x := idealSettle policies bs now.toNat items
        (.ok x.1, x.2)

/-- What an answer says to one who knows nothing of slots; a limiter that had none left says nothing. -/
def observed : Except Result Decision → Option (Except Result Verdict)
  | .error e => some (.error e)
  | .ok d =>
    match d.outcome with
    | .admitted => some (.ok .admitted)
    | .throttled => some (.ok (.throttled d.retryAfterNs.toNat))
    | .capacity => none

/-! ## 2. The arithmetic -/

/-- An entry as a bucket. -/
def Entry.bucket (e : Entry) : Bucket := ⟨e.tokens.toNat, e.anchor.toNat⟩

/-- A plan as a bucket. -/
def Plan.bucket (p : Plan) : Bucket := ⟨p.tokens.toNat, p.anchor.toNat⟩

/-- **The code's refill is the dripping of the bucket.** No step of it overflows. -/
theorem refill_drip {e : Entry} {p : StoredPolicy} {now : UInt64}
    (htokens : e.tokens ≤ p.1.burstTokens) (hanchor : e.anchor ≤ now) :
    e.bucket.drip (rate p) now.toNat = ⟨(refill e p now).1.toNat, (refill e p now).2.toNat⟩ := by
  have hle : e.tokens.toNat ≤ p.1.burstTokens.toNat := UInt32.le_iff_toNat_le.mp htokens
  have hpast : e.anchor.toNat ≤ now.toNat := UInt64.le_iff_toNat_le.mp hanchor
  have hperiods : ((now - e.anchor) / p.1.refillIntervalNs).toNat =
      (now.toNat - e.anchor.toNat) / p.1.refillIntervalNs.toNat := by
    rw [UInt64.toNat_div, UInt64.toNat_sub_of_le _ _ hanchor]
  have hroom : (p.1.burstTokens - e.tokens).toUInt64.toNat = p.1.burstTokens.toNat - e.tokens.toNat := by
    rw [UInt32.toNat_toUInt64, UInt32.toNat_sub_of_le _ _ htokens]
  rw [refill]
  split
  · rename_i hfull
    rw [ge_iff_le, UInt64.le_iff_toNat_le, hperiods, hroom] at hfull
    exact Bucket.drip_of_le hle hpast hfull
  · rename_i hpart
    rw [ge_iff_le, UInt64.le_iff_toNat_le, hperiods, hroom, Nat.not_le] at hpart
    rw [Bucket.drip_of_lt hpast hpart]
    have hburst := p.1.burstTokens.toNat_lt
    have hnow := now.toNat_lt
    have hmul : (now.toNat - e.anchor.toNat) / p.1.refillIntervalNs.toNat *
        p.1.refillIntervalNs.toNat ≤ now.toNat - e.anchor.toNat := Nat.div_mul_le_self _ _
    congr 1
    · show e.tokens.toNat + (now.toNat - e.anchor.toNat) / p.1.refillIntervalNs.toNat = _
      rw [UInt32.toNat_add, UInt64.toNat_toUInt32, hperiods]
      omega
    · show e.anchor.toNat + (now.toNat - e.anchor.toNat) / p.1.refillIntervalNs.toNat *
        p.1.refillIntervalNs.toNat = _
      rw [UInt64.toNat_add, UInt64.toNat_mul, hperiods]
      omega

/-! ## 3. A well-formed batch -/

/-- Two items for different buckets. -/
def Item.Apart (i j : Item) : Prop := ¬ (i.policyIndex = j.policyIndex ∧ i.request.key = j.request.key)

/-- What `validate` promises: every item has the policy it names, costs at most a burst, and no two are for
    one bucket. -/
structure Batch (policies : List StoredPolicy) (items : List Item) : Prop where
  policy : ∀ i ∈ items, policies.findIdx? (fun p => p.1.policyId = i.request.policyId) = some i.policyIndex
  cost : ∀ i ∈ items, i.request.cost ≤ (policies.getD i.policyIndex default).1.burstTokens
  apart : items.Pairwise Item.Apart

theorem batch_validate {policies : List StoredPolicy} {seen items : List Item}
    {requests : List Request} (hseen : Batch policies seen)
    (h : validate policies seen requests = .ok items) :
    Batch policies items ∧ items.map (·.request) = seen.map (·.request) ++ requests := by
  induction requests generalizing seen with
  | nil =>
    obtain rfl := Except.ok.inj h
    exact ⟨hseen, (List.append_nil _).symm⟩
  | cons q qs ih =>
    unfold validate at h
    split at h
    · cases h
    split at h
    · cases h
    rename_i p hp
    split at h
    · cases h
    rename_i hcost
    split at h
    · cases h
    rename_i hnew
    have hnew' : ∀ e ∈ seen, ¬ (e.policyIndex = p ∧ e.request.key = q.key) := by
      simpa using hnew
    have hbatch : Batch policies (seen ++ [⟨q, p⟩]) := by
      refine ⟨fun i hi => ?_, fun i hi => ?_, ?_⟩
      · rcases mem_append.mp hi with hi | hi
        · exact hseen.policy i hi
        · rw [mem_singleton.mp hi]
          exact hp
      · rcases mem_append.mp hi with hi | hi
        · exact hseen.cost i hi
        · rw [mem_singleton.mp hi]
          exact UInt32.not_lt.mp hcost
      · refine pairwise_append.mpr ⟨hseen.apart, pairwise_singleton _ _, ?_⟩
        intro e he j hj
        rw [mem_singleton.mp hj]
        exact hnew' e he
    obtain ⟨hb, hmap⟩ := ih hbatch h
    refine ⟨hb, ?_⟩
    rw [hmap, map_append, append_assoc]
    rfl

theorem costOf_mem {items : List Item} (h : items.Pairwise Item.Apart)
    {i : Item} (hi : i ∈ items) : costOf items i.policyIndex i.request.key = i.request.cost.toNat := by
  induction items with
  | nil => exact absurd hi not_mem_nil
  | cons j items ih =>
    obtain ⟨hj, hrest⟩ := pairwise_cons.mp h
    unfold costOf at ih ⊢
    rw [filter_cons]
    rcases mem_cons.mp hi with rfl | hi
    · rw [if_pos (by simp), map_cons, sum_cons, filter_eq_nil_iff.mpr]
      · rfl
      · intro k hk hsame
        exact hj k hk ⟨(of_decide_eq_true hsame).1.symm, (of_decide_eq_true hsame).2.symm⟩
    · rw [if_neg]
      · exact ih hrest hi
      · intro hsame
        exact hj i hi (of_decide_eq_true hsame)

theorem costOf_of_forall {items : List Item} {p : Nat} {key : Key}
    (h : ∀ i ∈ items, ¬ (i.policyIndex = p ∧ i.request.key = key)) : costOf items p key = 0 := by
  unfold costOf
  rw [filter_eq_nil_iff.mpr]
  · rfl
  · intro i hi hsame
    exact h i hi (of_decide_eq_true hsame)

/-! ## 4. The table stands for the buckets -/

/-- No bucket has two slots, no slot has more than a burst, and none is from the future. -/
structure WellFormed (l : RateLimiter) : Prop where
  unique : ∀ i j p key, i < l.maxKeys → j < l.maxKeys → l.Has i p key → l.Has j p key → i = j
  tokens : ∀ i < l.maxKeys, (l.entries i).occupied = true →
    (l.entries i).tokens ≤ (l.policy (l.entries i).policyIndex).1.burstTokens
  anchor : ∀ i < l.maxKeys, (l.entries i).occupied = true → (l.entries i).anchor ≤ l.lastNow

/-- From now on, a slot drips like the bucket it is for, and a bucket without a slot is full. -/
structure Refines (l : RateLimiter) (bs : Buckets) : Prop where
  tokens : ∀ p key, (bs p key).tokens ≤ (rateAt l.policies p).burst
  anchor : ∀ p key, (bs p key).anchor ≤ l.lastNow.toNat
  held : ∀ i < l.maxKeys, ∀ p key, l.Has i p key → ∀ t, l.lastNow.toNat ≤ t →
    (l.entries i).bucket.drip (rateAt l.policies p) t = (bs p key).drip (rateAt l.policies p) t
  absent : ∀ p key, (∀ i < l.maxKeys, ¬ l.Has i p key) → ∀ t, l.lastNow.toNat ≤ t →
    (bs p key).drip (rateAt l.policies p) t = ⟨(rateAt l.policies p).burst, t⟩

variable {l : RateLimiter} {bs : Buckets} {now : UInt64}

/-- What the first two loops leave for an item. -/
structure Matched (l : RateLimiter) (now : UInt64) (item : Item) (plan : Plan) : Prop where
  same : plan.item = item
  slot : (∃ i < l.maxKeys, plan.slot = some i ∧ l.Has i item.policyIndex item.request.key ∧
      (plan.tokens, plan.anchor) = refill (l.entries i) (l.policy item.policyIndex) now) ∨
    (plan.slot = none ∧ (∀ i < l.maxKeys, ¬ l.Has i item.policyIndex item.request.key) ∧
      (plan.tokens, plan.anchor) = ((l.policy item.policyIndex).1.burstTokens, now))

theorem matched_range (l : RateLimiter) (now : UInt64) (item : Item) (n : Nat) :
    Matched { l with maxKeys := n } now item
      ((List.range n).foldl (fun plan i => l.matchEntry now i plan) (l.fresh now item)) := by
  induction n with
  | zero => exact ⟨rfl, .inr ⟨rfl, fun i hi => absurd hi (Nat.not_lt_zero i), rfl⟩⟩
  | succ n ih =>
    rw [range_succ, foldl_append, foldl_cons, foldl_nil]
    generalize (List.range n).foldl (fun plan i => l.matchEntry now i plan) (l.fresh now item) = plan at ih
    obtain ⟨hitem, hslot⟩ := ih
    unfold RateLimiter.matchEntry
    rw [hitem]
    split
    · rename_i hhas
      refine ⟨rfl, .inl ⟨n, Nat.lt_succ_self n, rfl, hhas, ?_⟩⟩
      rw [hhas.2.1]
      rfl
    · rename_i hnot
      refine ⟨hitem, hslot.imp ?_ ?_⟩
      · rintro ⟨i, hi, h⟩
        exact ⟨i, Nat.lt_succ_of_lt hi, h⟩
      · rintro ⟨hnone, hfree, hfull⟩
        refine ⟨hnone, fun i hi => ?_, hfull⟩
        rcases Nat.lt_succ_iff_lt_or_eq.mp hi with hi | rfl
        · exact hfree i hi
        · exact hnot

theorem foldl_map_comm {α β : Type} (f : β → α → α) (is : List β) (xs : List α) :
    is.foldl (fun xs i => xs.map (f i)) xs = xs.map fun x => is.foldl (fun x i => f i x) x := by
  induction is generalizing xs with
  | nil => exact (map_id _).symm
  | cons i is ih =>
    rw [foldl_cons, ih, map_map]
    rfl

theorem matched_all (l : RateLimiter) (now : UInt64) (items : List Item) :
    List.Forall₂ (fun item plan => item ∈ items ∧ Matched l now item plan) items
      (l.matchAll now (items.map (l.fresh now))) := by
  unfold RateLimiter.matchAll
  rw [foldl_map_comm, map_map, forall₂_map_right_iff]
  exact forall₂_same.mpr fun item hitem => ⟨hitem, matched_range l now item l.maxKeys⟩

theorem rateAt_policy (l : RateLimiter) (p : Nat) : rateAt l.policies p = rate (l.policy p) := rfl

theorem Matched.bucket {item : Item} {plan : Plan} (h : Matched l now item plan) (wf : WellFormed l)
    (ref : Refines l bs) (hnow : l.lastNow ≤ now) :
    plan.bucket = (bs item.policyIndex item.request.key).drip (rateAt l.policies item.policyIndex)
      now.toNat := by
  have hnow' : l.lastNow.toNat ≤ now.toNat := UInt64.le_iff_toNat_le.mp hnow
  have hpair : plan.bucket = ⟨(plan.tokens, plan.anchor).1.toNat, (plan.tokens, plan.anchor).2.toNat⟩ :=
    rfl
  rcases h.slot with ⟨i, hi, -, hhas, hplan⟩ | ⟨-, hfree, hplan⟩
  · have htokens := wf.tokens i hi hhas.1
    rw [hhas.2.1] at htokens
    rw [hpair, hplan, ← ref.held i hi _ _ hhas _ hnow', rateAt_policy]
    exact (refill_drip htokens (UInt64.le_trans (wf.anchor i hi hhas.1) hnow)).symm
  · rw [hpair, hplan, ref.absent _ _ hfree _ hnow']
    rfl

/-! ## 5. The waits -/

theorem short_eq_zero {r : Rate} {b : Bucket} {t cost : Nat} (h : b.Settled r t) :
    cost * r.interval - b.credit r t = 0 ↔ cost ≤ b.tokens := by
  have hrest := h.rest_lt
  rw [Nat.sub_eq_zero_iff_le]
  unfold Bucket.credit
  constructor
  · intro hle
    refine Nat.le_of_lt_succ (Nat.lt_of_mul_lt_mul_right (a := r.interval) ?_)
    rw [Nat.succ_mul]
    omega
  · intro hle
    have hmul := Nat.mul_le_mul_right r.interval hle
    omega

/-- **The code's wait is what the ideal bucket is short of**, and does not overflow. -/
theorem wait_toNat {plan : Plan} (hs : plan.bucket.Settled (rateAt l.policies plan.item.policyIndex)
      now.toNat)
    (hcost : plan.item.request.cost ≤ (l.policy plan.item.policyIndex).1.burstTokens) :
    (l.wait now plan).toNat =
      plan.item.request.cost.toNat * (rateAt l.policies plan.item.policyIndex).interval -
        plan.bucket.credit (rateAt l.policies plan.item.policyIndex) now.toNat := by
  have hpast : plan.anchor.toNat ≤ now.toNat := hs.past
  have hrest := hs.rest_lt
  change now.toNat - plan.anchor.toNat < (l.policy plan.item.policyIndex).1.refillIntervalNs.toNat at hrest
  unfold RateLimiter.wait
  split
  · rename_i hshort
    have hlt : plan.tokens.toNat < plan.item.request.cost.toNat := UInt32.lt_iff_toNat_lt.mp hshort
    have hvalid := (l.policy plan.item.policyIndex).2
    have hburst : (l.policy plan.item.policyIndex).1.burstTokens.toNat ≤ 1000000 :=
      UInt32.le_iff_toNat_le.mp hvalid.burst_le
    have hinterval : (l.policy plan.item.policyIndex).1.refillIntervalNs.toNat ≤ 3600000000000 :=
      UInt64.le_iff_toNat_le.mp hvalid.interval_le
    have hcost' : plan.item.request.cost.toNat ≤
        (l.policy plan.item.policyIndex).1.burstTokens.toNat := UInt32.le_iff_toNat_le.mp hcost
    have hdiff : (plan.item.request.cost - plan.tokens).toUInt64.toNat =
        plan.item.request.cost.toNat - plan.tokens.toNat := by
      rw [UInt32.toNat_toUInt64, UInt32.toNat_sub_of_le _ _ (UInt32.le_of_lt hshort)]
    have hsub : (now - plan.anchor).toNat = now.toNat - plan.anchor.toNat :=
      UInt64.toNat_sub_of_le _ _ (UInt64.le_iff_toNat_le.mpr hpast)
    have hbound : (plan.item.request.cost.toNat - plan.tokens.toNat) *
        (l.policy plan.item.policyIndex).1.refillIntervalNs.toNat ≤ 1000000 * 3600000000000 :=
      Nat.mul_le_mul (by omega) hinterval
    have hlow : (l.policy plan.item.policyIndex).1.refillIntervalNs.toNat ≤
        (plan.item.request.cost.toNat - plan.tokens.toNat) *
          (l.policy plan.item.policyIndex).1.refillIntervalNs.toNat :=
      Nat.le_mul_of_pos_left _ (by omega)
    have hmul : ((plan.item.request.cost - plan.tokens).toUInt64 *
        (l.policy plan.item.policyIndex).1.refillIntervalNs).toNat =
        (plan.item.request.cost.toNat - plan.tokens.toNat) *
          (l.policy plan.item.policyIndex).1.refillIntervalNs.toNat := by
      rw [UInt64.toNat_mul, hdiff]
      exact Nat.mod_eq_of_lt (by omega)
    rw [UInt64.toNat_sub_of_le, hmul, hsub]
    · show _ = plan.item.request.cost.toNat *
        (l.policy plan.item.policyIndex).1.refillIntervalNs.toNat - (plan.tokens.toNat *
          (l.policy plan.item.policyIndex).1.refillIntervalNs.toNat + (now.toNat - plan.anchor.toNat))
      rw [Nat.sub_mul]
      omega
    · rw [UInt64.le_iff_toNat_le, hmul, hsub]
      omega
  · rename_i hcover
    have hle : plan.item.request.cost.toNat ≤ plan.bucket.tokens :=
      UInt32.le_iff_toNat_le.mp (UInt32.not_lt.mp hcover)
    exact ((short_eq_zero hs).mpr hle).symm

theorem retryAfter_toNat (l : RateLimiter) (now : UInt64) (plans : List Plan) :
    (l.retryAfter now plans).toNat = (plans.map fun plan => (l.wait now plan).toNat).foldl max 0 := by
  have hgen : ∀ longest : UInt64, (plans.foldl (fun longest plan =>
      if l.wait now plan > longest then l.wait now plan else longest) longest).toNat =
        (plans.map fun plan => (l.wait now plan).toNat).foldl max longest.toNat := by
    induction plans with
    | nil => exact fun _ => rfl
    | cons plan plans ih =>
      intro longest
      rw [foldl_cons, map_cons, foldl_cons, ih]
      congr 1
      split
      · rename_i h
        rw [gt_iff_lt, UInt64.lt_iff_toNat_lt] at h
        omega
      · rename_i h
        rw [gt_iff_lt, UInt64.lt_iff_toNat_lt] at h
        omega
  exact hgen 0

theorem foldl_max_eq_zero (l : List Nat) (m : Nat) : l.foldl max m = 0 ↔ m = 0 ∧ ∀ x ∈ l, x = 0 := by
  induction l generalizing m with
  | nil => simp
  | cons x l ih =>
    rw [foldl_cons, ih, Nat.max_eq_zero_iff, and_assoc, forall_mem_cons]

end Vireo.Security
