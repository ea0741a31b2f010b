/-
  File:      Vireo/Security/RateLimiterRun.lean
  Subject:   RUNS OF THE RATE LIMITER: what callers see of it, check after check.
-/
import Vireo.Security.RateLimiterRefine

namespace Vireo.Security

open Vireo.Lib List

/-- A call of `check`. -/
structure Check where
  now : UInt64
  requests : List Request
deriving DecidableEq

/-- The answers to a run of checks. -/
def outcomes (l : RateLimiter) : List Check → List (Except Result Decision)
  | [] => []
  | c :: cs => (l.check c.now c.requests).1 :: outcomes (l.check c.now c.requests).2 cs

/-- The limiter had no slot. -/
def outOfSlots : Except Result Decision → Bool
  | .ok d => d.outcome = .capacity
  | .error _ => false

/-- The answers of the ideal limiter; a check that is marked does not reach it. -/
def idealOutcomes (policies : List StoredPolicy) (start : UInt64) (bs : Buckets) :
    List (Check × Bool) → List (Option (Except Result Verdict))
  | [] => []
  | (_, true) :: cs => none :: idealOutcomes policies start bs cs
  | (c, false) :: cs =>
    let x := idealCheck policies start bs c.now c.requests
    some x.1 :: idealOutcomes policies start x.2 cs

/-- The checks come in the order of their times. -/
def InOrder (checks : List Check) : Prop := checks.Pairwise fun a b => a.now ≤ b.now

instance (checks : List Check) : Decidable (InOrder checks) :=
  inferInstanceAs (Decidable (checks.Pairwise _))

/-! ## 1. The run refines -/

/-- A limiter made at `start`, its ideal, and the checks still to come. -/
structure Running (start : UInt64) (l : RateLimiter) (bs : Buckets) (checks : List Check) : Prop where
  wf : WellFormed l
  refines : Refines l bs
  started : start ≤ l.lastNow
  ahead : ∀ c ∈ checks, start ≤ c.now → l.lastNow ≤ c.now
  inOrder : InOrder checks

variable {start : UInt64} {l : RateLimiter} {bs : Buckets} {c : Check} {checks : List Check}

theorem outOfSlots_eq (answer : Except Result Decision) :
    outOfSlots answer = (observed answer).isNone := by
  rcases answer with e | ⟨outcome, retry, tracked⟩
  · rfl
  · cases outcome <;> rfl

theorem Running.fresh {policies : List Policy} (h : Fresh l policies start) (hchecks : InOrder checks) :
    Running start l (fullBuckets l.policies start.toNat) checks :=
  ⟨h.wellFormed, h.refines, h.time ▸ UInt64.le_refl _, fun _ _ hc => h.time ▸ hc, hchecks⟩

theorem Running.after {x : Except Result Decision × RateLimiter} {bs' : Buckets}
    (h : Running start l bs (c :: checks)) (wf : WellFormed x.2) (ref : Refines x.2 bs')
    (htime : (∃ e, x = (.error e, l)) ∨ (l.lastNow ≤ c.now ∧ x.2.lastNow = c.now)) :
    Running start x.2 bs' checks := by
  obtain ⟨hhead, htail⟩ := pairwise_cons.mp h.inOrder
  refine ⟨wf, ref, ?_, fun c' hc' hstart => ?_, htail⟩
  · rcases htime with ⟨e, rfl⟩ | ⟨hle, htime⟩
    · exact h.started
    · exact htime ▸ UInt64.le_trans h.started hle
  · rcases htime with ⟨e, rfl⟩ | ⟨-, htime⟩
    · exact h.ahead c' (mem_cons_of_mem _ hc') hstart
    · exact htime ▸ hhead c' hc'

/-- One check of a run. -/
structure Stepped (start : UInt64) (l : RateLimiter) (bs : Buckets) (c : Check) (checks : List Check)
    (x : Except Result Decision × RateLimiter) : Prop where
  policies : x.2.policies = l.policies
  time : (∃ e, x = (.error e, l)) ∨ (l.lastNow ≤ c.now ∧ x.2.lastNow = c.now)
  ideal : (observed x.1 = none ∧ Running start x.2 bs checks) ∨
    (observed x.1 = some (idealCheck l.policies start bs c.now c.requests).1 ∧
      Running start x.2 (idealCheck l.policies start bs c.now c.requests).2 checks)

theorem Running.step (h : Running start l bs (c :: checks)) :
    Stepped start l bs c checks (l.check c.now c.requests) := by
  have hone := check_refines h.wf h.refines h.started (h.ahead c (mem_cons_self ..)) c.requests
  refine { hone with ideal := hone.ideal.imp ?_ ?_ }
  · exact fun ⟨hobs, ref⟩ => ⟨hobs, h.after hone.wf ref hone.time⟩
  · exact fun ⟨hobs, ref⟩ => ⟨hobs, h.after hone.wf ref hone.time⟩

theorem running_outcomes (h : Running start l bs checks) :
    (outcomes l checks).map observed = idealOutcomes l.policies start bs
      (checks.zip ((outcomes l checks).map outOfSlots)) := by
  induction checks generalizing l bs with
  | nil => rfl
  | cons c checks ih =>
    obtain ⟨hpolicies, -, hstep⟩ := h.step
    unfold outcomes
    rw [map_cons, map_cons, zip_cons_cons, outOfSlots_eq]
    rcases hstep with ⟨hobs, hrest⟩ | ⟨hobs, hrest⟩
    · rw [hobs, ih hrest, hpolicies]
      rfl
    · rw [hobs, ih hrest, hpolicies]
      rfl

/-- **Every answer of a run is that of the ideal limiter**, which is not asked where the table had no slot. -/
theorem outcomes_ideal {maxKeys maxMemoryBytes start : UInt64} {policies : List Policy} {memory : Bool}
    {l : RateLimiter} (hcreate : create maxKeys maxMemoryBytes policies start memory = .ok l)
    {checks : List Check} (horder : InOrder checks) :
    l.policies.map (·.1) = policies ∧
      (outcomes l checks).map observed =
        idealOutcomes l.policies start (fullBuckets l.policies start.toNat)
          (checks.zip ((outcomes l checks).map outOfSlots)) := by
  have hfresh := fresh_create hcreate
  exact ⟨hfresh.policies, running_outcomes (.fresh hfresh horder)⟩

/-- A limiter with one slot. -/
def smallLimiter : RateLimiter :=
  ⟨1, 0, 392, 4096, 0, [⟨⟨7, 2, 10⟩, by constructor <;> decide⟩], fun _ => .zero⟩

/-- A slot that is taken, that has no room for another key, and that changes hands. -/
def smallRun : List Check :=
  let first : Key := Vector.replicate keyBytes 1
  let second : Key := Vector.replicate keyBytes 2
  [⟨0, [⟨7, first, 2⟩]⟩, ⟨5, [⟨7, first, 1⟩]⟩, ⟨5, [⟨7, second, 1⟩]⟩, ⟨25, [⟨7, second, 2⟩]⟩,
    ⟨50, [⟨7, first, 2⟩]⟩]

theorem outcomes_ideal_smallRun :
    (outcomes smallLimiter smallRun).map observed =
        [some (.ok .admitted), some (.ok (.throttled 5)), none, some (.ok .admitted), some (.ok .admitted)] ∧
      smallLimiter.policies.map (·.1) = [⟨7, 2, 10⟩] ∧
      (outcomes smallLimiter smallRun).map observed =
        idealOutcomes smallLimiter.policies 0 (fullBuckets smallLimiter.policies 0)
          (smallRun.zip ((outcomes smallLimiter smallRun).map outOfSlots)) :=
  ⟨by decide, outcomes_ideal (show create 1 4096 [⟨7, 2, 10⟩] 0 true = .ok smallLimiter from rfl)
    (by decide)⟩

/-! ## 2. What is admitted in a window -/

variable (policyId : UInt32)

/-- What requests ask of a policy for a key. -/
def asked (key : Key) (requests : List Request) : Nat :=
  ((requests.filter fun q => decide (q.policyId = policyId ∧ q.key = key)).map (·.cost.toNat)).sum

/-- The check was admitted. -/
def isAdmitted : Except Result Decision → Bool
  | .ok d => d.outcome = .admitted
  | .error _ => false

/-- The costs that were admitted for a policy and key between two times. -/
def admittedCost (key : Key) (first last : Nat) (log : List (Check × Except Result Decision)) : Nat :=
  ((log.filter fun x => isAdmitted x.2 && decide (first ≤ x.1.now.toNat ∧ x.1.now.toNat ≤ last)).map
    fun x => asked policyId key x.1.requests).sum

/-- What a check is to the bucket of a policy and key: it drips when the check is decided, and pays
    when it is admitted. -/
def visit (key : Key) (x : Check × Except Result Decision) : Option (Nat × Nat) :=
  match observed x.2 with
  | some (.ok .admitted) => some (x.1.now.toNat, asked policyId key x.1.requests)
  | some (.ok (.throttled _)) => some (x.1.now.toNat, 0)
  | some (.error _) => none
  | none => none

theorem admittedCost_cons (key : Key) (first last : Nat) (x : Check × Except Result Decision)
    (log : List (Check × Except Result Decision)) :
    admittedCost policyId key first last (x :: log) =
      (if isAdmitted x.2 ∧ first ≤ x.1.now.toNat ∧ x.1.now.toNat ≤ last then
        asked policyId key x.1.requests else 0) + admittedCost policyId key first last log := by
  unfold admittedCost
  rw [filter_cons]
  by_cases h : isAdmitted x.2 ∧ first ≤ x.1.now.toNat ∧ x.1.now.toNat ≤ last
  · rw [if_pos (by simpa using h), if_pos h, map_cons, sum_cons]
  · rw [if_neg (by simpa using h), if_neg h, Nat.zero_add]

theorem spent_visits (key : Key) (first last : Nat) (log : List (Check × Except Result Decision)) :
    Bucket.spent first last (log.filterMap (visit policyId key)) =
      admittedCost policyId key first last log := by
  induction log with
  | nil => rfl
  | cons x log ih =>
    obtain ⟨c, answer⟩ := x
    rw [admittedCost_cons, ← ih]
    rcases answer with e | ⟨outcome, retry, tracked⟩
    · have hvisit : visit policyId key (c, .error e) = none := rfl
      rw [filterMap_cons_none hvisit, if_neg (by rintro ⟨h, -⟩; cases h), Nat.zero_add]
    · cases outcome with
      | admitted =>
        have hvisit : visit policyId key (c, .ok ⟨.admitted, retry, tracked⟩) =
          some (c.now.toNat, asked policyId key c.requests) := rfl
        rw [filterMap_cons_some hvisit, Bucket.spent_cons]
        congr 1
        exact if_congr (by simp [isAdmitted]) rfl rfl
      | throttled =>
        have hvisit : visit policyId key (c, .ok ⟨.throttled, retry, tracked⟩) = some (c.now.toNat, 0) := rfl
        rw [filterMap_cons_some hvisit, Bucket.spent_cons, ite_self,
          if_neg (by rintro ⟨h, -⟩; cases h)]
      | capacity =>
        have hvisit : visit policyId key (c, .ok ⟨.capacity, retry, tracked⟩) = none := rfl
        rw [filterMap_cons_none hvisit, if_neg (by rintro ⟨h, -⟩; cases h), Nat.zero_add]

/-- The ideal check, by its answer. -/
inductive Settling (policies : List StoredPolicy) (bs : Buckets) (now : UInt64)
    (requests : List Request) : Except Result Verdict × Buckets → Prop where
  | refused (e : Result) : Settling policies bs now requests (.error e, bs)
  | throttled (retryAfter : Nat) :
    Settling policies bs now requests (.ok (.throttled retryAfter), dripAll policies now.toNat bs)
  | admitted (items : List Item) (batch : Batch policies items)
    (same : items.map (·.request) = requests)
    (cover : Covers (dripAll policies now.toNat bs) items) :
    Settling policies bs now requests
      (.ok .admitted, fun p key => (dripAll policies now.toNat bs p key).take (costOf items p key))

theorem settling_idealCheck (policies : List StoredPolicy) (start : UInt64) (bs : Buckets) (now : UInt64)
    (requests : List Request) :
    Settling policies bs now requests (idealCheck policies start bs now requests) := by
  unfold idealCheck
  split
  · exact .refused _
  split
  · exact .refused _
  split
  · exact .refused _
  rename_i items hitems
  obtain ⟨batch, hsame⟩ := batch_validate (batch_nil _) hitems
  split
  · exact .refused _
  rw [idealSettle]
  split
  · rename_i hcover
    exact .admitted items batch hsame hcover
  · exact .throttled _

section Window

variable {policies : List StoredPolicy} {p : Nat} {items : List Item}

theorem policyIndex_iff (hapart : policies.Pairwise StoredPolicy.Apart) (hp : p < policies.length)
    (batch : Batch policies items) {i : Item} (hi : i ∈ items) :
    i.policyIndex = p ↔ i.request.policyId = (policies.getD p default).1.policyId := by
  obtain ⟨hlt, hfound, -⟩ := findIdx?_eq_some_iff_getElem.mp (batch.policy i hi)
  have hname : policies[i.policyIndex].1.policyId = i.request.policyId := of_decide_eq_true hfound
  have hget : policies.getD p default = policies[p] := by
    rw [getD_eq_getElem?_getD, getElem?_eq_getElem hp]
    rfl
  rw [hget, ← hname]
  constructor
  · rintro rfl
    rfl
  · intro hsame
    by_contra hne
    rcases Nat.lt_or_gt_of_ne hne with hlt' | hlt'
    · exact pairwise_iff_getElem.mp hapart _ _ hlt hp hlt' hsame
    · exact pairwise_iff_getElem.mp hapart _ _ hp hlt hlt' hsame.symm

theorem costOf_asked (hapart : policies.Pairwise StoredPolicy.Apart) (hp : p < policies.length)
    (batch : Batch policies items) (key : Key) :
    costOf items p key = asked (policies.getD p default).1.policyId key (items.map (·.request)) := by
  unfold costOf asked
  rw [filter_map, map_map]
  congr 2
  refine filter_congr fun i hi => ?_
  exact decide_eq_decide.mpr (and_congr_left' (policyIndex_iff hapart hp batch hi))

theorem costOf_le (batch : Batch policies items) {bs : Buckets}
    (hcover : Covers bs items) (key : Key) :
    costOf items p key ≤ (bs p key).tokens := by
  by_cases h : ∃ i ∈ items, i.policyIndex = p ∧ i.request.key = key
  · obtain ⟨i, hi, rfl, rfl⟩ := h
    rw [costOf_mem batch.apart hi]
    exact hcover i hi
  · rw [costOf_of_forall fun i hi hsame => h ⟨i, hi, hsame⟩]
    exact Nat.zero_le _

/-- **A run visits a bucket in the order of time, and never takes what is not there.** -/
theorem running_visits (h : Running start l bs checks) (hapart : l.policies.Pairwise StoredPolicy.Apart)
    (hp : p < l.policies.length) (key : Key) :
    Bucket.Visits (rateAt l.policies p) l.lastNow.toNat (bs p key)
      ((checks.zip (outcomes l checks)).filterMap (visit (l.policies.getD p default).1.policyId key)) := by
  induction checks generalizing l bs with
  | nil => trivial
  | cons c checks ih =>
    obtain ⟨hpolicies, htime, hstep⟩ := h.step
    have hsettling := settling_idealCheck l.policies start bs c.now c.requests
    unfold outcomes
    rw [zip_cons_cons]
    generalize l.check c.now c.requests = x at *
    obtain ⟨answer, l'⟩ := x
    dsimp only at *
    -- what the rest of the run does, from the time of this check on
    have hrest : ∀ bs', Running start l' bs' checks →
        Bucket.Visits (rateAt l.policies p) l'.lastNow.toNat (bs' p key)
          ((checks.zip (outcomes l' checks)).filterMap
            (visit (l.policies.getD p default).1.policyId key)) := by
      intro bs' hrun
      rw [← hpolicies]
      exact ih hrun (hpolicies ▸ hapart) (hpolicies ▸ hp)
    have hlater : l.lastNow.toNat ≤ l'.lastNow.toNat := by
      rcases htime with ⟨e, he⟩ | ⟨hle, hlast⟩
      · rw [(Prod.mk.inj he).2]
      · exact hlast ▸ UInt64.le_iff_toNat_le.mp hle
    -- a check that was decided keeps its time
    have hdecided : ∀ v, observed answer = some (.ok v) →
        l.lastNow.toNat ≤ c.now.toNat ∧ l'.lastNow = c.now := by
      intro v hv
      rcases htime with ⟨e, he⟩ | ⟨hle, hlast⟩
      · rw [(Prod.mk.inj he).1] at hv
        cases hv
      · exact ⟨UInt64.le_iff_toNat_le.mp hle, hlast⟩
    rcases hstep with ⟨hobs, hrun⟩ | ⟨hobs, hrun⟩
    · rw [filterMap_cons_none (by unfold visit; rw [hobs])]
      exact (hrest bs hrun).earlier hlater
    · generalize idealCheck l.policies start bs c.now c.requests = y at *
      cases hsettling with
      | refused e =>
        rw [filterMap_cons_none (by unfold visit; rw [hobs])]
        exact (hrest bs hrun).earlier hlater
      | throttled n =>
        obtain ⟨hle, hlast⟩ := hdecided _ hobs
        rw [filterMap_cons_some (b := (c.now.toNat, 0)) (by unfold visit; rw [hobs])]
        refine ⟨hle, Nat.zero_le _, ?_⟩
        exact hlast ▸ hrest _ hrun
      | admitted items batch hsame hcover =>
        obtain ⟨hle, hlast⟩ := hdecided _ hobs
        rw [filterMap_cons_some (b := (c.now.toNat, asked
          (l.policies.getD p default).1.policyId key c.requests)) (by unfold visit; rw [hobs])]
        rw [← hsame, ← costOf_asked hapart hp batch]
        refine ⟨hle, costOf_le batch hcover key, ?_⟩
        exact hlast ▸ hrest _ hrun

end Window

/-- **In every window of time, what is admitted for a policy and key is at most a burst and one token
    per interval.** -/
theorem window_bound {maxKeys maxMemoryBytes start : UInt64} {policies : List Policy} {memory : Bool}
    {l : RateLimiter} (hcreate : create maxKeys maxMemoryBytes policies start memory = .ok l)
    {checks : List Check} (horder : InOrder checks) {policy : Policy} (hpolicy : policy ∈ policies)
    (key : Key) {first last : Nat} (hwindow : first ≤ last) :
    admittedCost policy.policyId key first last (checks.zip (outcomes l checks)) ≤
      policy.burstTokens.toNat + (last - first) / policy.refillIntervalNs.toNat := by
  have hfresh := fresh_create hcreate
  have hrun := Running.fresh hfresh horder
  obtain ⟨p, hp, hget⟩ := List.getElem_of_mem (hfresh.policies ▸ hpolicy)
  rw [List.length_map] at hp
  rw [List.getElem_map] at hget
  have hstored : (l.policies.getD p default).1 = policy := by
    rw [List.getD_eq_getElem?_getD, List.getElem?_eq_getElem hp]
    exact hget
  have hvisits := running_visits hrun hfresh.apart hp key
  rw [hstored] at hvisits
  have hbound := Bucket.spent_le (Bucket.settled_full _ _) (hfresh.time ▸ hvisits) hwindow
  rw [spent_visits] at hbound
  have hburst : (rateAt l.policies p).burst = policy.burstTokens.toNat :=
    congrArg (·.burstTokens.toNat) hstored
  have hinterval : (rateAt l.policies p).interval = policy.refillIntervalNs.toNat :=
    congrArg (·.refillIntervalNs.toNat) hstored
  rwa [hburst, hinterval] at hbound

theorem window_bound_smallRun :
    admittedCost 7 (Vector.replicate keyBytes 1) 0 50
        (smallRun.zip (outcomes smallLimiter smallRun)) = 4 ∧
      admittedCost 7 (Vector.replicate keyBytes 1) 0 50
        (smallRun.zip (outcomes smallLimiter smallRun)) ≤ 2 + (50 - 0) / 10 :=
  ⟨by decide, window_bound (show create 1 4096 [⟨7, 2, 10⟩] 0 true = .ok smallLimiter from rfl)
    (by decide) (List.mem_singleton.mpr rfl) _ (by decide)⟩

/-! ## 3. Coming back -/

/-- The limiter that checks leave. -/
def RateLimiter.after (l : RateLimiter) (checks : List Check) : RateLimiter :=
  checks.foldl (fun l c => (l.check c.now c.requests).2) l

/-- None of the checks asks this bucket. -/
def Spares (policies : List StoredPolicy) (checks : List Check) (p : Nat) (key : Key) : Prop :=
  ∀ o ∈ checks, ∀ q ∈ o.requests, policies.findIdx? (fun s => s.1.policyId = q.policyId) = some p → q.key ≠ key

theorem running_after {before : List Check} (h : Running start l bs (before ++ checks)) :
    ∃ bs', Running start (l.after before) bs' checks ∧ (l.after before).policies = l.policies ∧
      l.lastNow ≤ (l.after before).lastNow ∧ ∀ p key, Spares l.policies before p key →
        ∀ t, (l.after before).lastNow.toNat ≤ t →
          (bs' p key).drip (rateAt l.policies p) t = (bs p key).drip (rateAt l.policies p) t := by
  induction before generalizing l bs with
  | nil => exact ⟨bs, h, rfl, UInt64.le_refl _, fun _ _ _ _ _ => rfl⟩
  | cons c before ih =>
    obtain ⟨hpolicies, htime, hstep⟩ := h.step
    have hlater : l.lastNow ≤ (l.check c.now c.requests).2.lastNow := by
      rcases htime with ⟨e, he⟩ | ⟨hle, hlast⟩
      · rw [he]
        exact UInt64.le_refl _
      · rw [hlast]
        exact hle
    -- what one check leaves of the buckets drips as they do
    obtain ⟨bs₁, hrun, hdrip⟩ : ∃ bs₁, Running start (l.check c.now c.requests).2 bs₁ (before ++ checks) ∧
        ∀ p key, Spares l.policies (c :: before) p key →
          ∀ t, (l.check c.now c.requests).2.lastNow.toNat ≤ t →
            (bs₁ p key).drip (rateAt l.policies p) t = (bs p key).drip (rateAt l.policies p) t := by
      rcases hstep with ⟨-, hrun⟩ | ⟨hobs, hrun⟩
      · exact ⟨bs, hrun, fun _ _ _ _ _ => rfl⟩
      refine ⟨_, hrun, fun p key hspares t ht => ?_⟩
      have hsettling := settling_idealCheck l.policies start bs c.now c.requests
      generalize idealCheck l.policies start bs c.now c.requests = y at *
      have hdecided : ∀ v, y.1 = .ok v → (dripAll l.policies c.now.toNat bs p key).drip (rateAt l.policies p) t =
          (bs p key).drip (rateAt l.policies p) t := by
        intro v hv
        rcases htime with ⟨e, he⟩ | ⟨hle, hlast⟩
        · rw [he, hv] at hobs
          cases hobs
        · exact h.refines.drip hle p key (hlast ▸ ht)
      cases hsettling with
      | refused e => rfl
      | throttled n => exact hdecided _ rfl
      | admitted items batch hsame =>
        have hnone : costOf items p key = 0 := costOf_of_forall fun i hi hi' =>
          hspares c (mem_cons_self ..) _ (hsame ▸ mem_map_of_mem hi) (hi'.1 ▸ batch.policy i hi) hi'.2
        show ((dripAll _ _ _ _ _).take (costOf items p key)).drip _ t = _
        rw [hnone]
        exact hdecided _ rfl
    obtain ⟨bs', hrun', hpolicies', hlater', hdrip'⟩ := ih hrun
    refine ⟨bs', hrun', hpolicies'.trans hpolicies, UInt64.le_trans hlater hlater', fun p key hspares t ht => ?_⟩
    rw [← hdrip p key hspares t ((UInt64.le_iff_toNat_le.mp hlater').trans ht), ← hpolicies]
    exact hdrip' p key (fun o ho => hpolicies ▸ hspares o (mem_cons_of_mem _ ho)) t ht

theorem checked {now : UInt64} {requests : List Request} {v : Verdict}
    (h : observed (l.check now requests).1 = some (.ok v)) :
    ∃ items, Batch l.policies items ∧ items.map (·.request) = requests ∧ l.lastNow ≤ now ∧
      ∀ l' : RateLimiter, l'.policies = l.policies → ∀ t, l'.lastNow ≤ t → l'.check t requests = l'.settle t items := by
  unfold RateLimiter.check at h
  split at h
  · cases h
  rename_i hsome
  split at h
  · cases h
  rename_i hmax
  split at h
  · cases h
  rename_i items hitems
  split at h
  · cases h
  rename_i hnow
  obtain ⟨batch, hsame⟩ := batch_validate (batch_nil _) hitems
  refine ⟨items, batch, hsame, UInt64.not_lt.mp hnow, fun l' hl' t ht => ?_⟩
  unfold RateLimiter.check
  rw [if_neg hsome, if_neg hmax, hl', hitems]
  exact if_neg (UInt64.not_lt.mpr ht)

/-- What a batch is short of, all in all. -/
def shortage (policies : List StoredPolicy) (now : Nat) (bs : Buckets) (items : List Item) : Nat :=
  (items.map (shortOf policies now (dripAll policies now bs))).foldl max 0

theorem settled_observed (h : Running start l bs checks) {now : UInt64} (hnow : l.lastNow ≤ now) {items : List Item}
    (batch : Batch l.policies items) :
    if shortage l.policies now.toNat bs items = 0 then
      observed (l.settle now items).1 = none ∨ observed (l.settle now items).1 = some (.ok .admitted)
    else observed (l.settle now items).1 = some (.ok (.throttled (shortage l.policies now.toNat bs items))) := by
  rw [show shortage _ _ _ _ = _ from (retry_ideal h.wf h.refines hnow batch).symm]
  unfold RateLimiter.settle
  split
  · rename_i hzero
    rw [if_neg (not_not.mpr (UInt64.toNat_inj.mp hzero))]
    dsimp only
    split
    · exact .inl rfl
    · exact .inr rfl
  · rename_i hwait
    rw [if_pos fun hzero => hwait (congrArg UInt64.toNat hzero)]
    rfl

theorem foldl_max_sub {α : Type} (f : α → Nat) (d m : Nat) (xs : List α) :
    (xs.map fun x => f x - d).foldl max (m - d) = (xs.map f).foldl max m - d := by
  induction xs generalizing m with
  | nil => rfl
  | cons x xs ih =>
    rw [map_cons, map_cons, foldl_cons, foldl_cons, ← ih, ← Nat.sub_max_sub_right]

/-- **A bucket that nobody asks is short of the less, the later.** -/
theorem shortOf_later {policies : List StoredPolicy} {i : Item}
    (hcost : i.request.cost ≤ (policies.getD i.policyIndex default).1.burstTokens) {bs bs' : Buckets} {t t' : Nat}
    (htokens : (bs i.policyIndex i.request.key).tokens ≤ (rateAt policies i.policyIndex).burst)
    (hanchor : (bs i.policyIndex i.request.key).anchor ≤ t) (hle : t ≤ t')
    (hdrip : dripAll policies t' bs' i.policyIndex i.request.key = dripAll policies t' bs i.policyIndex i.request.key) :
    shortOf policies t' (dripAll policies t' bs') i = shortOf policies t (dripAll policies t bs) i - (t' - t) := by
  have hroom : i.request.cost.toNat * (rateAt policies i.policyIndex).interval ≤
      (rateAt policies i.policyIndex).burst * (rateAt policies i.policyIndex).interval :=
    Nat.mul_le_mul_right _ (UInt32.le_iff_toNat_le.mp hcost)
  unfold shortOf
  rw [hdrip]
  unfold dripAll
  rw [Bucket.credit_drip htokens (hanchor.trans hle), Bucket.credit_drip htokens hanchor,
    Bucket.credit_later hanchor hle]
  omega

theorem running_retry {others : List Check} {later : UInt64}
    (h : Running start l bs (c :: (others ++ [⟨later, c.requests⟩])))
    (hothers : ∀ o ∈ others, ∀ q ∈ o.requests, ∀ q' ∈ c.requests, q.policyId = q'.policyId → q.key ≠ q'.key)
    {retryAfter : Nat} (hthrottled : observed (l.check c.now c.requests).1 = some (.ok (.throttled retryAfter))) :
    let again := observed (((l.check c.now c.requests).2.after others).check later c.requests).1
    if c.now.toNat + retryAfter ≤ later.toNat then again = none ∨ again = some (.ok .admitted)
    else again = some (.ok (.throttled (c.now.toNat + retryAfter - later.toNat))) := by
  obtain ⟨items, batch, hsame, hnow, hsettle⟩ := checked hthrottled
  have hfirst := settled_observed h hnow batch
  rw [← hsettle _ rfl _ hnow, hthrottled] at hfirst
  have hretry : shortage l.policies c.now.toNat bs items = retryAfter ∧ retryAfter ≠ 0 := by
    split at hfirst
    · rcases hfirst with hbad | hbad <;> cases hbad
    · rename_i hzero
      cases hfirst
      exact ⟨rfl, hzero⟩
  -- the check is throttled, so its buckets only drip
  obtain ⟨hpolicies, htime, hstep⟩ := h.step
  have hdripped : Running start (l.check c.now c.requests).2 (dripAll l.policies c.now.toNat bs)
      (others ++ [⟨later, c.requests⟩]) := by
    have hsettling := settling_idealCheck l.policies start bs c.now c.requests
    rcases hstep with ⟨hobs, -⟩ | ⟨hobs, hrun⟩
    · cases hthrottled.symm.trans hobs
    generalize idealCheck l.policies start bs c.now c.requests = y at *
    cases hsettling with
    | refused | admitted => cases hthrottled.symm.trans hobs
    | throttled => exact hrun
  have hlast : (l.check c.now c.requests).2.lastNow = c.now := by
    rcases htime with ⟨e, he⟩ | ⟨-, hlast⟩
    · rw [he] at hthrottled
      cases hthrottled
    · exact hlast
  obtain ⟨bs', hrun, hpolicies', -, hdrip⟩ := running_after hdripped
  rw [hpolicies] at hpolicies' hdrip
  have hcomes : c.now ≤ later := (pairwise_cons.mp h.inOrder).1 ⟨later, _⟩ (mem_append_right _ (mem_singleton.mpr rfl))
  have hcomes' := UInt64.le_iff_toNat_le.mp hcomes
  have hle : ((l.check c.now c.requests).2.after others).lastNow ≤ later :=
    hrun.ahead _ (mem_singleton.mpr rfl) (UInt64.le_trans (hlast ▸ hdripped.started) hcomes)
  have hspares : ∀ i ∈ items, Spares l.policies others i.policyIndex i.request.key := by
    intro i hi o ho q hq hfind
    refine hothers o ho q hq i.request (hsame ▸ mem_map_of_mem hi) ?_
    obtain ⟨_, hq, -⟩ := findIdx?_eq_some_iff_getElem.mp hfind
    obtain ⟨_, hi, -⟩ := findIdx?_eq_some_iff_getElem.mp (batch.policy i hi)
    exact (of_decide_eq_true hq).symm.trans (of_decide_eq_true hi)
  have hshort : shortage l.policies later.toNat bs' items = retryAfter - (later.toNat - c.now.toNat) := by
    rw [← hretry.1]
    unfold shortage
    rw [← foldl_max_sub, Nat.zero_sub]
    refine congrArg (foldl max 0) (map_congr_left fun i hi => ?_)
    refine shortOf_later (batch.cost i hi) (h.refines.tokens _ _)
      ((h.refines.anchor _ _).trans (UInt64.le_iff_toNat_le.mp hnow)) hcomes' ?_
    exact (hdrip _ _ (hspares i hi) _ (UInt64.le_iff_toNat_le.mp hle)).trans (h.refines.drip hnow _ _ hcomes')
  have hagain := settled_observed hrun hle (hpolicies' ▸ batch)
  rw [hpolicies', hshort, ← hsettle _ hpolicies' _ hle] at hagain
  dsimp only
  split
  · rw [if_pos (by omega)] at hagain
    exact hagain
  · rw [if_neg (by omega)] at hagain
    rw [hagain, show retryAfter - (later.toNat - c.now.toNat) = c.now.toNat + retryAfter - later.toNat by omega]

/-- **The time to come back is exact.** When a check is throttled and its batch is checked again, with any other
    checks of other buckets in between, it is throttled for what is left of the time it was told, and then no
    more. -/
theorem retry_exact {maxKeys maxMemoryBytes start : UInt64} {policies : List Policy} {memory : Bool}
    {l : RateLimiter} (hcreate : create maxKeys maxMemoryBytes policies start memory = .ok l)
    {before others : List Check} {c : Check} {later : UInt64}
    (horder : InOrder (before ++ c :: (others ++ [⟨later, c.requests⟩])))
    (hothers : ∀ o ∈ others, ∀ q ∈ o.requests, ∀ q' ∈ c.requests, q.policyId = q'.policyId → q.key ≠ q'.key)
    {retryAfter : Nat}
    (h : observed ((l.after before).check c.now c.requests).1 = some (.ok (.throttled retryAfter))) :
    let again := observed ((l.after (before ++ c :: others)).check later c.requests).1
    if c.now.toNat + retryAfter ≤ later.toNat then again = none ∨ again = some (.ok .admitted)
    else again = some (.ok (.throttled (c.now.toNat + retryAfter - later.toNat))) := by
  obtain ⟨bs, hrun, -⟩ := running_after (.fresh (fresh_create hcreate) horder)
  rw [show l.after (before ++ c :: others) = ((l.after before).check c.now c.requests).2.after others from
    foldl_append ..]
  exact running_retry hrun hothers h

theorem retry_exact_smallRun :
    let first : Key := Vector.replicate keyBytes 1
    let others : List Check := [⟨6, [⟨7, Vector.replicate keyBytes 2, 1⟩]⟩]
    observed ((smallLimiter.after (⟨0, [⟨7, first, 2⟩]⟩ :: ⟨5, [⟨7, first, 1⟩]⟩ :: others)).check 8
      [⟨7, first, 1⟩]).1 = some (.ok (.throttled 2)) :=
  @retry_exact 1 4096 0 [⟨7, 2, 10⟩] true smallLimiter rfl [⟨0, [⟨7, _, 2⟩]⟩] [⟨6, [⟨7, _, 1⟩]⟩] ⟨5, [⟨7, _, 1⟩]⟩ 8
    (by decide) (by decide) 5 (by decide)

end Vireo.Security
