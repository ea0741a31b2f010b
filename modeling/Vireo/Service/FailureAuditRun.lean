/-
  File:      Vireo/Service/FailureAuditRun.lean
  Subject:   THE QUEUE OF FAILED AUTHENTICATIONS, over every order of its critical sections.
-/
import Vireo.Lib.RingBuffer
import Vireo.Lib.TokenBucket
import Vireo.Service.FailureAudit

namespace Vireo.Service

open Lib Function
open UInt64 (le_iff_toNat_le not_lt ofNat_add ofNat_one toNat_add toNat_div toNat_inj toNat_mod toNat_sub_of_le)

/-! ## 1. The buckets -/

/-- The rate that a queue was created with. -/
structure AuditRate (burst interval : UInt64) : Prop where
  burst_pos : 0 < burst.toNat
  burst_le : burst.toNat ≤ 256
  pos : 0 < interval.toNat
  interval_le : interval.toNat ≤ 60000000000

def AuditRate.rate {burst interval : UInt64} (h : AuditRate burst interval) : Rate :=
  ⟨burst.toNat, interval.toNat, h.pos⟩

/-- The bucket that the code keeps, as the time since which it counts. -/
def FailureBucket.view (b : FailureBucket) : Bucket := ⟨b.tokens.toNat, b.last.toNat - b.remainder.toNat⟩

/-- What a bucket keeps: less than an interval is left over, and nothing when it is full. -/
structure BucketInv (burst interval : UInt64) (b : FailureBucket) : Prop where
  tokens : b.tokens.toNat ≤ burst.toNat
  rest : b.remainder.toNat < interval.toNat
  past : b.remainder.toNat ≤ b.last.toNat
  full : b.tokens.toNat = burst.toNat → b.remainder.toNat = 0

/-- No step of a refill at this time leaves the machine's integers. -/
structure RefillFits (b : FailureBucket) (now burst interval : UInt64) : Prop where
  tail : b.remainder.toNat + (max now.toNat b.last.toNat - b.last.toNat) % interval.toNat < 2 ^ 64
  whole : (max now.toNat b.last.toNat - b.last.toNat) / interval.toNat +
    (b.remainder.toNat + (max now.toNat b.last.toNat - b.last.toNat) % interval.toNat) / interval.toNat < 2 ^ 64
  room : b.tokens.toNat ≤ burst.toNat
  tokens : b.tokens.toNat + (burst.toNat - b.tokens.toNat) < 2 ^ 64
  next : b.remainder.toNat ≤ interval.toNat

section Buckets

variable {burst interval now : UInt64} {b b' : FailureBucket} {l : List (UInt64 × Bool)}

theorem BucketInv.settled (r : AuditRate burst interval) (inv : BucketInv burst interval b) :
    Bucket.Settled r.rate b.last.toNat b.view := by
  have hrest := inv.rest
  have hpast := inv.past
  refine ⟨inv.tokens, Nat.sub_le _ _, fun _ => ?_, fun h => ?_⟩
  · show b.last.toNat < b.last.toNat - b.remainder.toNat + interval.toNat
    omega
  · show b.last.toNat - b.remainder.toNat = b.last.toNat
    rw [inv.full h]
    exact Nat.sub_zero _

theorem whole_eq (R d I : Nat) : d / I + (R + d % I) / I = (R + d) / I := by
  rcases Nat.eq_zero_or_pos I with h | h
  · simp [h]
  · have hsplit : R + d = R + d % I + I * (d / I) := by
      have := Nat.div_add_mod d I
      omega
    rw [hsplit, Nat.add_mul_div_left _ _ h]
    omega

section

variable (r : AuditRate burst interval)
include r

theorem refill_fits (inv : BucketInv burst interval b) (now : UInt64) :
    RefillFits b now burst interval := by
  have hrest := inv.rest
  have hpast := inv.past
  have htokens := inv.tokens
  have hinterval := r.interval_le
  have hburst := r.burst_le
  have hnow := now.toNat_lt
  have hlast := b.last.toNat_lt
  have hmod := Nat.mod_lt (max now.toNat b.last.toNat - b.last.toNat) r.pos
  refine ⟨by omega, ?_, htokens, by omega, by omega⟩
  rw [whole_eq]
  have := Nat.div_le_self (b.remainder.toNat + (max now.toNat b.last.toNat - b.last.toNat)) interval.toNat
  omega

theorem refill_toNat (inv : BucketInv burst interval b) (now : UInt64) :
    let n := max now.toNat b.last.toNat
    let q := (b.remainder.toNat + (n - b.last.toNat)) / interval.toNat
    (b.refill now burst interval).last.toNat = n ∧ (b.refill now burst interval).tokens.toNat =
        (if burst.toNat - b.tokens.toNat ≤ q then burst.toNat else b.tokens.toNat + q) ∧
      (b.refill now burst interval).remainder.toNat = (if burst.toNat - b.tokens.toNat ≤ q then 0
          else (b.remainder.toNat + (n - b.last.toNat)) % interval.toNat) := by
  intro n q
  have fits := refill_fits r inv now
  have htail := fits.tail
  have hwhole := fits.whole
  have htokens := fits.tokens
  have hroom := fits.room
  have hn : (if now < b.last then b.last else now).toNat = n := by
    split
    · rename_i h
      have := UInt64.lt_iff_toNat_lt.mp h
      omega
    · rename_i h
      have := le_iff_toNat_le.mp (not_lt.mp h)
      omega
  have hdelta : ((if now < b.last then b.last else now) - b.last).toNat = n - b.last.toNat := by
    rw [toNat_sub_of_le _ _ (le_iff_toNat_le.mpr (by rw [hn]; exact Nat.le_max_right _ _)), hn]
  have htail' : (b.remainder + ((if now < b.last then b.last else now) - b.last) % interval).toNat =
      b.remainder.toNat + (n - b.last.toNat) % interval.toNat := by
    rw [toNat_add, toNat_mod, hdelta]
    exact Nat.mod_eq_of_lt htail
  have hwhole' : (((if now < b.last then b.last else now) - b.last) / interval +
      (b.remainder + ((if now < b.last then b.last else now) - b.last) % interval) / interval).toNat = q := by
    have hq : q = (n - b.last.toNat) / interval.toNat +
        (b.remainder.toNat + (n - b.last.toNat) % interval.toNat) / interval.toNat := (whole_eq _ _ _).symm
    rw [toNat_add, toNat_div, toNat_div, htail', hdelta, hq]
    exact Nat.mod_eq_of_lt hwhole
  have hsub : (burst - b.tokens).toNat = burst.toNat - b.tokens.toNat :=
    toNat_sub_of_le _ _ (le_iff_toNat_le.mpr hroom)
  rw [FailureBucket.refill]
  by_cases hfull : burst.toNat - b.tokens.toNat ≤ q
  · rw [if_pos (le_iff_toNat_le.mpr (by rw [hsub, hwhole']; exact hfull)), if_pos hfull, if_pos hfull]
    exact ⟨hn, rfl, rfl⟩
  · rw [if_neg (fun h => hfull (by
      have := le_iff_toNat_le.mp h
      rwa [hsub, hwhole'] at this)), if_neg hfull, if_neg hfull]
    refine ⟨hn, ?_, ?_⟩
    · show (b.tokens + _).toNat = _
      rw [toNat_add, hwhole']
      exact Nat.mod_eq_of_lt (by omega)
    · show (_ % interval).toNat = _
      rw [toNat_mod, htail', Nat.add_mod_mod]

theorem refill_spec (inv : BucketInv burst interval b) (now : UInt64) :
    (b.refill now burst interval).last.toNat = max now.toNat b.last.toNat ∧
      (b.refill now burst interval).view = b.view.drip r.rate (max now.toNat b.last.toNat) ∧
      BucketInv burst interval (b.refill now burst interval) := by
  obtain ⟨hlast, htokens, hremainder⟩ := refill_toNat r inv now
  have htokens' := inv.tokens
  have hpast := inv.past
  have hsettled := inv.settled r
  have hmax := Nat.le_max_right now.toNat b.last.toNat
  have hmod := Nat.mod_lt (b.remainder.toNat + (max now.toNat b.last.toNat - b.last.toNat)) r.pos
  have hdiv := Nat.div_add_mod (b.remainder.toNat + (max now.toNat b.last.toNat - b.last.toNat)) interval.toNat
  have hanchor : max now.toNat b.last.toNat - b.view.anchor =
      b.remainder.toNat + (max now.toNat b.last.toNat - b.last.toNat) := by
    show max now.toNat b.last.toNat - (b.last.toNat - b.remainder.toNat) = _
    omega
  refine ⟨hlast, ?_, ?_⟩
  · by_cases hfull : burst.toNat - b.tokens.toNat ≤
      (b.remainder.toNat + (max now.toNat b.last.toNat - b.last.toNat)) / interval.toNat
    · rw [if_pos hfull] at htokens hremainder
      have hdrip := Bucket.drip_of_le (r := r.rate) hsettled.le (hsettled.past.trans hmax)
        (by rw [hanchor]; exact hfull)
      rw [hdrip]
      unfold FailureBucket.view
      rw [htokens, hremainder, hlast]
      rfl
    · rw [if_neg hfull] at htokens hremainder
      have hdrip := Bucket.drip_of_lt (r := r.rate) (hsettled.past.trans hmax)
        (by rw [hanchor]; exact Nat.lt_of_not_le hfull)
      rw [hdrip, hanchor]
      unfold FailureBucket.view
      rw [htokens, hremainder, hlast]
      show Bucket.mk _ _ = Bucket.mk _ (b.last.toNat - b.remainder.toNat + _ / interval.toNat * interval.toNat)
      congr 1
      rw [Nat.mul_comm _ interval.toNat]
      omega
  · refine ⟨?_, ?_, ?_, fun h => ?_⟩
    · rw [htokens]
      split <;> omega
    · rw [hremainder]
      split
      · exact r.pos
      · exact hmod
    · rw [hremainder, hlast]
      split
      · exact Nat.zero_le _
      · have := Nat.mod_le (b.remainder.toNat + (max now.toNat b.last.toNat - b.last.toNat)) interval.toNat
        omega
    · rw [hremainder]
      rw [htokens] at h
      split at h
      · rename_i hfull
        rw [if_pos hfull]
      · omega

end

theorem BucketInv.ext (inv : BucketInv burst interval b) (inv' : BucketInv burst interval b')
    (hlast : b.last.toNat = b'.last.toNat) (hview : b.view = b'.view) : b = b' := by
  have htokens : b.tokens.toNat = b'.tokens.toNat := congrArg Bucket.tokens hview
  have hanchor : b.last.toNat - b.remainder.toNat = b'.last.toNat - b'.remainder.toNat :=
    congrArg Bucket.anchor hview
  have hpast := inv.past
  have hpast' := inv'.past
  obtain ⟨tokens, remainder, last⟩ := b
  obtain ⟨tokens', remainder', last'⟩ := b'
  dsimp only at htokens hanchor hpast hpast' hlast
  have hremainder : remainder.toNat = remainder'.toNat := by omega
  rw [toNat_inj.mp htokens, toNat_inj.mp hremainder, toNat_inj.mp hlast]

theorem refill_refill (r : AuditRate burst interval) (inv : BucketInv burst interval b) {earlier : UInt64}
    (h : earlier ≤ now) : (b.refill earlier burst interval).refill now burst interval =
      b.refill now burst interval := by
  have hle := le_iff_toNat_le.mp h
  obtain ⟨hlast, hview, hinv⟩ := refill_spec r inv earlier
  obtain ⟨hlast', hview', hinv'⟩ := refill_spec r hinv now
  obtain ⟨hlast'', hview'', hinv''⟩ := refill_spec r inv now
  have hsettled := inv.settled r
  refine hinv'.ext hinv'' ?_ ?_
  · rw [hlast', hlast, hlast'']
    omega
  · rw [hview', hview, hview'', hlast]
    have hmax : max now.toNat (max earlier.toNat b.last.toNat) = max now.toNat b.last.toNat := by omega
    rw [hmax]
    exact Bucket.drip_drip hsettled.le (hsettled.past.trans (Nat.le_max_right _ _)) (by omega)

theorem refill_all (r : AuditRate burst interval) (inv : BucketInv burst interval b) (times : List UInt64)
    (h : ∀ t ∈ times, t ≤ now) :
    (times.foldl (fun b t => b.refill t burst interval) b).refill now burst interval =
      b.refill now burst interval := by
  induction times generalizing b with
  | nil => rfl
  | cons t times ih =>
    rw [List.foldl_cons, ih (refill_spec r inv t).2.2 fun t' ht' => h t' (List.mem_cons_of_mem _ ht')]
    exact refill_refill r inv (h t (List.mem_cons_self ..))

theorem charge_spec (inv : BucketInv burst interval b) (h : b.tokens ≠ 0) :
    b.charge.last = b.last ∧ b.charge.view = b.view.take 1 ∧ BucketInv burst interval b.charge := by
  have hpos : 1 ≤ b.tokens.toNat := Nat.one_le_iff_ne_zero.mpr fun h0 => h (toNat_inj.mp h0)
  have htokens : b.charge.tokens.toNat = b.tokens.toNat - 1 :=
    toNat_sub_of_le _ _ (le_iff_toNat_le.mpr hpos)
  have hle := inv.tokens
  refine ⟨rfl, ?_, ?_, inv.rest, inv.past, fun hfull => ?_⟩
  · unfold FailureBucket.view
    rw [htokens]
    rfl
  · rw [htokens]
    omega
  · rw [htokens] at hfull
    omega

/-! ## 2. Samples -/

/-- A bucket that is asked at these samples: where the answer was yes there was a token, and it is gone. -/
def Asks (burst interval : UInt64) : FailureBucket → List (UInt64 × Bool) → Prop
  | _, [] => True
  | b, (now, true) :: l =>
    (b.refill now burst interval).tokens ≠ 0 ∧ Asks burst interval (b.refill now burst interval).charge l
  | b, (now, false) :: l => Asks burst interval (b.refill now burst interval) l

/-- The latest time seen at every sample, and what was taken there. -/
def effective : Nat → List (UInt64 × Bool) → List (Nat × Nat)
  | _, [] => []
  | since, v :: l => (max v.1.toNat since, v.2.toNat) :: effective (max v.1.toNat since) l

theorem asks_visits (r : AuditRate burst interval) (inv : BucketInv burst interval b)
    (h : Asks burst interval b l) :
    Bucket.Visits r.rate b.last.toNat b.view (effective b.last.toNat l) := by
  induction l generalizing b with
  | nil => trivial
  | cons v l ih =>
    obtain ⟨now, granted⟩ := v
    obtain ⟨hlast, hview, hinv⟩ := refill_spec r inv now
    cases granted with
    | false =>
      refine ⟨Nat.le_max_right _ _, Nat.zero_le _, ?_⟩
      have hrest := ih hinv h
      rw [hlast, hview] at hrest
      exact hrest
    | true =>
      obtain ⟨htoken, hrest⟩ := h
      obtain ⟨hlast', hview', hinv'⟩ := charge_spec hinv htoken
      refine ⟨Nat.le_max_right _ _, ?_, ?_⟩
      · rw [← hview]
        exact Nat.one_le_iff_ne_zero.mpr fun h0 => htoken (toNat_inj.mp h0)
      · have hrest := ih hinv' hrest
        rw [hlast', hlast, hview', hview] at hrest
        exact hrest

theorem effective_of_le {since : Nat} (h : l.Pairwise fun v w => v.1 ≤ w.1) :
    effective since l = l.map fun v => (max v.1.toNat since, v.2.toNat) := by
  induction l generalizing since with
  | nil => rfl
  | cons v l ih =>
    obtain ⟨hhead, htail⟩ := List.pairwise_cons.mp h
    rw [effective, ih htail, List.map_cons]
    congr 1
    refine List.map_congr_left fun w hw => ?_
    have hle := le_iff_toNat_le.mp (hhead w hw)
    congr 1
    omega

/-- How often the answer was yes in a window. -/
def grants (first last : UInt64) (l : List (UInt64 × Bool)) : Nat :=
  l.countP fun v => v.2 && decide (first ≤ v.1) && decide (v.1 ≤ last)

theorem grants_le_spent (first last : UInt64) (since : Nat) (l : List (UInt64 × Bool)) :
    grants first last l ≤ Bucket.spent (max first.toNat since) (max last.toNat since)
      (l.map fun v => (max v.1.toNat since, v.2.toNat)) := by
  induction l with
  | nil => exact Nat.zero_le _
  | cons v l ih =>
    unfold grants at ih ⊢
    rw [List.map_cons, Bucket.spent_cons, List.countP_cons, Nat.add_comm]
    refine Nat.add_le_add ?_ ih
    by_cases h : (v.2 && decide (first ≤ v.1) && decide (v.1 ≤ last)) = true
    · simp only [Bool.and_eq_true, decide_eq_true_eq, le_iff_toNat_le] at h
      obtain ⟨⟨hgranted, hfirst⟩, hlast⟩ := h
      rw [if_pos (by simp [hgranted, le_iff_toNat_le, hfirst, hlast]),
        if_pos (by dsimp only; omega), hgranted]
      exact Nat.le_refl _
    · rw [if_neg h]
      exact Nat.zero_le _

/-- **In a window no more is granted than the burst and a token per interval.** -/
theorem grants_le (r : AuditRate burst interval) (inv : BucketInv burst interval b)
    (h : Asks burst interval b l) (hmonotone : l.Pairwise fun v w => v.1 ≤ w.1) {first last : UInt64}
    (hwindow : first ≤ last) :
    grants first last l ≤ burst.toNat + (last.toNat - first.toNat) / interval.toNat := by
  have hle := le_iff_toNat_le.mp hwindow
  have hvisits := asks_visits r inv h
  rw [effective_of_le hmonotone] at hvisits
  calc grants first last l ≤ _ := grants_le_spent first last b.last.toNat l
    _ ≤ burst.toNat + (max last.toNat b.last.toNat - max first.toNat b.last.toNat) / interval.toNat :=
        Bucket.spent_le (inv.settled r) hvisits (by omega)
    _ ≤ _ := Nat.add_le_add_left (Nat.div_le_div_right (by omega)) _

end Buckets

/-! ## 3. The ring -/

/-- The ring of the code: a slot that is not cleared holds its event. -/
def FailureAudit.ring (q : FailureAudit) : RingBuffer FailureEvent where
  capacity := q.options.capacity
  slots i := if q.slots i = .zero then none else some (q.slots i)
  head := q.head
  tail := (q.head + q.depth) % q.options.capacity
  count := q.depth

/-- What a queue keeps: `l` was queued and is not taken yet. -/
structure AuditInv (o : AuditOptions) (q : FailureAudit) (l : List FailureEvent) : Prop where
  options : q.options = o
  capacity : o.capacity ≤ 1024
  rate : AuditRate o.burst o.refillNs
  ring : q.ring.Holds l
  counters : q.counters.queued = q.counters.taken + q.counters.discarded + UInt64.ofNat q.depth
  closed : q.closed = true → q.depth = 0
  disabled : q.disabled = true → q.closed = true
  offer : BucketInv o.burst o.refillNs q.offer
  take : BucketInv o.burst o.refillNs q.take

/-- What a call does to the bucket that it asks. -/
def AskedOnce (o : AuditOptions) (b : FailureBucket) (sample : Option (UInt64 × Bool)) (b' : FailureBucket) :
    Prop :=
  match sample with
  | none => b' = b
  | some (now, false) => b' = b.refill now o.burst o.refillNs
  | some (now, true) =>
    (b.refill now o.burst o.refillNs).tokens ≠ 0 ∧ b' = (b.refill now o.burst o.refillNs).charge

/-- What a call says and leaves behind. -/
structure AuditStep (o : AuditOptions) (q : FailureAudit) (l : List FailureEvent) (r : AuditReport)
    (q' : FailureAudit) (l' : List FailureEvent) : Prop where
  inv : AuditInv o q' l'
  flow : r.taken.toList ++ l' = l ++ r.queued.toList ∨ (r.taken = none ∧ q'.closed = true)
  shut : q.closed = true → q'.closed = true ∧ r.queued = none ∧ r.taken = none
  offered : AskedOnce o q.offer r.offerSample q'.offer
  took : AskedOnce o q.take r.takeSample q'.take

section Steps

variable {o : AuditOptions} {q : FailureAudit} {l : List FailureEvent} {e : FailureEvent}

theorem FailureEvent.ne_zero_of_valid (h : e.valid = true) : e ≠ .zero := by
  rintro rfl
  revert h
  decide

theorem AuditInv.put (inv : AuditInv o q l) (he : e ≠ .zero) (hroom : q.depth ≠ o.capacity) : ({ q with
      slots := update q.slots ((q.head + q.depth) % q.options.capacity) e
      depth := q.depth + 1 } : FailureAudit).ring.Holds (l ++ [e]) := by
  have hle := inv.ring.count_le
  have hcapacity : q.ring.capacity = o.capacity := congrArg AuditOptions.capacity inv.options
  have hput := inv.ring.put (Nat.lt_of_le_of_ne hle (by rw [hcapacity]; exact hroom)) e
  have htail := RingBuffer.advance_eq inv.ring.tail_lt
  convert hput using 1
  unfold FailureAudit.ring RingBuffer.put
  congr 1
  · funext i
    dsimp only [update]
    by_cases hi : i = (q.head + q.depth) % q.options.capacity
    · simp [hi, he]
    · simp [hi]
  · refine Eq.trans ?_ htail.symm
    show (q.head + (q.depth + 1)) % q.options.capacity =
      ((q.head + q.depth) % q.options.capacity + 1) % q.options.capacity
    rw [Nat.mod_add_mod, Nat.add_assoc]

theorem AuditInv.drop (inv : AuditInv o q l) (hdepth : q.depth ≠ 0) : ∃ l', l = q.slots q.head :: l' ∧
      ({ q with
        slots := update q.slots q.head .zero
        head := (q.head + 1) % q.options.capacity
        depth := q.depth - 1 } : FailureAudit).ring.Holds l' := by
  obtain ⟨x, l', rfl⟩ := inv.ring.ne_nil hdepth
  have hhead := inv.ring.head_full
  have htake := inv.ring.take
  have hadvance := RingBuffer.advance_eq inv.ring.head_lt
  have hx : q.slots q.head = x := by
    change (if q.slots q.head = .zero then none else some (q.slots q.head)) = some x at hhead
    split at hhead
    · cases hhead
    · exact Option.some.inj hhead
  refine ⟨l', by rw [hx], ?_⟩
  convert htake using 1
  unfold FailureAudit.ring RingBuffer.drop
  congr 1
  · funext i
    dsimp only [update]
    by_cases hi : i = q.head
    · simp [hi]
    · simp [hi]
  · exact hadvance.symm
  · show ((q.head + 1) % q.options.capacity + (q.depth - 1)) % q.options.capacity =
      (q.head + q.depth) % q.options.capacity
    rw [Nat.mod_add_mod]
    congr 1
    omega

theorem AuditInv.clear (inv : AuditInv o q l) :
    ({ q with slots := fun _ => .zero, depth := 0 } : FailureAudit).ring.Holds [] := by
  have hhead := inv.ring.head_lt
  exact ⟨hhead, rfl, Nat.zero_le _, rfl, fun i _ => rfl, fun i _ => rfl⟩

/-! ## 4. Steps -/

section

variable (inv : AuditInv o q l)
include inv

theorem AuditInv.still (counters : AuditCounters)
    (h : counters.queued = counters.taken + counters.discarded + UInt64.ofNat q.depth) {r : AuditReport}
    (hqueued : r.queued = none) (htaken : r.taken = none) (hoffer : r.offerSample = none)
    (htake : r.takeSample = none) : AuditStep o q l r { q with counters := counters } l where
  inv := { inv with counters := h }
  flow := .inl (by rw [hqueued, htaken]; simp)
  shut h := ⟨h, hqueued, htaken⟩
  offered := by rw [hoffer]; rfl
  took := by rw [htake]; rfl

theorem offerSection_step (he : e.valid = true) (now : UInt64) :
    ∃ l', AuditStep o q l (.offered e now (.ok (q.offerSection e now).1)) (q.offerSection e now).2 l' := by
  obtain rfl := inv.options
  have hrate := inv.rate
  unfold FailureAudit.offerSection
  by_cases hdisabled : q.disabled = true
  · rw [if_pos hdisabled]
    exact ⟨l, inv.still _ (by exact inv.counters) rfl rfl rfl rfl⟩
  rw [if_neg hdisabled]
  by_cases hclosed : q.closed = true
  · rw [if_pos hclosed]
    exact ⟨l, inv.still _ (by exact inv.counters) rfl rfl rfl rfl⟩
  rw [if_neg hclosed]
  dsimp only
  obtain ⟨-, -, hrefill⟩ := refill_spec hrate inv.offer now
  by_cases htokens : (q.offer.refill now q.options.burst q.options.refillNs).tokens = 0
  · rw [if_pos htokens]
    refine ⟨l, { inv with
        options := rfl, rate := hrate, offer := hrefill }, .inl ?_, fun h => absurd h hclosed, rfl, rfl⟩
    exact (List.append_nil l).symm
  rw [if_neg htokens]
  by_cases hfull : q.depth = q.options.capacity
  · rw [if_pos hfull]
    refine ⟨l, { inv with
        options := rfl, rate := hrate, offer := hrefill }, .inl ?_, fun h => absurd h hclosed, rfl, rfl⟩
    exact (List.append_nil l).symm
  rw [if_neg hfull]
  obtain ⟨-, -, hcharge⟩ := charge_spec hrefill htokens
  have hput := inv.put (FailureEvent.ne_zero_of_valid he) hfull
  refine ⟨l ++ [e], ⟨rfl, inv.capacity, hrate, hput, ?_, fun h => absurd h hclosed, inv.disabled, hcharge,
    inv.take⟩, .inl rfl, fun h => absurd h hclosed, ⟨htokens, rfl⟩, rfl⟩
  · show q.counters.queued + 1 = q.counters.taken + q.counters.discarded + UInt64.ofNat (q.depth + 1)
    rw [inv.counters, ofNat_add, ofNat_one]
    ac_rfl

theorem takeSection_step (clock : Except Failure UInt64) :
    ∃ l', AuditStep o q l (.took (if q.closed then none else clock.toOption) (q.takeSection clock).1)
      (q.takeSection clock).2 l' := by
  obtain rfl := inv.options
  have hrate := inv.rate
  unfold FailureAudit.takeSection
  by_cases hclosed : q.closed = true
  · rw [if_pos hclosed, if_pos hclosed]
    exact ⟨l, inv.still _ (by exact inv.counters) rfl rfl rfl rfl⟩
  rw [if_neg hclosed, if_neg hclosed]
  cases clock with
  | error e => exact ⟨l, inv.still _ (by exact inv.counters) rfl rfl rfl rfl⟩
  | ok now =>
    dsimp only
    obtain ⟨-, -, hrefill⟩ := refill_spec hrate inv.take now
    -- whatever does not take an event leaves the refilled bucket
    have hstays : ∀ outcome : TakeOutcome, (AuditReport.took (some now) outcome).taken = none →
        (AuditReport.took (some now) outcome).takeSample = some (now, false) →
        AuditStep q.options q l (.took (some now) outcome)
          { q with take := q.take.refill now q.options.burst q.options.refillNs } l := by
      intro outcome htaken hsample
      refine ⟨{ inv with
          options := rfl, rate := hrate, take := hrefill }, .inl ?_, fun h => absurd h hclosed, rfl, ?_⟩
      · rw [htaken]
        exact (List.append_nil l).symm
      · rw [hsample]
        rfl
    by_cases htake : q.depth ≠ 0 ∧ (q.take.refill now q.options.burst q.options.refillNs).tokens ≠ 0
    · rw [if_pos htake]
      obtain ⟨hdepth, htokens⟩ := htake
      obtain ⟨l', hl, hdrop⟩ := inv.drop hdepth
      obtain ⟨-, -, hcharge⟩ := charge_spec hrefill htokens
      refine ⟨l', ⟨rfl, inv.capacity, hrate, hdrop, ?_, fun h => absurd h hclosed, inv.disabled, inv.offer,
        hcharge⟩, .inl ?_, fun h => absurd h hclosed, rfl, ⟨htokens, rfl⟩⟩
      · have hsucc : UInt64.ofNat q.depth = UInt64.ofNat (q.depth - 1) + 1 := by
          rw [← ofNat_one, ← ofNat_add, Nat.sub_add_cancel (Nat.pos_of_ne_zero hdepth)]
        show q.counters.queued = q.counters.taken + 1 + q.counters.discarded + UInt64.ofNat (q.depth - 1)
        rw [inv.counters, hsucc]
        ac_rfl
      · rw [hl]
        exact (List.append_nil _).symm
    · rw [if_neg htake]
      by_cases hempty : q.depth = 0
      · rw [if_pos hempty]
        exact ⟨l, hstays _ rfl rfl⟩
      rw [if_neg hempty]
      split
      · exact ⟨l, hstays _ rfl rfl⟩
      · exact ⟨l, hstays _ rfl rfl⟩

theorem auditInv_exec (c : AuditCall) : ∃ l', AuditStep o q l (q.exec c).1 (q.exec c).2 l' := by
  cases c with
  | offer e now lock =>
    unfold FailureAudit.exec FailureAudit.tryOffer
    dsimp only
    by_cases he : e.valid = false
    · rw [if_pos he]
      exact ⟨l, inv.still _ inv.counters rfl rfl rfl rfl⟩
    rw [if_neg he]
    cases lock with
    | busy => exact ⟨l, inv.still _ (by exact inv.counters) rfl rfl rfl rfl⟩
    | failed => exact ⟨l, inv.still _ inv.counters rfl rfl rfl rfl⟩
    | locked => exact offerSection_step inv (by simpa using he) now
  | take clock => exact takeSection_step inv clock
  | close why =>
    refine ⟨[], { inv with
        ring := inv.clear, counters := ?_, closed := fun _ => rfl,
        disabled := fun _ => rfl }, .inr ⟨rfl, rfl⟩, fun _ => ⟨rfl, rfl, rfl⟩, rfl, rfl⟩
    show q.counters.queued = q.counters.taken + (q.counters.discarded + UInt64.ofNat q.depth) + UInt64.ofNat 0
    rw [inv.counters, show UInt64.ofNat 0 = 0 from rfl, UInt64.add_zero]
    ac_rfl

end

/-! ## 5. Runs -/

section

variable (inv : AuditInv o q l)
include inv

theorem auditInv_run (calls : List AuditCall) : ∃ l', AuditInv o (q.run calls) l' := by
  induction calls generalizing q l with
  | nil => exact ⟨l, inv⟩
  | cons c calls ih =>
    obtain ⟨l', step⟩ := auditInv_exec inv c
    exact ih step.inv

theorem reports_closed (hclosed : q.closed = true) (calls : List AuditCall) :
    (q.reports calls).filterMap AuditReport.queued = [] ∧
      (q.reports calls).filterMap AuditReport.taken = [] := by
  induction calls generalizing q l with
  | nil => exact ⟨rfl, rfl⟩
  | cons c calls ih =>
    obtain ⟨l', step⟩ := auditInv_exec inv c
    obtain ⟨hstays, hqueued, htaken⟩ := step.shut hclosed
    obtain ⟨hqueued', htaken'⟩ := ih step.inv hstays
    unfold FailureAudit.reports
    rw [List.filterMap_cons_none hqueued, List.filterMap_cons_none htaken]
    exact ⟨hqueued', htaken'⟩

omit inv in
theorem filterMap_cons_toList {α β : Type} (f : α → Option β) (a : α) (xs : List α) :
    (a :: xs).filterMap f = (f a).toList ++ xs.filterMap f := by
  rw [List.filterMap_cons]
  cases f a <;> rfl

theorem taken_upTo (calls : List AuditCall) : (q.reports calls).filterMap AuditReport.taken <+:
      l ++ (q.reports calls).filterMap AuditReport.queued := by
  induction calls generalizing q l with
  | nil => exact List.nil_prefix
  | cons c calls ih =>
    obtain ⟨l', step⟩ := auditInv_exec inv c
    unfold FailureAudit.reports
    rw [filterMap_cons_toList, filterMap_cons_toList]
    rcases step.flow with hflow | ⟨htaken, hclosed⟩
    · rw [← List.append_assoc, ← hflow, List.append_assoc]
      exact List.prefix_append_right_inj _ |>.mpr (ih step.inv)
    · rw [htaken, (reports_closed step.inv hclosed calls).2]
      exact List.nil_prefix

omit inv in
theorem asks_reports {sample : AuditReport → Option (UInt64 × Bool)} {bucket : FailureAudit → FailureBucket}
    (hstep : ∀ q l r q' l', AuditStep o q l r q' l' → AskedOnce o (bucket q) (sample r) (bucket q'))
    (inv : AuditInv o q l) (calls : List AuditCall) :
    Asks o.burst o.refillNs (bucket q) ((q.reports calls).filterMap sample) := by
  induction calls generalizing q l with
  | nil => trivial
  | cons c calls ih =>
    obtain ⟨l', step⟩ := auditInv_exec inv c
    have hasked := hstep _ _ _ _ _ step
    have hrest := ih step.inv
    unfold FailureAudit.reports
    rw [List.filterMap_cons]
    unfold AskedOnce at hasked
    split at hasked <;> rename_i hsample
    · rw [hsample, ← hasked]
      exact hrest
    · rw [hsample]
      rw [hasked] at hrest
      exact hrest
    · rw [hsample]
      rw [hasked.2] at hrest
      exact ⟨hasked.1, hrest⟩

theorem asks_offers (calls : List AuditCall) :
    Asks o.burst o.refillNs q.offer ((q.reports calls).filterMap AuditReport.offerSample) :=
  asks_reports (fun _ _ _ _ _ step => step.offered) inv calls

theorem asks_takes (calls : List AuditCall) :
    Asks o.burst o.refillNs q.take ((q.reports calls).filterMap AuditReport.takeSample) :=
  asks_reports (fun _ _ _ _ _ step => step.took) inv calls

theorem AuditInv.free_zero {i : Nat} (hi : i < o.capacity)
    (hfree : ∀ k, k < q.depth → (q.head + k) % o.capacity ≠ i) : q.slots i = .zero := by
  have hcapacity : q.ring.capacity = o.capacity := congrArg AuditOptions.capacity inv.options
  have hhead : q.head < o.capacity := hcapacity ▸ inv.ring.head_lt
  have hcount : q.depth = l.length := inv.ring.count_eq
  -- how far the slot is from the head, around the end
  have hat : (q.head + (i + o.capacity - q.head) % o.capacity) % o.capacity = i := by
    rw [Nat.add_mod_mod, show q.head + (i + o.capacity - q.head) = i + o.capacity by omega, Nat.add_mod_right]
    exact Nat.mod_eq_of_lt hi
  have hfar : q.depth ≤ (i + o.capacity - q.head) % o.capacity :=
    Nat.le_of_not_lt fun hlt => hfree _ hlt hat
  have hcell := inv.ring.cells ((i + o.capacity - q.head) % o.capacity)
    (by rw [hcapacity]; exact Nat.mod_lt _ (by omega))
  rw [hcapacity, List.getElem?_eq_none (by omega)] at hcell
  change (if q.slots ((q.head + _) % o.capacity) = .zero then none else some _) = none at hcell
  rw [hat] at hcell
  by_contra hne
  rw [if_neg hne] at hcell
  cases hcell

end

end Steps

theorem auditInv_create {o : AuditOptions} {now : UInt64} {memory sync : Bool} {q : FailureAudit}
    (h : FailureAudit.create o now memory sync = .ok q) : AuditInv o q [] := by
  unfold FailureAudit.create at h
  split at h
  · cases h
  rename_i hrange
  split at h
  · cases h
  split at h
  · cases h
  split at h
  · cases h
  simp only [not_or, gt_iff_lt, Nat.not_lt, not_lt, le_iff_toNat_le] at hrange
  obtain ⟨hpos, hcapacity, -, -, hburst, hburst_le, hrefill, hrefill_le⟩ := hrange
  have hburst_pos : 0 < o.burst.toNat := Nat.pos_of_ne_zero fun h0 => hburst (toNat_inj.mp h0)
  have hrefill_pos : 0 < o.refillNs.toNat := Nat.pos_of_ne_zero fun h0 => hrefill (toNat_inj.mp h0)
  have hbucket : BucketInv o.burst o.refillNs ⟨o.burst, 0, now⟩ :=
    ⟨Nat.le_refl _, hrefill_pos, Nat.zero_le _, fun _ => rfl⟩
  cases h
  refine ⟨rfl, hcapacity, ⟨hburst_pos, hburst_le, hrefill_pos, hrefill_le⟩, ?_, rfl, fun h => absurd h (by simp),
    fun h => absurd h (by simp), hbucket, hbucket⟩
  exact ⟨Nat.pos_of_ne_zero hpos, rfl, Nat.zero_le _, rfl, fun i _ => rfl, fun i _ => rfl⟩

/-- **The queue of the failed authentications**, from its creation on, whatever the calls and their order. -/
theorem audit_queue {o : AuditOptions} {now : UInt64} {memory sync : Bool} {q : FailureAudit}
    (h : FailureAudit.create o now memory sync = .ok q) (calls : List AuditCall) :
    -- what is taken is a prefix of what was reported as queued
    (q.reports calls).filterMap AuditReport.taken <+: (q.reports calls).filterMap AuditReport.queued ∧
      -- the account, the bound of the depth and the cleared slots
      (q.run calls).counters.queued = (q.run calls).counters.taken + (q.run calls).counters.discarded +
        UInt64.ofNat (q.run calls).depth ∧
      (q.run calls).depth ≤ o.capacity ∧
      (∀ i, i < o.capacity → (∀ k, k < (q.run calls).depth → ((q.run calls).head + k) % o.capacity ≠ i) →
        (q.run calls).slots i = .zero) ∧
      -- nothing moves behind a close
      (∀ why rest, (((q.run calls).close why).reports rest).filterMap AuditReport.queued = [] ∧
        (((q.run calls).close why).reports rest).filterMap AuditReport.taken = []) ∧
      -- the windows of the two buckets
      (((q.reports calls).filterMap AuditReport.offerSample).Pairwise (fun v w => v.1 ≤ w.1) →
        ∀ first last, first ≤ last → grants first last ((q.reports calls).filterMap AuditReport.offerSample) ≤
          o.burst.toNat + (last.toNat - first.toNat) / o.refillNs.toNat) ∧
      (((q.reports calls).filterMap AuditReport.takeSample).Pairwise (fun v w => v.1 ≤ w.1) →
        ∀ first last, first ≤ last → grants first last ((q.reports calls).filterMap AuditReport.takeSample) ≤
          o.burst.toNat + (last.toNat - first.toNat) / o.refillNs.toNat) ∧
      -- refilling the buckets in steps and at once, and the integers of any refill
      (∀ b ∈ [(q.run calls).offer, (q.run calls).take],
        (∀ (times : List UInt64) (now : UInt64), (∀ t ∈ times, t ≤ now) →
          (times.foldl (fun b t => b.refill t o.burst o.refillNs) b).refill now o.burst o.refillNs =
            b.refill now o.burst o.refillNs) ∧
        ∀ now, RefillFits b now o.burst o.refillNs) := by
  have inv := auditInv_create h
  obtain ⟨l, after⟩ := auditInv_run inv calls
  have hcapacity : (q.run calls).ring.capacity = o.capacity := congrArg AuditOptions.capacity after.options
  refine ⟨taken_upTo inv calls, after.counters, hcapacity ▸ after.ring.count_le, fun i => after.free_zero,
    fun why rest => ?_, fun hmonotone first last => ?_, fun hmonotone first last => ?_, fun b hb => ?_⟩
  · obtain ⟨l', step⟩ := auditInv_exec after (.close why)
    exact reports_closed step.inv rfl rest
  · exact grants_le inv.rate inv.offer (asks_offers inv calls) hmonotone
  · exact grants_le inv.rate inv.take (asks_takes inv calls) hmonotone
  · have hbucket : BucketInv o.burst o.refillNs b := by
      simp only [List.mem_cons, List.not_mem_nil, or_false] at hb
      rcases hb with rfl | rfl
      · exact after.offer
      · exact after.take
    exact ⟨fun times now => refill_all after.rate hbucket times, refill_fits after.rate hbucket⟩

/-- A request that was refused. -/
def refusedRequest (id : UInt8) : FailureEvent := ⟨Vector.replicate 16 id, 3, 4, 1, 1001, 2⟩

/-- Two slots and a burst of three: the third event goes around the end, the fourth comes too soon, and two
    are left when the queue is closed. -/
def auditedRequests : List AuditCall :=
  [.offer (refusedRequest 1) 0 .locked, .offer (refusedRequest 2) 0 .locked, .take (.ok 0),
    .offer (refusedRequest 3) 1 .locked, .offer (refusedRequest 4) 1 .locked, .close .stop]

theorem audit_queue_one :
    ∃ q, FailureAudit.create ⟨2, 1000, 3, 5⟩ 0 true true = .ok q ∧
      (q.reports auditedRequests).filterMap AuditReport.taken = [refusedRequest 1] ∧
      (q.reports auditedRequests).filterMap AuditReport.queued = [refusedRequest 1, refusedRequest 2, refusedRequest 3] ∧
      (q.reports auditedRequests).filterMap AuditReport.taken <+:
        (q.reports auditedRequests).filterMap AuditReport.queued ∧
      (q.run auditedRequests).counters.rate = 1 ∧ (q.run auditedRequests).counters.discarded = 2 ∧
      (q.run auditedRequests).slots 0 = .zero ∧ (q.run auditedRequests).slots 1 = .zero := by
  have hcreate : FailureAudit.create ⟨2, 1000, 3, 5⟩ 0 true true = .ok _ := rfl
  obtain ⟨htaken, -, -, hcleared, -⟩ := audit_queue hcreate auditedRequests
  exact ⟨_, hcreate, by decide, by decide, htaken, by decide, by decide,
    hcleared 0 (by decide) fun k hk => absurd hk k.not_lt_zero, hcleared 1 (by decide) fun k hk => absurd hk k.not_lt_zero⟩

end Vireo.Service
