/-
  File:      Vireo/Lib/TokenBucket.lean
  Subject:   THE TOKEN BUCKET: one token per interval, up to a burst.
-/
import Mathlib.Algebra.BigOperators.Group.List.Basic
import Mathlib.Tactic.Ring

namespace Vireo.Lib

open Nat (add_mul mul_comm mul_le_mul_right one_mul zero_add zero_le zero_mul)

/-- How much a bucket holds, and how long a token takes. -/
structure Rate where
  burst : Nat
  interval : Nat
  pos : 0 < interval

/-- Whole tokens, counted at the anchor; what has passed since then is not counted yet. -/
structure Bucket where
  tokens : Nat
  anchor : Nat
deriving DecidableEq

namespace Bucket

/-- A token for every whole interval since the anchor, while there is room; a full bucket keeps nothing of an
    interval. -/
def drip (r : Rate) (now : Nat) (b : Bucket) : Bucket :=
  if b.tokens < r.burst then
    if b.anchor + r.interval ≤ now then drip r now ⟨b.tokens + 1, b.anchor + r.interval⟩ else b
  else ⟨r.burst, now⟩
termination_by r.burst - b.tokens

/-- Tokens are taken out. -/
def take (b : Bucket) (cost : Nat) : Bucket := { b with tokens := b.tokens - cost }

/-- What the bucket is worth, in units of time. -/
def credit (r : Rate) (b : Bucket) (now : Nat) : Nat := b.tokens * r.interval + (now - b.anchor)

/-- The bucket is as `drip` leaves it at this time. -/
structure Settled (r : Rate) (now : Nat) (b : Bucket) : Prop where
  le : b.tokens ≤ r.burst
  past : b.anchor ≤ now
  part : b.tokens < r.burst → now < b.anchor + r.interval
  full : b.tokens = r.burst → b.anchor = now

variable {r : Rate} {b b' : Bucket} {now since : Nat} {l : List (Nat × Nat)}

/-! ## 1. Dripping -/

theorem settled_drip (h : b.anchor ≤ now) : Settled r now (b.drip r now) := by
  fun_induction drip r now b with
  | case1 b hlt hstep ih => exact ih hstep
  | case2 b hlt hstop => exact ⟨hlt.le, h, fun _ => Nat.lt_of_not_le hstop, fun e => absurd e hlt.ne⟩
  | case3 b hfull => exact ⟨le_rfl, le_rfl, fun h => absurd h (Nat.lt_irrefl _), fun _ => rfl⟩

theorem credit_drip (hle : b.tokens ≤ r.burst) (h : b.anchor ≤ now) :
    credit r (b.drip r now) now = min (r.burst * r.interval) (credit r b now) := by
  fun_induction drip r now b with
  | case1 b hlt hstep ih =>
    rw [ih hlt hstep]
    congr 1
    show (b.tokens + 1) * r.interval + (now - (b.anchor + r.interval)) =
      b.tokens * r.interval + (now - b.anchor)
    rw [add_mul, one_mul]
    omega
  | case2 b hlt hstop =>
    have hroom : (b.tokens + 1) * r.interval ≤ r.burst * r.interval := mul_le_mul_right _ hlt
    rw [add_mul, one_mul] at hroom
    refine (Nat.min_eq_right ?_).symm
    show b.tokens * r.interval + (now - b.anchor) ≤ r.burst * r.interval
    omega
  | case3 b hfull =>
    have he : b.tokens = r.burst := Nat.le_antisymm hle (Nat.le_of_not_lt hfull)
    show r.burst * r.interval + (now - now) = min _ (b.tokens * r.interval + (now - b.anchor))
    rw [he, Nat.sub_self]
    omega

theorem Settled.rest_lt (h : Settled r now b) : now - b.anchor < r.interval := by
  have hpos := r.pos
  have hpart := h.part
  have hfull := h.full
  have hle := h.le
  rcases Nat.lt_or_eq_of_le hle with hlt | he
  · have := hpart hlt
    omega
  · have := hfull he
    omega

/-- **A settled bucket is its credit.** -/
theorem Settled.ext (h : Settled r now b) (h' : Settled r now b')
    (he : credit r b now = credit r b' now) : b = b' := by
  have htokens : ∀ c : Bucket, Settled r now c → credit r c now / r.interval = c.tokens := by
    intro c hc
    unfold credit
    rw [mul_comm, Nat.mul_add_div r.pos, Nat.div_eq_of_lt hc.rest_lt, Nat.add_zero]
  have hrest : ∀ c : Bucket, Settled r now c → credit r c now % r.interval = now - c.anchor := by
    intro c hc
    unfold credit
    rw [mul_comm, Nat.mul_add_mod, Nat.mod_eq_of_lt hc.rest_lt]
  have ht : b.tokens = b'.tokens := by
    rw [← htokens b h, ← htokens b' h', he]
  have ha : now - b.anchor = now - b'.anchor := by
    rw [← hrest b h, ← hrest b' h', he]
  have hp := h.past
  have hp' := h'.past
  cases b
  cases b'
  simp only [mk.injEq] at *
  exact ⟨ht, by omega⟩

theorem drip_unique (hle : b.tokens ≤ r.burst) (h : b.anchor ≤ now) (h' : Settled r now b')
    (he : credit r b' now = min (r.burst * r.interval) (credit r b now)) : b.drip r now = b' :=
  (settled_drip h).ext h' ((credit_drip hle h).trans he.symm)

theorem credit_later {later : Nat} (h : b.anchor ≤ now) (hlater : now ≤ later) :
    credit r b later = credit r b now + (later - now) := by
  unfold credit
  omega

/-- **It does not matter how often one looks.** -/
theorem drip_drip {later : Nat} (hle : b.tokens ≤ r.burst) (h : b.anchor ≤ now)
    (hlater : now ≤ later) : (b.drip r now).drip r later = b.drip r later := by
  have hs := settled_drip (r := r) h
  refine drip_unique hs.le (hs.past.trans hlater) (settled_drip (h.trans hlater)) ?_
  rw [credit_drip hle (h.trans hlater), credit_later hs.past hlater, credit_drip hle h, credit_later h hlater]
  omega

theorem Settled.drip_self (h : Settled r now b) : b.drip r now = b := by
  refine drip_unique h.le h.past h ?_
  have hmul := mul_le_mul_right r.interval h.le
  refine (Nat.min_eq_right ?_).symm
  rcases Nat.lt_or_eq_of_le h.le with hlt | he
  · have hroom : (b.tokens + 1) * r.interval ≤ r.burst * r.interval := mul_le_mul_right _ hlt
    rw [add_mul, one_mul] at hroom
    have hrest := h.rest_lt
    unfold credit
    omega
  · unfold credit
    rw [h.full he, Nat.sub_self]
    exact hmul

theorem settled_full (r : Rate) (now : Nat) : Settled r now ⟨r.burst, now⟩ :=
  ⟨le_rfl, le_rfl, fun h => absurd h (Nat.lt_irrefl _), fun _ => rfl⟩

theorem drip_full {later : Nat} (hle : b.tokens ≤ r.burst) (h : b.anchor ≤ now) (hlater : now ≤ later)
    (hfull : (b.drip r now).tokens = r.burst) : b.drip r later = ⟨r.burst, later⟩ := by
  rw [← drip_drip hle h hlater]
  unfold drip
  rw [if_neg (by rw [hfull]; exact Nat.lt_irrefl _)]

theorem drip_of_le (hle : b.tokens ≤ r.burst) (hpast : b.anchor ≤ now)
    (h : r.burst - b.tokens ≤ (now - b.anchor) / r.interval) : b.drip r now = ⟨r.burst, now⟩ := by
  refine drip_unique hle hpast (settled_full r now) ?_
  have hmul : (r.burst - b.tokens) * r.interval ≤ now - b.anchor := (Nat.le_div_iff_mul_le r.pos).mp h
  rw [Nat.sub_mul] at hmul
  show r.burst * r.interval + (now - now) = min _ (b.tokens * r.interval + (now - b.anchor))
  omega

/-- A bucket that does not get full counts its whole intervals. -/
theorem drip_of_lt (hpast : b.anchor ≤ now) (h : (now - b.anchor) / r.interval < r.burst - b.tokens) :
    b.drip r now = ⟨b.tokens + (now - b.anchor) / r.interval,
      b.anchor + (now - b.anchor) / r.interval * r.interval⟩ := by
  generalize hq : (now - b.anchor) / r.interval = q at h ⊢
  have hle : b.tokens ≤ r.burst := by omega
  have hlow : q * r.interval ≤ now - b.anchor := by
    rw [← hq]
    exact Nat.div_mul_le_self _ _
  have hhigh : now - b.anchor < (q + 1) * r.interval := by
    rw [← hq]
    exact Nat.lt_mul_of_div_lt (Nat.lt_succ_self _) r.pos
  have hroom : (b.tokens + q + 1) * r.interval ≤ r.burst * r.interval :=
    mul_le_mul_right _ (by omega)
  simp only [add_mul, one_mul] at hhigh hroom
  refine drip_unique hle hpast ⟨?_, ?_, fun _ => ?_, fun he => ?_⟩ ?_
  · show b.tokens + q ≤ r.burst
    omega
  · show b.anchor + q * r.interval ≤ now
    omega
  · show now < b.anchor + q * r.interval + r.interval
    omega
  · have he' : b.tokens + q = r.burst := he
    omega
  · show (b.tokens + q) * r.interval + (now - (b.anchor + q * r.interval)) =
      min _ (b.tokens * r.interval + (now - b.anchor))
    rw [add_mul]
    omega

/-! ## 2. Taking -/

theorem Settled.take (h : Settled r now b) (cost : Nat) : Settled r now (b.take cost) := by
  have hle := h.le
  have hpast := h.past
  have hrest := h.rest_lt
  refine ⟨(Nat.sub_le _ _).trans hle, hpast, fun _ => ?_, fun he => h.full ?_⟩
  · show now < b.anchor + r.interval
    omega
  · have he' : b.tokens - cost = r.burst := he
    omega

theorem credit_take (r : Rate) (now : Nat) {cost : Nat} (h : cost ≤ b.tokens) :
    credit r (b.take cost) now + cost * r.interval = credit r b now := by
  have hmul : (b.tokens - cost) * r.interval + cost * r.interval = b.tokens * r.interval := by
    rw [← add_mul, Nat.sub_add_cancel h]
  unfold credit
  show (b.tokens - cost) * r.interval + (now - b.anchor) + cost * r.interval = _
  omega

theorem Settled.credit_le (h : Settled r now b) : credit r b now ≤ r.burst * r.interval := by
  have hc := credit_drip h.le h.past
  rw [h.drip_self] at hc
  omega

/-! ## 3. Windows -/

/-- Visits at these times, each of which takes what is there. -/
def Visits (r : Rate) : Nat → Bucket → List (Nat × Nat) → Prop
  | _, _, [] => True
  | since, b, (t, cost) :: l =>
    since ≤ t ∧ cost ≤ (b.drip r t).tokens ∧ Visits r t ((b.drip r t).take cost) l

theorem Visits.earlier {since' : Nat} (h : Visits r since b l) (hle : since' ≤ since) :
    Visits r since' b l := by
  cases l with
  | nil => trivial
  | cons v l => exact ⟨hle.trans h.1, h.2⟩

/-- What the visits between two times have taken. -/
def spent (first last : Nat) (l : List (Nat × Nat)) : Nat :=
  ((l.filter fun v => decide (first ≤ v.1 ∧ v.1 ≤ last)).map (·.2)).sum

theorem spent_cons (first last : Nat) (v : Nat × Nat) (l : List (Nat × Nat)) :
    spent first last (v :: l) = (if first ≤ v.1 ∧ v.1 ≤ last then v.2 else 0) + spent first last l := by
  unfold spent
  rw [List.filter_cons]
  by_cases h : first ≤ v.1 ∧ v.1 ≤ last
  · rw [if_pos (decide_eq_true h), if_pos h, List.map_cons, List.sum_cons]
  · rw [if_neg (by simpa using h), if_neg h, zero_add]

theorem spent_late {first last : Nat} (h : Visits r since b l) (hlate : last < since) :
    spent first last l = 0 := by
  induction l generalizing since b with
  | nil => rfl
  | cons v l ih =>
    obtain ⟨hsince, -, hrest⟩ := h
    rw [spent_cons, if_neg (by omega), ih hrest (by omega)]

/-- From a time inside the window on: no more than the credit then and the time that is left. -/
theorem spent_from {last : Nat} (first : Nat) (hb : Settled r since b) (h : Visits r since b l)
    (hlast : since ≤ last) :
    spent first last l * r.interval ≤ credit r b since + (last - since) := by
  induction l generalizing since b with
  | nil =>
    show 0 * r.interval ≤ _
    rw [zero_mul]
    exact zero_le _
  | cons v l ih =>
    obtain ⟨hsince, hcost, hrest⟩ := h
    by_cases hlate : last < v.1
    · rw [spent_cons, if_neg (by omega), spent_late hrest hlate, zero_add, zero_mul]
      exact zero_le _
    · have hpast := hb.past.trans hsince
      have hs := settled_drip (r := r) hpast
      have hrec := ih (hs.take v.2) hrest (Nat.le_of_not_lt hlate)
      have htake := credit_take r v.1 hcost
      have hdrip : credit r (b.drip r v.1) v.1 ≤ credit r b since + (v.1 - since) := by
        rw [credit_drip hb.le hpast, ← credit_later hb.past hsince]
        exact Nat.min_le_right _ _
      have hhead : (if first ≤ v.1 ∧ v.1 ≤ last then v.2 else 0) * r.interval ≤ v.2 * r.interval := by
        refine mul_le_mul_right _ ?_
        split
        · exact le_rfl
        · exact zero_le _
      rw [spent_cons, add_mul]
      omega

/-- **In a window no more is taken than the burst and one token per interval.** -/
theorem spent_le {first last : Nat} (hb : Settled r since b) (h : Visits r since b l) (hwindow : first ≤ last) :
    spent first last l ≤ r.burst + (last - first) / r.interval := by
  suffices hcredit : spent first last l * r.interval ≤ r.burst * r.interval + (last - first) by
    have hdiv := Nat.div_le_div_right (c := r.interval) hcredit
    rwa [Nat.mul_div_cancel _ r.pos, mul_comm, Nat.mul_add_div r.pos] at hdiv
  induction l generalizing since b with
  | nil =>
    show 0 * r.interval ≤ _
    rw [zero_mul]
    exact zero_le _
  | cons v l ih =>
    obtain ⟨hsince, hcost, hrest⟩ := h
    have hs := settled_drip (r := r) (hb.past.trans hsince)
    rw [spent_cons]
    by_cases hin : first ≤ v.1 ∧ v.1 ≤ last
    · -- the first visit inside: the bucket holds at most a burst, and the window has shrunk
      have hrec := spent_from first (hs.take v.2) hrest hin.2
      have htake := credit_take r v.1 hcost
      have hcap := hs.credit_le
      rw [if_pos hin, add_mul]
      omega
    · rw [if_neg hin, zero_add]
      exact ih (hs.take v.2) hrest

end Bucket

end Vireo.Lib
