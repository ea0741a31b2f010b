/-
  File:      Vireo/Security/RateLimiterRefine.lean
  Subject:   ONE CHECK of the rate limiter is one check of the ideal limiter.

  The table has a slot for a few buckets only. A slot changes hands when its bucket is full, and then
  nothing is lost: a bucket without a slot is taken for full.
-/
import Mathlib.Data.List.Pairwise
import Vireo.Security.RateLimiterSpec

namespace Vireo.Security

open Vireo.Lib List
open RateLimiter
open UInt64 (le_iff_toNat_le le_trans not_lt)

variable {l : RateLimiter} {bs : Buckets} {now : UInt64} {plans : List Plan} {items : List Item}
  {start : UInt64} {policies : List Policy}

/-! ## 1. The slots -/

/-- What the fifth loop makes of a plan: it keeps its slot, or gets one of those that were found. -/
def Assigned (found : List Nat) (plan plan' : Plan) : Prop :=
  (plan.slot ≠ none ∧ plan' = plan) ∨ (plan.slot = none ∧ ∃ i ∈ found, plan' = { plan with slot := some i })

theorem assigned_assign {found : List Nat} (h : missing plans ≤ found.length) :
    List.Forall₂ (Assigned found) plans (assign plans found) := by
  -- the slots that are left are slots that were found
  suffices hgen : ∀ slots : List Nat, (∀ i ∈ slots, i ∈ found) → missing plans ≤ slots.length →
      List.Forall₂ (Assigned found) plans (assign plans slots) from
    hgen found (fun _ => id) h
  clear h
  induction plans with
  | nil => exact fun _ _ _ => .nil
  | cons plan plans ih =>
    intro slots hsub hlen
    cases hslot : plan.slot with
    | some i =>
      rw [missing_some hslot] at hlen
      rw [assign_some hslot]
      exact .cons (.inl ⟨by rw [hslot]; nofun, rfl⟩) (ih slots hsub hlen)
    | none =>
      rw [missing_none hslot] at hlen
      cases slots with
      | nil => exact absurd hlen (Nat.not_succ_le_zero _)
      | cons i slots =>
        rw [assign_none hslot]
        refine .cons (.inr ⟨hslot, i, hsub i (mem_cons_self ..), rfl⟩) (ih slots ?_ ?_)
        · exact fun j hj => hsub j (mem_cons_of_mem _ hj)
        · exact Nat.le_of_succ_le_succ hlen

theorem forall₂_mem_right {α β : Type} {R : α → β → Prop} {xs : List α} {ys : List β}
    (h : List.Forall₂ R xs ys) {y : β} (hy : y ∈ ys) : ∃ x ∈ xs, R x y := by
  induction h with
  | nil => exact absurd hy not_mem_nil
  | cons hxy _ ih =>
    rcases mem_cons.mp hy with rfl | hy
    · exact ⟨_, mem_cons_self .., hxy⟩
    · obtain ⟨x, hx, hr⟩ := ih hy
      exact ⟨x, mem_cons_of_mem _ hx, hr⟩

/-- Two plans for different slots. -/
def Plan.Apart (a b : Plan) : Prop := ∀ i, a.slot = some i → b.slot ≠ some i

/-- Every slot is written once: those that plans had are different, and none of them is among the
    ones that were found. -/
theorem assign_apart {found : List Nat} (hfound : found.Nodup)
    (hfree : ∀ plan ∈ plans, ∀ i, plan.slot = some i → i ∉ found) (hplans : plans.Pairwise Plan.Apart)
    (hlen : missing plans ≤ found.length) :
    (assign plans found).Pairwise Plan.Apart := by
  induction plans generalizing found with
  | nil => exact .nil
  | cons plan plans ih =>
    obtain ⟨hhead, htail⟩ := pairwise_cons.mp hplans
    have hfree' : ∀ p ∈ plans, ∀ i, p.slot = some i → i ∉ found :=
      fun p hp => hfree p (mem_cons_of_mem _ hp)
    cases hslot : plan.slot with
    | some i =>
      rw [missing_some hslot] at hlen
      rw [assign_some hslot]
      refine pairwise_cons.mpr ⟨fun b hb k hk hbk => ?_, ih hfound hfree' htail hlen⟩
      obtain ⟨a, ha, hassigned⟩ := forall₂_mem_right (assigned_assign hlen) hb
      rcases hassigned with ⟨-, rfl⟩ | ⟨-, j, hj, rfl⟩
      · exact hhead b ha k hk hbk
      · obtain rfl : j = k := Option.some.inj hbk
        exact hfree plan (mem_cons_self ..) j hk hj
    | none =>
      rw [missing_none hslot] at hlen
      cases found with
      | nil => exact absurd hlen (Nat.not_succ_le_zero _)
      | cons i found =>
        obtain ⟨hi, hrest⟩ := nodup_cons.mp hfound
        have hlen' : missing plans ≤ found.length := Nat.le_of_succ_le_succ hlen
        rw [assign_none hslot]
        refine pairwise_cons.mpr ⟨fun b hb k hk hbk => ?_, ih hrest ?_ htail hlen'⟩
        · obtain rfl : i = k := Option.some.inj hk
          obtain ⟨a, ha, hassigned⟩ := forall₂_mem_right (assigned_assign hlen') hb
          rcases hassigned with ⟨-, rfl⟩ | ⟨-, j, hj, rfl⟩
          · exact hfree' b ha i hbk (mem_cons_self ..)
          · exact hi (Option.some.inj hbk ▸ hj)
        · exact fun p hp k hk hkf => hfree' p hp k hk (mem_cons_of_mem _ hkf)

/-- What the last loop leaves in a slot: the entry of the plan for it, or what was there. -/
theorem commit_entries (h : plans.Pairwise Plan.Apart) (i : Nat) :
    (∃ plan ∈ plans, plan.slot = some i ∧ (l.commit plans).entries i = plan.entry) ∨
      ((∀ plan ∈ plans, plan.slot ≠ some i) ∧ (l.commit plans).entries i = l.entries i) := by
  induction plans generalizing l with
  | nil => exact .inr ⟨fun _ hp => absurd hp not_mem_nil, rfl⟩
  | cons plan plans ih =>
    obtain ⟨hhead, htail⟩ := pairwise_cons.mp h
    have hcommit : l.commit (plan :: plans) = (l.commitPlan plan).commit plans := rfl
    rw [hcommit]
    rcases ih (l := l.commitPlan plan) htail with ⟨p, hp, hslot, he⟩ | ⟨hnone, he⟩
    · exact .inl ⟨p, mem_cons_of_mem _ hp, hslot, he⟩
    rw [he]
    by_cases hslot : plan.slot = some i
    · refine .inl ⟨plan, mem_cons_self .., hslot, ?_⟩
      unfold commitPlan
      rw [hslot]
      exact Function.update_self ..
    · refine .inr ⟨fun p hp => ?_, ?_⟩
      · rcases mem_cons.mp hp with rfl | hp
        · exact hslot
        · exact hnone p hp
      · unfold commitPlan
        split
        · rfl
        rename_i k hk
        have hki : i ≠ k := fun e => hslot (by rw [hk, e])
        exact Function.update_of_ne hki _ _

theorem commit_fields (l : RateLimiter) (plans : List Plan) :
    (l.commit plans).maxKeys = l.maxKeys ∧ (l.commit plans).policies = l.policies := by
  induction plans generalizing l with
  | nil => exact ⟨rfl, rfl⟩
  | cons plan plans ih =>
    obtain ⟨hk, hp⟩ := ih (l.commitPlan plan)
    have hone : (l.commitPlan plan).maxKeys = l.maxKeys ∧ (l.commitPlan plan).policies = l.policies := by
      unfold commitPlan
      split <;> exact ⟨rfl, rfl⟩
    exact ⟨hk.trans hone.1, hp.trans hone.2⟩

/-! ## 2. A check that writes nothing -/

theorem WellFormed.later (wf : WellFormed l) (hnow : l.lastNow ≤ now) :
    WellFormed { l with lastNow := now } :=
  { wf with anchor := fun i hi ho => le_trans (wf.anchor i hi ho) hnow }

section

variable (ref : Refines l bs)
include ref

section

variable (hnow : l.lastNow ≤ now)
include hnow

theorem Refines.later : Refines { l with lastNow := now } bs := by
  have hnow' : l.lastNow.toNat ≤ now.toNat := le_iff_toNat_le.mp hnow
  exact ⟨ref.tokens, fun p key => (ref.anchor p key).trans hnow',
    fun i hi p key hhas t ht => ref.held i hi p key hhas t (hnow'.trans ht),
    fun p key hfree t ht => ref.absent p key hfree t (hnow'.trans ht)⟩

theorem Refines.drip (p : Nat) (key : Key) {t : Nat} (ht : now.toNat ≤ t) :
    (dripAll l.policies now.toNat bs p key).drip (rateAt l.policies p) t =
      (bs p key).drip (rateAt l.policies p) t := by
  have hnow' : l.lastNow.toNat ≤ now.toNat := le_iff_toNat_le.mp hnow
  exact Bucket.drip_drip (ref.tokens p key) ((ref.anchor p key).trans hnow') ht

theorem Refines.settled (p : Nat) (key : Key) :
    (dripAll l.policies now.toNat bs p key).Settled (rateAt l.policies p) now.toNat :=
  Bucket.settled_drip ((ref.anchor p key).trans (le_iff_toNat_le.mp hnow))

theorem Refines.dripped : Refines { l with lastNow := now } (dripAll l.policies now.toNat bs) := by
  have hnow' : l.lastNow.toNat ≤ now.toNat := le_iff_toNat_le.mp hnow
  refine ⟨fun p key => (ref.settled hnow p key).le, fun p key => (ref.settled hnow p key).past,
    fun i hi p key hhas t ht => ?_, fun p key hfree t ht => ?_⟩
  · exact (ref.held i hi p key hhas t (hnow'.trans ht)).trans (ref.drip hnow p key ht).symm
  · exact (ref.drip hnow p key ht).trans (ref.absent p key hfree t (hnow'.trans ht))

end

end

theorem retry_ideal (wf : WellFormed l) (ref : Refines l bs) (hnow : l.lastNow ≤ now)
    (batch : Batch l.policies items) :
    (l.retryAfter now (l.matchAll now (items.map (l.fresh now)))).toNat =
      (items.map (shortOf l.policies now.toNat (dripAll l.policies now.toNat bs))).foldl max 0 := by
  rw [retryAfter_toNat]
  congr 1
  refine Eq.symm (forall₂_eq_eq_eq ▸ ?_)
  rw [forall₂_map_left_iff, forall₂_map_right_iff]
  refine (matched_all l now items).imp fun item plan ⟨hmem, hmatch⟩ => ?_
  have hbucket := hmatch.bucket wf ref hnow
  have hsettled : plan.bucket.Settled (rateAt l.policies plan.item.policyIndex) now.toNat := by
    rw [hmatch.same, hbucket]
    exact ref.settled hnow _ _
  rw [wait_toNat hsettled (hmatch.same ▸ batch.cost item hmem), hmatch.same, hbucket]
  rfl

theorem ideal_admits (ref : Refines l bs) (hnow : l.lastNow ≤ now) (items : List Item) :
    (items.map (shortOf l.policies now.toNat (dripAll l.policies now.toNat bs))).foldl max 0 = 0 ↔
      Covers (dripAll l.policies now.toNat bs) items := by
  rw [foldl_max_eq_zero]
  simp only [mem_map, forall_exists_index, and_imp, forall_apply_eq_imp_iff₂, true_and]
  exact forall₂_congr fun i _ => short_eq_zero (ref.settled hnow _ _)

/-! ## 3. A check that is paid -/

theorem pairwise_forall₂ {α β : Type} {R : α → β → Prop} {P : α → α → Prop} {Q : β → β → Prop}
    {xs : List α} {ys : List β} (h : List.Forall₂ R xs ys) (hp : xs.Pairwise P)
    (hpq : ∀ x x' y y', R x y → R x' y' → P x x' → Q y y') : ys.Pairwise Q := by
  induction h with
  | nil => exact .nil
  | cons hxy hrest ih =>
    obtain ⟨hhead, htail⟩ := pairwise_cons.mp hp
    refine pairwise_cons.mpr ⟨fun y' hy' => ?_, ih htail⟩
    obtain ⟨x', hx', hr⟩ := forall₂_mem_right hrest hy'
    exact hpq _ _ _ _ hxy hr (hhead x' hx')

/-- What a paid plan is: the ideal bucket of its item, and a slot that the item had, or one that no item has
    and whose bucket is full. -/
structure Placed (l : RateLimiter) (bs : Buckets) (now : UInt64) (items : List Item) (plan : Plan) :
    Prop where
  item : plan.item ∈ items
  bucket : plan.bucket = dripAll l.policies now.toNat bs plan.item.policyIndex plan.item.request.key
  slot : ∃ i < l.maxKeys, plan.slot = some i ∧
    (l.Has i plan.item.policyIndex plan.item.request.key ∨
      ((∀ j < l.maxKeys, ¬ l.Has j plan.item.policyIndex plan.item.request.key) ∧
        ∀ p key, l.Has i p key → (dripAll l.policies now.toNat bs p key).tokens = (rateAt l.policies p).burst))

/-- The plans of a batch that is paid. -/
structure Paid (l : RateLimiter) (bs : Buckets) (now : UInt64) (items : List Item) (plans : List Plan) :
    Prop where
  placed : ∀ plan ∈ plans, Placed l bs now items plan
  every : ∀ item ∈ items, ∃ plan ∈ plans, plan.item = item
  apart : plans.Pairwise Plan.Apart
  items_apart : plans.Pairwise fun a b => a.item.Apart b.item

theorem matched_apart (l : RateLimiter) (now : UInt64) (hitems : items.Pairwise Item.Apart) :
    (l.matchAll now (items.map (l.fresh now))).Pairwise Plan.Apart := by
  refine pairwise_forall₂ (matched_all l now items) hitems fun x x' y y' hx hx' hapart i hi hi' => ?_
  rcases hx.2.slot with ⟨k, -, hk, hhas, -⟩ | ⟨hnone, -⟩
  · rcases hx'.2.slot with ⟨k', -, hk', hhas', -⟩ | ⟨hnone, -⟩
    · obtain rfl : k = i := Option.some.inj (hk.symm.trans hi)
      obtain rfl : k' = k := Option.some.inj (hk'.symm.trans hi')
      exact hapart ⟨hhas.2.1.symm.trans hhas'.2.1, hhas.2.2.symm.trans hhas'.2.2⟩
    · rw [hnone] at hi'
      cases hi'
  · rw [hnone] at hi
    cases hi

theorem usable_full {i : Nat} {p : Nat} {key : Key} (wf : WellFormed l) (ref : Refines l bs)
    (hnow : l.lastNow ≤ now) (hi : i < l.maxKeys) (h : l.usable now plans i = true) (hhas : l.Has i p key) :
    (dripAll l.policies now.toNat bs p key).tokens = (rateAt l.policies p).burst := by
  unfold usable at h
  rw [Bool.and_eq_true, Bool.or_eq_true, hhas.1, decide_eq_true_iff, hhas.2.1] at h
  have hfull := h.2.resolve_left nofun
  have htokens := wf.tokens i hi hhas.1
  rw [hhas.2.1] at htokens
  have hdrip := refill_drip htokens (le_trans (wf.anchor i hi hhas.1) hnow)
  have hheld := ref.held i hi p key hhas now.toNat (le_iff_toNat_le.mp hnow)
  show ((bs p key).drip (rateAt l.policies p) now.toNat).tokens = _
  rw [← hheld, rateAt_policy, hdrip]
  show (refill (l.entries i) (l.policy p) now).1.toNat = _
  rw [hfull]
  rfl

theorem paid_assign (wf : WellFormed l) (ref : Refines l bs) (hnow : l.lastNow ≤ now)
    (batch : Batch l.policies items) (hlen : missing (l.matchAll now (items.map (l.fresh now))) ≤
      (l.candidates now (l.matchAll now (items.map (l.fresh now)))).length) :
    Paid l bs now items (assign (l.matchAll now (items.map (l.fresh now)))
      (l.candidates now (l.matchAll now (items.map (l.fresh now))))) := by
  have hmatched := matched_all l now items
  have hplans := matched_apart l now batch.apart
  generalize l.matchAll now (items.map (l.fresh now)) = plans at *
  have hsub : ∀ i ∈ l.candidates now plans, i < l.maxKeys ∧ l.usable now plans i = true := by
    intro i hi
    have hmem := mem_filter.mp (mem_of_mem_take hi)
    exact ⟨mem_range.mp hmem.1, hmem.2⟩
  have hnodup : (l.candidates now plans).Nodup :=
    (nodup_range.filter _).sublist (take_sublist _ _)
  have hfree : ∀ plan ∈ plans, ∀ i, plan.slot = some i → i ∉ l.candidates now plans := by
    intro plan hplan i hi hmem
    have huse := (hsub i hmem).2
    unfold usable referenced at huse
    rw [Bool.and_eq_true, Bool.not_eq_true', any_eq_false] at huse
    exact huse.1 plan hplan (decide_eq_true hi)
  have hassigned := assigned_assign hlen
  refine ⟨fun plan' hplan' => ?_, fun item hitem => ?_, assign_apart hnodup hfree hplans hlen, ?_⟩
  · obtain ⟨plan, hplan, hto⟩ := forall₂_mem_right hassigned hplan'
    obtain ⟨item, -, hitem, hmatch⟩ := forall₂_mem_right hmatched hplan
    have hbucket := hmatch.bucket wf ref hnow
    obtain rfl := hmatch.same
    rcases hto with ⟨hsome, rfl⟩ | ⟨hnone, i, hi, rfl⟩
    · refine ⟨hitem, hbucket, ?_⟩
      rcases hmatch.slot with ⟨i, hi, hslot, hhas, -⟩ | ⟨hnone, -⟩
      · exact ⟨i, hi, hslot, .inl hhas⟩
      · exact absurd hnone hsome
    · refine ⟨hitem, hbucket, i, (hsub i hi).1, rfl, .inr ⟨?_, fun p key hhas => ?_⟩⟩
      · rcases hmatch.slot with ⟨j, -, hslot, -⟩ | ⟨-, hnobody, -⟩
        · rw [hnone] at hslot
          cases hslot
        · exact hnobody
      · exact usable_full wf ref hnow (hsub i hi).1 (hsub i hi).2 hhas
  · obtain ⟨plan, hplan, -, hmatch⟩ := forall₂_mem_right hmatched.flip hitem
    obtain ⟨plan', hplan', hto⟩ := forall₂_mem_right hassigned.flip hplan
    refine ⟨plan', hplan', ?_⟩
    rcases hto with ⟨-, rfl⟩ | ⟨-, i, -, rfl⟩
    · exact hmatch.same
    · exact hmatch.same
  · have hitems : plans.Pairwise fun a b => a.item.Apart b.item :=
      pairwise_forall₂ hmatched batch.apart fun x x' y y' hx hx' hapart => by
        rw [hx.2.same, hx'.2.same]
        exact hapart
    refine pairwise_forall₂ hassigned hitems fun x x' y y' hx hx' hapart => ?_
    have hsame : ∀ a b : Plan, Assigned (l.candidates now plans) a b → b.item = a.item := by
      rintro a b (⟨-, rfl⟩ | ⟨-, i, -, rfl⟩) <;> rfl
    rw [hsame x y hx, hsame x' y' hx']
    exact hapart

/-- The table after a batch was paid at this time. -/
def RateLimiter.paid (l : RateLimiter) (now : UInt64) (plans : List Plan) : RateLimiter :=
  { l.commit plans with lastNow := now }

/-- Who has a slot after that: the plan that wrote it, or whoever had it. -/
theorem has_paid (h : plans.Pairwise Plan.Apart) {i p : Nat} {key : Key} (hhas : (l.paid now plans).Has i p key) :
    (∃ plan ∈ plans, plan.slot = some i ∧ plan.item.policyIndex = p ∧ plan.item.request.key = key ∧
      (l.paid now plans).entries i = plan.entry) ∨
    ((∀ plan ∈ plans, plan.slot ≠ some i) ∧ l.Has i p key ∧ (l.paid now plans).entries i = l.entries i) := by
  rcases commit_entries (l := l) h i with ⟨plan, hplan, hslot, he⟩ | ⟨hnone, he⟩
  · have he' : (l.paid now plans).entries i = plan.entry := he
    unfold Has at hhas
    rw [he'] at hhas
    exact .inl ⟨plan, hplan, hslot, hhas.2.1, hhas.2.2, he'⟩
  · have he' : (l.paid now plans).entries i = l.entries i := he
    unfold Has at hhas
    rw [he'] at hhas
    exact .inr ⟨hnone, hhas, he'⟩

theorem paid_has (h : plans.Pairwise Plan.Apart) {plan : Plan} (hplan : plan ∈ plans) {i : Nat}
    (hslot : plan.slot = some i) :
    (l.paid now plans).Has i plan.item.policyIndex plan.item.request.key := by
  rcases commit_entries (l := l) h i with ⟨plan', hplan', hslot', he⟩ | ⟨hnone, -⟩
  · have hsame : plan' = plan := by
      by_contra hne
      have : Std.Symm Plan.Apart := ⟨fun a b hab k hb ha => hab k ha hb⟩
      exact h.forall hplan' hplan hne i hslot' hslot
    have he' : (l.paid now plans).entries i = plan.entry := hsame ▸ he
    unfold Has
    rw [he']
    exact ⟨rfl, rfl, rfl⟩
  · exact absurd hslot (hnone plan hplan)

section Paying

variable {items : List Item} {plans : List Plan}

theorem take_zero (b : Bucket) : b.take 0 = b := rfl

section

variable (paid : Paid l bs now items plans)
include paid

theorem Paid.kept (wf : WellFormed l) {i p : Nat} {key : Key}
    (hi : i < l.maxKeys) (hnone : ∀ plan ∈ plans, plan.slot ≠ some i) (hhas : l.Has i p key) :
    ∀ item ∈ items, ¬ (item.policyIndex = p ∧ item.request.key = key) := by
  rintro item hitem ⟨rfl, rfl⟩
  obtain ⟨plan, hplan, rfl⟩ := paid.every item hitem
  obtain ⟨j, hj, hslot, hown | ⟨hnobody, -⟩⟩ := (paid.placed plan hplan).slot
  · obtain rfl := wf.unique i j _ _ hi hj hhas hown
    exact hnone plan hplan hslot
  · exact hnobody i hi hhas

variable (batch : Batch l.policies items) (hcover : Covers (dripAll l.policies now.toNat bs) items)
include batch hcover

theorem Paid.entry {plan : Plan} (hplan : plan ∈ plans) :
    plan.entry.bucket = (dripAll l.policies now.toNat bs plan.item.policyIndex
      plan.item.request.key).take (costOf items plan.item.policyIndex plan.item.request.key) := by
  have hplaced := paid.placed plan hplan
  have hle := hcover plan.item hplaced.item
  rw [← hplaced.bucket] at hle ⊢
  rw [costOf_mem batch.apart hplaced.item]
  show (⟨(plan.tokens - plan.item.request.cost).toNat, plan.anchor.toNat⟩ : Bucket) = _
  rw [UInt32.toNat_sub_of_le _ _ (UInt32.le_iff_toNat_le.mpr hle)]
  rfl

variable (wf : WellFormed l) (ref : Refines l bs) (hnow : l.lastNow ≤ now)
include wf ref hnow

theorem paid_wellFormed : WellFormed (l.paid now plans) := by
  obtain ⟨hkeys, hpolicies⟩ := commit_fields l plans
  have hkeys' : (l.paid now plans).maxKeys = l.maxKeys := hkeys
  have hpolicy : ∀ p, (l.paid now plans).policy p = l.policy p := fun p => by
    show (l.commit plans).policies.getD p default = l.policies.getD p default
    rw [hpolicies]
  -- an entry that was written is a settled bucket
  have hwritten : ∀ plan ∈ plans, plan.entry.bucket.Settled
      (rateAt l.policies plan.item.policyIndex) now.toNat := fun plan hplan => by
    rw [paid.entry batch hcover hplan]
    exact (ref.settled hnow _ _).take _
  refine ⟨fun i j p key hi hj hhas hhas' => ?_, fun i hi hocc => ?_, fun i hi hocc => ?_⟩
  · rw [hkeys'] at hi hj
    rcases has_paid paid.apart hhas with ⟨a, ha, hslot, hp, hk, -⟩ | ⟨hnone, hown, -⟩
    · rcases has_paid paid.apart hhas' with ⟨b, hb, hslot', hp', hk', -⟩ | ⟨hnone', hown', -⟩
      · have hsame : a = b := by
          by_contra hne
          have : Std.Symm fun a b : Plan => a.item.Apart b.item :=
            ⟨fun a b hab he => hab ⟨he.1.symm, he.2.symm⟩⟩
          exact paid.items_apart.forall ha hb hne ⟨hp.trans hp'.symm, hk.trans hk'.symm⟩
        exact Option.some.inj (hslot.symm.trans (hsame ▸ hslot'))
      · exact absurd ⟨hp, hk⟩ (paid.kept wf hj hnone' hown' a.item (paid.placed a ha).item)
    · rcases has_paid paid.apart hhas' with ⟨b, hb, -, hp', hk', -⟩ | ⟨-, hown', -⟩
      · exact absurd ⟨hp', hk'⟩ (paid.kept wf hi hnone hown b.item (paid.placed b hb).item)
      · exact wf.unique i j p key hi hj hown hown'
  · rw [hkeys'] at hi
    rw [hpolicy]
    rcases has_paid paid.apart ⟨hocc, rfl, rfl⟩ with ⟨plan, hplan, -, -, -, he⟩ | ⟨-, hown, he⟩
    · rw [he, UInt32.le_iff_toNat_le]
      exact (hwritten plan hplan).le
    · rw [he]
      exact wf.tokens i hi hown.1
  · rw [hkeys'] at hi
    show _ ≤ now
    rcases has_paid paid.apart ⟨hocc, rfl, rfl⟩ with ⟨plan, hplan, -, -, -, he⟩ | ⟨-, hown, he⟩
    · rw [he, le_iff_toNat_le]
      exact (hwritten plan hplan).past
    · rw [he]
      exact le_trans (wf.anchor i hi hown.1) hnow

/-- **A paid batch: the table stands for the buckets that the ideal limiter has charged.** -/
theorem paid_refines : Refines (l.paid now plans)
    fun p key => (dripAll l.policies now.toNat bs p key).take (costOf items p key) := by
  obtain ⟨hkeys, hpolicies⟩ := commit_fields l plans
  have hkeys' : (l.paid now plans).maxKeys = l.maxKeys := hkeys
  have hpolicies' : (l.paid now plans).policies = l.policies := hpolicies
  have hlast : (l.paid now plans).lastNow = now := rfl
  have hnow' : l.lastNow.toNat ≤ now.toNat := le_iff_toNat_le.mp hnow
  refine ⟨fun p key => ?_, fun p key => ?_, fun i hi p key hhas t ht => ?_, fun p key hfree t ht => ?_⟩
  · rw [hpolicies']
    exact ((ref.settled hnow p key).take _).le
  · exact ((ref.settled hnow p key).take _).past
  · rw [hkeys'] at hi
    rw [hpolicies']
    rw [hlast] at ht
    rcases has_paid paid.apart hhas with ⟨plan, hplan, -, hp, hk, he⟩ | ⟨hnone, hown, he⟩
    · rw [he, paid.entry batch hcover hplan, hp, hk]
    · rw [he, costOf_of_forall (paid.kept wf hi hnone hown), take_zero, ref.drip hnow p key ht]
      exact ref.held i hi p key hown t (hnow'.trans ht)
  · rw [hkeys'] at hfree
    rw [hpolicies']
    rw [hlast] at ht
    -- nobody of the batch is for this bucket: its plan would have a slot
    have hout : ∀ item ∈ items, ¬ (item.policyIndex = p ∧ item.request.key = key) := by
      rintro item hitem ⟨rfl, rfl⟩
      obtain ⟨plan, hplan, rfl⟩ := paid.every item hitem
      obtain ⟨i, hi, hslot, -⟩ := (paid.placed plan hplan).slot
      exact hfree i hi (paid_has paid.apart hplan hslot)
    rw [costOf_of_forall hout, take_zero, ref.drip hnow p key ht]
    by_cases hhad : ∃ i < l.maxKeys, l.Has i p key
    · -- the bucket lost its slot to the batch, so it was full
      obtain ⟨i, hi, hhas⟩ := hhad
      have hfull : (dripAll l.policies now.toNat bs p key).tokens = (rateAt l.policies p).burst := by
        rcases commit_entries (l := l) paid.apart i with ⟨plan, hplan, hslot, -⟩ | ⟨-, he⟩
        · obtain ⟨j, -, hslot', hown | ⟨-, hfull⟩⟩ := (paid.placed plan hplan).slot
          · obtain rfl : j = i := Option.some.inj (hslot'.symm.trans hslot)
            refine absurd ?_ (hout plan.item (paid.placed plan hplan).item)
            exact ⟨hown.2.1.symm.trans hhas.2.1, hown.2.2.symm.trans hhas.2.2⟩
          · obtain rfl : j = i := Option.some.inj (hslot'.symm.trans hslot)
            exact hfull p key hhas
        · refine absurd ?_ (hfree i hi)
          have he' : (l.paid now plans).entries i = l.entries i := he
          unfold Has
          rw [he']
          exact hhas
      exact Bucket.drip_full (ref.tokens p key) ((ref.anchor p key).trans hnow') ht hfull
    · exact ref.absent p key (fun i hi hhas => hhad ⟨i, hi, hhas⟩) t (hnow'.trans ht)

end

end Paying

/-! ## 4. One check -/

/-- A limiter after a check, against the limiter before it and its ideal. -/
structure Answered (l : RateLimiter) (bs : Buckets) (now : UInt64)
    (x : Except Result Decision × RateLimiter) (y : Except Result Verdict × Buckets) : Prop where
  wf : WellFormed x.2
  policies : x.2.policies = l.policies
  time : (∃ e, x = (.error e, l)) ∨ (l.lastNow ≤ now ∧ x.2.lastNow = now)
  ideal : (observed x.1 = none ∧ Refines x.2 bs) ∨ (observed x.1 = some y.1 ∧ Refines x.2 y.2)

theorem settle_refines (wf : WellFormed l) (ref : Refines l bs) (hnow : l.lastNow ≤ now)
    (batch : Batch l.policies items) :
    Answered l bs now (l.settle now items)
      (.ok (idealSettle l.policies bs now.toNat items).1, (idealSettle l.policies bs now.toNat items).2) := by
  have hretry := retry_ideal wf ref hnow batch
  have hadmits := ideal_admits ref hnow items
  have hzero : ∀ x : UInt64, x.toNat = 0 ↔ x = 0 := fun x => UInt64.toNat_inj (b := 0)
  unfold settle idealSettle
  dsimp only
  rw [← hretry] at hadmits ⊢
  rw [hzero] at hadmits
  split
  · rename_i hwait
    rw [if_neg (mt hadmits.mpr hwait)]
    exact ⟨wf.later hnow, rfl, .inr ⟨hnow, rfl⟩, .inr ⟨rfl, ref.dripped hnow⟩⟩
  · rename_i hwait
    have hcover := hadmits.mp (not_not.mp hwait)
    rw [if_pos hcover]
    split
    · exact ⟨wf.later hnow, rfl, .inr ⟨hnow, rfl⟩, .inl ⟨rfl, ref.later hnow⟩⟩
    rename_i hfound
    have paid := paid_assign wf ref hnow batch (Nat.le_of_not_lt hfound)
    exact ⟨paid_wellFormed paid batch hcover wf ref hnow, (commit_fields l _).2,
      .inr ⟨hnow, rfl⟩, .inr ⟨rfl, paid_refines paid batch hcover wf ref hnow⟩⟩

/-- How many slots have no bucket. -/
def RateLimiter.emptySlots (l : RateLimiter) : Nat :=
  (List.range l.maxKeys).countP fun i => !(l.entries i).occupied

theorem emptySlots_lt (hfound : (l.candidates now (l.matchAll now (items.map (l.fresh now)))).length <
    missing (l.matchAll now (items.map (l.fresh now)))) : l.emptySlots < items.length := by
  have hmatched := matched_all l now items
  generalize l.matchAll now (items.map (l.fresh now)) = plans at *
  have hle : missing plans ≤ items.length := hmatched.length_eq ▸ countP_le_length
  have husable : l.emptySlots ≤ ((List.range l.maxKeys).filter (l.usable now plans)).length := by
    rw [← countP_eq_length_filter]
    refine countP_mono_left fun i _ hempty => ?_
    rw [Bool.not_eq_true'] at hempty
    have hfree : referenced plans i = false := by
      rw [referenced, any_eq_false]
      intro plan hplan hslot
      obtain ⟨item, -, -, hmatch⟩ := forall₂_mem_right hmatched hplan
      rcases hmatch.slot with ⟨j, -, hj, hhas, -⟩ | ⟨hnone, -⟩
      · obtain rfl : j = i := Option.some.inj (hj.symm.trans (of_decide_eq_true hslot))
        exact Bool.noConfusion (hhas.1.symm.trans hempty)
      · have hsome := hnone.symm.trans (of_decide_eq_true hslot)
        cases hsome
    rw [usable, hfree, hempty]
    rfl
  rw [candidates, length_take] at hfound
  omega

/-- **What a batch comes to**: it is throttled iff one of its buckets is short, and only a table that has no
    empty slot for each of its items may be too full. -/
theorem settle_outcome (wf : WellFormed l) (ref : Refines l bs) (hnow : l.lastNow ≤ now)
    (batch : Batch l.policies items) :
    ∃ d, (l.settle now items).1 = .ok d ∧ (l.settle now items).2.lastNow = now ∧
      (d.outcome = .throttled ↔ ¬ Covers (dripAll l.policies now.toNat bs) items) ∧
      (d.outcome = .capacity → l.emptySlots < items.length) := by
  have hcovers := ideal_admits ref hnow items
  rw [← retry_ideal wf ref hnow batch] at hcovers
  have hzero : ∀ x : UInt64, x.toNat = 0 ↔ x = 0 := fun x => UInt64.toNat_inj (b := 0)
  rw [hzero] at hcovers
  unfold settle
  dsimp only
  split
  · rename_i hwait
    exact ⟨_, rfl, rfl, iff_of_true rfl (mt hcovers.mpr hwait), fun h => by cases h⟩
  rename_i hwait
  have hall := hcovers.mp (not_not.mp hwait)
  split
  · rename_i hfound
    exact ⟨_, rfl, rfl, iff_of_false (fun h => by cases h) (not_not.mpr hall), fun _ => emptySlots_lt hfound⟩
  · exact ⟨_, rfl, rfl, iff_of_false (fun h => by cases h) (not_not.mpr hall), fun h => by cases h⟩

theorem batch_nil (policies : List StoredPolicy) : Batch policies [] :=
  ⟨nofun, nofun, .nil⟩

/-- **A check is a check of the ideal limiter, or has run out of slots.** -/
theorem check_refines (wf : WellFormed l) (ref : Refines l bs) (hstart : start ≤ l.lastNow)
    (hlast : start ≤ now → l.lastNow ≤ now) (requests : List Request) :
    Answered l bs now (l.check now requests) (idealCheck l.policies start bs now requests) := by
  -- a check that is refused changes nothing
  have hrefused : ∀ e, Answered l bs now (.error e, l) (.error e, bs) :=
    fun e => ⟨wf, rfl, .inl ⟨e, rfl⟩, .inr ⟨rfl, ref⟩⟩
  unfold check idealCheck
  by_cases hempty : requests.length = 0
  · rw [if_pos hempty, if_pos hempty]
    exact hrefused _
  · rw [if_neg hempty, if_neg hempty]
    by_cases hlong : requests.length > maxBatch
    · rw [if_pos hlong, if_pos hlong]
      exact hrefused _
    · rw [if_neg hlong, if_neg hlong]
      cases hitems : validate l.policies [] requests with
      | error e => exact hrefused e
      | ok items =>
        dsimp only
        by_cases hearly : now < start
        · rw [if_pos (UInt64.lt_of_lt_of_le hearly hstart), if_pos hearly]
          exact hrefused _
        · have hnow := hlast (not_lt.mp hearly)
          rw [if_neg (not_lt.mpr hnow), if_neg hearly]
          exact settle_refines wf ref hnow (batch_validate (batch_nil _) hitems).1

/-! ## 5. The start -/

/-- Two policies with different names. -/
def StoredPolicy.Apart (p q : StoredPolicy) : Prop := p.1.policyId ≠ q.1.policyId

theorem checkPolicies_ok {seen stored : List StoredPolicy} (hseen : seen.Pairwise StoredPolicy.Apart)
    (h : checkPolicies seen policies = .ok stored) :
    stored.Pairwise StoredPolicy.Apart ∧ stored.map (·.1) = seen.map (·.1) ++ policies := by
  induction policies generalizing seen with
  | nil =>
    obtain rfl := Except.ok.inj h
    exact ⟨hseen, (List.append_nil _).symm⟩
  | cons p ps ih =>
    unfold checkPolicies at h
    split at h
    · cases h
    split at h
    · cases h
    rename_i hnew
    split at h
    · rename_i hvalid
      have hnew' : ∀ q ∈ seen, q.1.policyId ≠ p.policyId := by simpa using hnew
      have hapart : List.Pairwise StoredPolicy.Apart (seen ++ [⟨p, hvalid⟩]) := by
        refine pairwise_append.mpr ⟨hseen, pairwise_singleton _ _, ?_⟩
        intro q hq q' hq'
        rw [mem_singleton.mp hq']
        exact hnew' q hq
      obtain ⟨hstored, hmap⟩ := ih hapart h
      refine ⟨hstored, ?_⟩
      rw [hmap, map_append, append_assoc]
      rfl
    · cases h

/-- What a new limiter is. -/
structure Fresh (l : RateLimiter) (policies : List Policy) (start : UInt64) : Prop where
  policies : l.policies.map (·.1) = policies
  apart : l.policies.Pairwise StoredPolicy.Apart
  time : l.lastNow = start
  empty : ∀ i, l.entries i = .zero

theorem fresh_create {maxKeys maxMemoryBytes start : UInt64} {memory : Bool}
    (h : create maxKeys maxMemoryBytes policies start memory = .ok l) : Fresh l policies start := by
  unfold create at h
  split at h
  · cases h
  split at h
  · cases h
  split at h
  · cases h
  split at h
  · cases h
  split at h
  · cases h
  rename_i stored hstored
  split at h
  · cases h
  obtain rfl := Except.ok.inj h
  obtain ⟨hapart, hmap⟩ := checkPolicies_ok .nil hstored
  exact ⟨hmap, hapart, rfl, fun _ => rfl⟩

section

variable (h : Fresh l policies start)
include h

theorem Fresh.nobody (i p : Nat) (key : Key) : ¬ l.Has i p key := by
  intro hhas
  have hocc := hhas.1
  rw [h.empty] at hocc
  cases hocc

theorem Fresh.wellFormed : WellFormed l :=
  ⟨fun i _ p key _ _ hhas _ => absurd hhas (h.nobody i p key),
    fun i _ hocc => absurd ⟨hocc, rfl, rfl⟩ (h.nobody i _ _),
    fun i _ hocc => absurd ⟨hocc, rfl, rfl⟩ (h.nobody i _ _)⟩

theorem Fresh.refines : Refines l (fullBuckets l.policies start.toNat) := by
  refine ⟨fun _ _ => le_rfl, fun _ _ => ?_, fun i _ p key hhas => absurd hhas (h.nobody i p key),
    fun p key _ t _ => ?_⟩
  · rw [h.time]
    exact le_rfl
  · unfold fullBuckets Bucket.drip
    exact if_neg (Nat.lt_irrefl _)

end

end Vireo.Security
