/-
  File:      Vireo/Timer/Budget.lean
  Subject:   THE ADVANCE DOES NOT DEPEND ON HOW ITS BUDGET IS SPLIT.
-/
import Vireo.Timer.Placement

namespace Vireo.Timer

open Vireo.Lib

/-- The wheel after `k` advances at `now`; `budgets` gives the ticks and the nodes of each call. -/
def Wheel.advances (w : Wheel) (now : UInt64) (budgets : Nat → Nat × Nat) : Nat → Wheel
  | 0 => w
  | k + 1 =>
    ((w.advances now budgets k).advance now (budgets k).1 (budgets k).2).2

/-- Positive budgets that the code does not refuse. -/
def Budgets (b : Nat × Nat) : Prop :=
  0 < b.1 ∧ 0 < b.2 ∧ b.1 ≤ Wheel.maxBudget ∧ b.2 ≤ Wheel.maxBudget

instance (b : Nat × Nat) : Decidable (Budgets b) := inferInstanceAs (Decidable (_ ∧ _))

/-- The wheel accepts `now`: prepared, not stopping, and the time does not run backwards. -/
structure Wheel.Accepts (w : Wheel) (now : UInt64) : Prop where
  prepared : w.owner.isSome = true
  running : w.stopping = false
  origin : w.geometry.originNs ≤ now
  latest : w.latestNowNs ≤ now

/-- The same completed tick, and the same timers on the ready ring and in every bucket. -/
structure Wheel.Contents (v w : Wheel) : Prop where
  completedTick : v.completedTick = w.completedTick
  ready : ∀ s, v.On .ready s ↔ w.On .ready s
  bucket : ∀ b s, v.On (.bucket b) s ↔ w.On (.bucket b) s

/-- The loop of the advance at `now`, whatever the size of the budgets. -/
def Wheel.advanceBy (w : Wheel) (now : UInt64) (maxTicks maxNodes : Nat) : Wheel :=
  (Wheel.advanceLoop (w.geometry.targetTick now) { w with latestNowNs := now } maxTicks maxNodes).1

section Step

variable {w : Wheel} {now : UInt64}

theorem advance_eq (h : w.Accepts now) {b : Nat × Nat} (hb : Budgets b) :
    ∃ r, w.advance now b.1 b.2 = (.ok r, w.advanceBy now b.1 b.2) ∧
      r.progress = (w.advanceBy now b.1 b.2).progressValue := by
  obtain ⟨h1, h2, h3, h4⟩ := hb
  have howner : ¬ w.owner.isNone = true := by
    rw [Option.isNone_iff_eq_none, ← Option.not_isSome_iff_eq_none, not_not]
    exact h.prepared
  have hstop : ¬ w.stopping = true := by
    rw [h.running]
    exact Bool.false_ne_true
  have hnow : ¬ (now < w.geometry.originNs ∨ now < w.latestNowNs) := by
    rw [not_or, UInt64.not_lt, UInt64.not_lt]
    exact ⟨h.origin, h.latest⟩
  unfold Wheel.advance
  rw [if_neg (by omega), if_neg (by omega), if_neg howner, if_neg hstop, if_neg hnow]
  exact ⟨_, rfl, rfl⟩

/-- What is not accepted fails, and the wheel stays as it was. -/
theorem advance_refused {b : Nat × Nat} (h : ¬ (w.Accepts now ∧ Budgets b)) :
    ∃ e, w.advance now b.1 b.2 = (.error e, w) := by
  unfold Wheel.advance
  split
  · exact ⟨_, rfl⟩
  rename_i hpos
  split
  · exact ⟨_, rfl⟩
  rename_i hmax
  split
  · exact ⟨_, rfl⟩
  rename_i howner
  split
  · exact ⟨_, rfl⟩
  rename_i hstop
  split
  · exact ⟨_, rfl⟩
  rename_i hnow
  rw [not_or, UInt64.not_lt, UInt64.not_lt] at hnow
  have hprepared : w.owner.isSome = true := Option.isSome_iff_ne_none.mpr fun hnone => howner (by rw [hnone]; rfl)
  exact absurd ⟨⟨hprepared, (Bool.not_eq_true _).mp hstop, hnow.1, hnow.2⟩, by omega, by omega, by omega, by omega⟩ h

theorem advance_step (h : w.Accepts now) {members : Head → List Link}
    (inv : PlacedInv w members none) (maxTicks maxNodes : Nat) :
    ∃ members', PlacedInv (w.advanceBy now maxTicks maxNodes) members' none ∧
      SameTimers { w with latestNowNs := now } (w.advanceBy now maxTicks maxNodes) ∧
      ((w.advanceBy now maxTicks maxNodes).CaughtUp (w.geometry.targetTick now) ∨
        (w.advanceBy now maxTicks maxNodes).rank (w.geometry.targetTick now) members' +
            min maxTicks maxNodes ≤ w.rank (w.geometry.targetTick now) members) := by
  obtain ⟨members', inv', same, hl, hm, hrank, hend⟩ := placed_advanceLoop (w.geometry.targetTick now)
    { w with latestNowNs := now } maxTicks maxNodes rfl members (placed_accept inv h.origin h.latest)
  refine ⟨members', inv', same, hend.imp id fun hz => ?_⟩
  have hrank' : (w.advanceBy now maxTicks maxNodes).rank (w.geometry.targetTick now) members' +
      maxTicks + maxNodes ≤ w.rank (w.geometry.targetTick now) members + _ + _ := hrank
  omega

theorem SameTimers.accepts {w' : Wheel} (same : SameTimers { w with latestNowNs := now } w')
    (h : w.Accepts now) : w'.Accepts now where
  prepared := by rw [same.owner]; exact h.prepared
  running := by rw [same.stopping]; exact h.running
  origin := by rw [same.geometry]; exact h.origin
  latest := by rw [same.latestNowNs]; exact UInt64.le_refl _

theorem advanceBy_caughtUp (hup : w.CaughtUp (w.geometry.targetTick now)) (maxTicks maxNodes : Nat) :
    w.advanceBy now maxTicks maxNodes = { w with latestNowNs := now } := by
  have hf : Wheel.finishTick { w with latestNowNs := now } = { w with latestNowNs := now } :=
    if_neg fun hc => by
      have := hup.1
      rw [hc.1] at this
      cases this
  unfold Wheel.advanceBy
  rw [Wheel.advanceLoop]
  simp only [hf]
  rw [if_pos ⟨hup.1, .inl hup.2⟩]

theorem Exact.contents {u v v' : Wheel} {target : UInt64} (hs : SameTimers u v)
    (hs' : SameTimers u v') (h : Exact v target) (h' : Exact v' target) (hc : v.CaughtUp target)
    (hc' : v'.CaughtUp target) : v.Contents v' where
  completedTick := hc.2.trans hc'.2.symm
  ready s := by rw [h.ready, h'.ready, hs.active, hs'.active, hs.dueTick, hs'.dueTick]
  bucket b s := by
    rw [h.bucket, h'.bucket, hs.active, hs'.active, hs.dueTick, hs'.dueTick, hs.geometry, hs'.geometry]

end Step

/-! ## Whole sequences -/

section Sequence

variable {w : Wheel} {now : UInt64} {budgets : Nat → Nat × Nat}

theorem advances_succ {k : Nat} (hacc : (w.advances now budgets k).Accepts now)
    (hp : (w.advances now budgets k).Placed) (hb : Budgets (budgets k)) :
    w.advances now budgets (k + 1) = (w.advances now budgets k).advanceBy now (budgets k).1 (budgets k).2 ∧
      (w.advances now budgets (k + 1)).Placed ∧
      SameTimers { w.advances now budgets k with latestNowNs := now } (w.advances now budgets (k + 1)) ∧
      ∃ r, (w.advances now budgets k).advance now (budgets k).1 (budgets k).2 =
          (.ok r, w.advances now budgets (k + 1)) ∧
        r.progress = (w.advances now budgets (k + 1)).progressValue := by
  obtain ⟨members, inv⟩ := hp
  obtain ⟨r, e, hr⟩ := advance_eq hacc hb
  have hw : w.advances now budgets (k + 1) =
      (w.advances now budgets k).advanceBy now (budgets k).1 (budgets k).2 := congrArg Prod.snd e
  obtain ⟨members', inv', same, -⟩ := advance_step hacc inv (budgets k).1 (budgets k).2
  rw [hw]
  exact ⟨rfl, ⟨members', inv'⟩, same, r, e, hr⟩

section

variable (h : w.Accepts now)
include h

theorem advances_inv (hp : w.Placed) (hb : ∀ k, Budgets (budgets k)) (k : Nat) :
    (w.advances now budgets k).Accepts now ∧ (w.advances now budgets k).Placed ∧
      SameTimers { w with latestNowNs := now } { w.advances now budgets k with latestNowNs := now } := by
  induction k with
  | zero => exact ⟨h, hp, .refl _⟩
  | succ k ih =>
    obtain ⟨hacc, hp, same⟩ := ih
    obtain ⟨-, hp', same', -⟩ := advances_succ hacc hp (hb k)
    refine ⟨same'.accepts hacc, hp', same.trans (same'.trans ?_)⟩
    exact ⟨rfl, same'.latestNowNs.symm, rfl, rfl, fun _ => ⟨rfl, rfl⟩⟩

theorem advances_target (hp : w.Placed) (hb : ∀ k, Budgets (budgets k)) (k : Nat) :
    (w.advances now budgets k).geometry.targetTick now = w.geometry.targetTick now := by
  obtain ⟨-, -, same⟩ := advances_inv h hp hb k
  exact congrArg (fun g : Geometry => g.targetTick now) same.geometry

theorem advances_caughtUp_succ (hp : w.Placed) (hb : ∀ k, Budgets (budgets k))
    {k : Nat} (hup : (w.advances now budgets k).CaughtUp (w.geometry.targetTick now)) :
    (w.advances now budgets (k + 1)).CaughtUp (w.geometry.targetTick now) := by
  obtain ⟨hacc, hpk, -⟩ := advances_inv h hp hb k
  obtain ⟨hw, -⟩ := advances_succ hacc hpk (hb k)
  rw [hw, advanceBy_caughtUp (by rw [advances_target h hp hb]; exact hup)]
  exact hup

/-- **Any sequence of positive budgets catches up**: what is left to do bounds the calls it takes. -/
theorem advances_caughtUp (hp : w.Placed) (hb : ∀ k, Budgets (budgets k)) :
    ∃ k, ∀ j, k ≤ j → (w.advances now budgets j).CaughtUp (w.geometry.targetTick now) := by
  obtain ⟨members₀, inv₀⟩ := hp
  have hp : w.Placed := ⟨members₀, inv₀⟩
  -- a sequence that has not caught up after `k` calls has done at least `k` pieces of work
  have work : ∀ k, (w.advances now budgets k).CaughtUp (w.geometry.targetTick now) ∨
      ∃ members, PlacedInv (w.advances now budgets k) members none ∧
        (w.advances now budgets k).rank (w.geometry.targetTick now) members + k ≤
          w.rank (w.geometry.targetTick now) members₀ := by
    intro k
    induction k with
    | zero => exact .inr ⟨members₀, inv₀, (Nat.add_zero _).le⟩
    | succ k ih =>
      rcases ih with hup | ⟨members, inv, hle⟩
      · exact .inl (advances_caughtUp_succ h hp hb hup)
      obtain ⟨hacc, hpk, -⟩ := advances_inv h hp hb k
      obtain ⟨hw, -⟩ := advances_succ hacc hpk (hb k)
      obtain ⟨members', inv', -, hend⟩ := advance_step hacc inv (budgets k).1 (budgets k).2
      rw [advances_target h hp hb k] at hend
      rw [hw]
      refine hend.imp id fun hrank => ⟨members', inv', ?_⟩
      have := (hb k).1
      have := (hb k).2.1
      omega
  refine ⟨w.rank (w.geometry.targetTick now) members₀ + 1, fun j hj => ?_⟩
  rcases work j with hup | ⟨members, -, hle⟩
  · exact hup
  · omega

end

/-- **The advance does not depend on how its budget is split.** Every sequence of accepted budgets has caught up
    after finitely many calls, and leaves what one large budget leaves; what is not accepted changes nothing. -/
theorem advance_split {latest : Option UInt64} (run : WheelRun w latest) :
    (∀ maxTicks maxNodes, ¬ (w.Accepts now ∧ Budgets (maxTicks, maxNodes)) →
      ∃ e, w.advance now maxTicks maxNodes = (.error e, w)) ∧
    (w.Accepts now → ∃ enough,
      (∀ maxTicks maxNodes, Budgets (maxTicks, maxNodes) →
        (w.advance now maxTicks maxNodes).2 = w.advanceBy now maxTicks maxNodes) ∧
      (∀ maxTicks maxNodes, enough ≤ maxTicks → enough ≤ maxNodes →
        (w.advanceBy now maxTicks maxNodes).progressValue.caughtUp = true) ∧
      ∀ budgets : Nat → Nat × Nat, (∀ k, Budgets (budgets k)) → ∃ k, ∀ j, k ≤ j →
        ∃ r, (w.advances now budgets j).advance now (budgets j).1 (budgets j).2 =
            (.ok r, w.advances now budgets (j + 1)) ∧ r.progress.caughtUp = true ∧
          ∀ maxTicks maxNodes, enough ≤ maxTicks → enough ≤ maxNodes →
            (w.advances now budgets (j + 1)).Contents (w.advanceBy now maxTicks maxNodes)) := by
  refine ⟨fun maxTicks maxNodes => advance_refused, fun h => ?_⟩
  have hp := placed_of_run run
  obtain ⟨members, inv⟩ := id hp
  have single : ∀ maxTicks maxNodes,
      w.rank (w.geometry.targetTick now) members + 1 ≤ maxTicks →
      w.rank (w.geometry.targetTick now) members + 1 ≤ maxNodes →
      SameTimers { w with latestNowNs := now } (w.advanceBy now maxTicks maxNodes) ∧
        (w.advanceBy now maxTicks maxNodes).CaughtUp (w.geometry.targetTick now) ∧
        Exact (w.advanceBy now maxTicks maxNodes) (w.geometry.targetTick now) := by
    intro maxTicks maxNodes ht hn
    obtain ⟨members', inv', same, hend⟩ := advance_step h inv maxTicks maxNodes
    have hup := hend.resolve_right (by omega)
    exact ⟨same, hup, inv'.exact hup⟩
  refine ⟨w.rank (w.geometry.targetTick now) members + 1, fun maxTicks maxNodes hb => ?_,
    fun maxTicks maxNodes ht hn => ?_, fun budgets hb => ?_⟩
  · obtain ⟨r, e, -⟩ := advance_eq h hb
    exact congrArg Prod.snd e
  · obtain ⟨same, hup, -⟩ := single maxTicks maxNodes ht hn
    rw [progressValue_caughtUp, same.latestNowNs, same.geometry]
    exact hup
  · obtain ⟨k, hk⟩ := advances_caughtUp h hp hb
    refine ⟨k, fun j hj => ?_⟩
    obtain ⟨hacc, hpj, same⟩ := advances_inv h hp hb j
    obtain ⟨-, ⟨members', inv'⟩, same₁, r, e, hr⟩ := advances_succ hacc hpj (hb j)
    have hup := hk (j + 1) (Nat.le_succ_of_le hj)
    refine ⟨r, e, ?_, fun maxTicks maxNodes ht hn => ?_⟩
    · rw [hr, progressValue_caughtUp, same₁.latestNowNs]
      show (w.advances now budgets (j + 1)).CaughtUp
        ((w.advances now budgets (j + 1)).geometry.targetTick now)
      rw [advances_target h hp hb]
      exact hup
    · obtain ⟨same', hup', hexact'⟩ := single maxTicks maxNodes ht hn
      exact Exact.contents (same.trans same₁) same' (inv'.exact hup) hexact' hup hup'

/-- One timer, advanced node by node and tick by tick: after finitely many calls it is ready. -/
theorem advance_split_sample :
    ∃ k, ∀ j, k ≤ j → ∃ r, (sampleStart.advances 130 (fun _ => (1, 1)) j).advance 130 1 1 =
      (.ok r, sampleStart.advances 130 (fun _ => (1, 1)) (j + 1)) ∧ r.progress.caughtUp = true := by
  have h : sampleStart.Accepts 130 :=
    ⟨by decide +kernel, by decide +kernel, by decide +kernel, by decide +kernel⟩
  obtain ⟨enough, -, -, hall⟩ := (advance_split sampleStart_run).2 h
  obtain ⟨k, hk⟩ := hall (fun _ => (1, 1)) fun _ => by decide
  exact ⟨k, fun j hj => (hk j hj).imp fun r hr => ⟨hr.1, hr.2.1⟩⟩

end Sequence

end Vireo.Timer
