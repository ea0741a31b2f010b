/-
  File:      Vireo/Timer/Placement.lean
  Subject:   WHERE EVERY TIMER IS: no timer of the wheel fires early, and none is lost.
-/
import Vireo.Timer.Run

namespace Vireo.Timer

open Vireo.Lib Function List
open UInt64 (le_iff_toNat_le lt_iff_toNat_lt not_le not_lt toNat_add toNat_inj toNat_one)

/-! ## 1. The invariant -/

/-- `WheelInv` with the place of every timer. -/
structure PlacedInv (w : Wheel) (members : Head → List Link) (loose : Option UInt64) : Prop
    extends WheelInv w members loose where
  counted : ∀ o, w.owner = some o → o.Counted
  flag : ∀ h s, .node s ∈ members h → ((w.nodes s).ready = true ↔ h = .ready)
  hashed : ∀ s, w.Active s → loose ≠ some s →
    (w.nodes s).bucketIndex = (w.nodes s).dueTick % w.geometry.bucketCount
  bucket : ∀ b s, .node s ∈ members (.bucket b) → b = (w.nodes s).bucketIndex ∧
    w.completedTick.toNat + (if w.processing then 1 else 0) < (w.nodes s).dueTick.toNat
  pending : ∀ s, .node s ∈ members .pending → w.completedTick.toNat < (w.nodes s).dueTick.toNat
  count : w.readyCount.toNat = (members .ready).length

variable {w : Wheel} {members : Head → List Link}

theorem WheelInv.length_le {loose : Option UInt64}
    (inv : WheelInv w members loose) (h : Head) : (members h).length ≤ 65536 := by
  cases ho : w.owner with
  | none =>
    have : members h = [] := eq_nil_iff_forall_not_mem.mpr fun x hx => by
      obtain ⟨-, -, o, e, -⟩ := inv.active h x hx
      rw [ho] at e
      cases e
    rw [this]
    exact Nat.zero_le _
  | some o =>
    obtain ⟨free, hfree⟩ := inv.owner o ho
    have hsub : members h ⊆ o.activeSlots.map .node := by
      intro x hx
      obtain ⟨s, rfl, ha⟩ := inv.active h x hx
      exact mem_map.mpr ⟨s, mem_activeSlots.mpr ((Wheel.active_owner ho s).mp ha), rfl⟩
    have hnd := (nodup_cons.mp (inv.rings.ring h).nodup).2
    have hle := (hnd.subperm hsub).length_le
    rw [length_map] at hle
    exact hle.trans ((length_activeSlots_le o).trans (le_iff_toNat_le.mp hfree.capacity))

section Moves

variable {w : Wheel} {members : Head → List Link} {s : UInt64}

theorem placed_detach (inv : PlacedInv w members none) {h : Head} (hm : .node s ∈ members h) :
    PlacedInv { w with
        links := w.links.detach (.node s)
        readyCount := if (w.nodes s).ready then w.readyCount - 1 else w.readyCount }
      (update members h ((members h).erase (.node s))) (some s) := by
  have hsub : ∀ k x, x ∈ update members h ((members h).erase (.node s)) k → x ∈ members k := by
    intro k x hx
    by_cases hk : k = h
    · subst hk
      rw [update_self] at hx
      exact mem_of_mem_erase hx
    · rwa [update_of_ne hk] at hx
  refine { wheelInv_readyCount (wheelInv_detach inv.toWheelInv hm) _, inv with
    flag := fun k t ht => inv.flag k t (hsub k _ ht)
    hashed := fun t ht _ => inv.hashed t ht (by simp)
    bucket := fun b t ht => inv.bucket b t (hsub _ _ ht)
    pending := fun t ht => inv.pending t (hsub _ _ ht)
    count := ?_ }
  by_cases hr : h = .ready
  · subst hr
    have hpos : 0 < (members .ready).length := length_pos_of_mem hm
    have hone : (1 : UInt64) ≤ w.readyCount := by
      rw [le_iff_toNat_le, inv.count]
      exact hpos
    show (if (w.nodes s).ready then w.readyCount - 1 else w.readyCount).toNat = _
    rw [if_pos ((inv.flag .ready s hm).mpr rfl), UInt64.toNat_sub_of_le _ _ hone, inv.count,
      update_self, length_erase_of_mem hm]
    rfl
  · show (if (w.nodes s).ready then w.readyCount - 1 else w.readyCount).toNat = _
    rw [if_neg fun e => hr ((inv.flag h s hm).mp e), update_of_ne fun e => hr e.symm]
    exact inv.count

theorem placed_setNode (inv : PlacedInv w members (some s)) (node : TimerNode) :
    PlacedInv { w with nodes := update w.nodes s node } members (some s) := by
  have hne : ∀ k t, .node t ∈ members k → t ≠ s := by
    rintro k t ht rfl
    exact inv.apart t rfl k ht
  have hget : ∀ k t, .node t ∈ members k → update w.nodes s node t = w.nodes t :=
    fun k t ht => update_of_ne (hne k t ht) _ _
  refine { wheelInv_setNode inv.toWheelInv node, inv with
    flag := fun k t ht => ?_
    hashed := fun t ht hl => ?_
    bucket := fun b t ht => ?_
    pending := fun t ht => ?_ }
  · show ((update w.nodes s node t).ready = true ↔ _)
    rw [hget k t ht]
    exact inv.flag k t ht
  · show (update w.nodes s node t).bucketIndex = (update w.nodes s node t).dueTick % w.geometry.bucketCount
    rw [update_of_ne fun e => hl (by rw [e])]
    exact inv.hashed t ht hl
  · show b = (update w.nodes s node t).bucketIndex ∧ _ < (update w.nodes s node t).dueTick.toNat
    rw [hget _ t ht]
    exact inv.bucket b t ht
  · show _ < (update w.nodes s node t).dueTick.toNat
    rw [hget _ t ht]
    exact inv.pending t ht

theorem placeNode_eq (w : Wheel) (s : UInt64) : w.placeNode s = { w with
      nodes := update w.nodes s { w.nodes s with ready := decide (w.home s = .ready) }
      links := w.links.append (w.home s).link (.node s)
      readyCount := if w.home s = .ready then w.readyCount + 1 else w.readyCount } := by
  unfold Wheel.placeNode Wheel.home
  dsimp only
  split
  · simp [Head.link]
  · simp [Head.link]

theorem placed_place (inv : PlacedInv w members (some s)) (hs : w.Active s)
    (hdue : (w.nodes s).Due w.geometry)
    (hhash : (w.nodes s).bucketIndex = (w.nodes s).dueTick % w.geometry.bucketCount) :
    PlacedInv (w.placeNode s) (update members (w.home s) (members (w.home s) ++ [.node s])) none := by
  have hbase := wheelInv_place inv.toWheelInv hs hdue
  have hlen := hbase.length_le .ready
  rw [placeNode_eq] at hbase ⊢
  -- a member of the new rings was one before, or is the placed timer in its home
  have hcase : ∀ k t, .node t ∈ update members (w.home s)
      (members (w.home s) ++ [.node s]) k → (.node t ∈ members k ∧ t ≠ s) ∨ (t = s ∧ k = w.home s) := by
    intro k t ht
    by_cases hk : k = w.home s
    · rw [hk, update_self, mem_append, mem_singleton] at ht
      rcases ht with ht | ht
      · exact .inl ⟨hk ▸ ht, fun e => inv.apart s rfl _ (e ▸ ht)⟩
      · exact .inr ⟨Link.node.inj ht, hk⟩
    · rw [update_of_ne hk] at ht
      exact .inl ⟨ht, fun e => inv.apart s rfl _ (e ▸ ht)⟩
  refine { hbase, inv with
    flag := fun k t ht => ?_
    hashed := fun t ht _ => ?_
    bucket := fun b t ht => ?_
    pending := fun t ht => ?_
    count := ?_ }
  · show ((update w.nodes s _ t).ready = true ↔ _)
    rcases hcase k t ht with ⟨ht, hne⟩ | ⟨rfl, rfl⟩
    · rw [update_of_ne hne]
      exact inv.flag k t ht
    · rw [update_self]
      exact decide_eq_true_iff
  · show (update w.nodes s _ t).bucketIndex = (update w.nodes s _ t).dueTick % _
    by_cases hts : t = s
    · rw [hts, update_self]
      exact hhash
    · rw [update_of_ne hts]
      exact inv.hashed t ht fun e => hts (Option.some.inj e).symm
  · show b = (update w.nodes s _ t).bucketIndex ∧ _ < (update w.nodes s _ t).dueTick.toNat
    rcases hcase _ t ht with ⟨ht, hne⟩ | ⟨rfl, hb⟩
    · rw [update_of_ne hne]
      exact inv.bucket b t ht
    · rw [update_self]
      unfold Wheel.home at hb
      split at hb
      · cases hb
      rename_i hle
      refine ⟨Head.bucket.inj hb, ?_⟩
      rw [← inv.frontier_toNat]
      exact lt_iff_toNat_lt.mp (not_le.mp hle)
  · show _ < (update w.nodes s _ t).dueTick.toNat
    rcases hcase _ t ht with ⟨ht, hne⟩ | ⟨rfl, hb⟩
    · rw [update_of_ne hne]
      exact inv.pending t ht
    · unfold Wheel.home at hb
      split at hb
      · cases hb
      · cases hb
  · show (if w.home s = .ready then w.readyCount + 1 else w.readyCount).toNat = _
    by_cases hr : w.home s = .ready
    · rw [if_pos hr]
      rw [hr, update_self, length_append, length_singleton] at hlen ⊢
      rw [toNat_add, toNat_one, inv.count, Nat.mod_eq_of_lt (by omega)]
    · rw [if_neg hr, update_of_ne fun e => hr e.symm]
      exact inv.count

section

variable (inv : PlacedInv w members none)
include inv

theorem placed_finishTick : PlacedInv w.finishTick members none := by
  have hbase := wheelInv_finishTick inv.toWheelInv
  unfold Wheel.finishTick at hbase ⊢
  split at hbase
  · rename_i hc
    obtain ⟨hp, hnil⟩ := hc
    rw [if_pos ⟨hp, hnil⟩]
    have hempty : members .pending = [] := (inv.rings.ring .pending).next_head_eq_iff.mp hnil
    have hf := inv.frontier_toNat
    simp only [Wheel.frontier, hp, if_true] at hf
    refine { hbase, inv with
      bucket := fun b t ht => ⟨(inv.bucket b t ht).1, ?_⟩
      pending := fun t ht => ?_ }
    · have := (inv.bucket b t ht).2
      rw [hp] at this
      show (w.completedTick + 1).toNat + 0 < _
      rw [hf]
      exact this
    · rw [hempty] at ht
      exact absurd ht not_mem_nil
  · rename_i hc
    rw [if_neg hc]
    exact inv

theorem placed_openTick (hp : w.processing = false)
    (hne : w.completedTick ≠ w.geometry.targetTick w.latestNowNs) :
    PlacedInv w.openTick (w.opened members) none := by
  have hbase := wheelInv_openTick inv.toWheelInv hp hne
  have hreached := inv.reached
  have hbucket := inv.bucket
  simp only [hp, Bool.false_eq_true, if_false, Nat.add_zero] at hreached hbucket
  have hnext : (w.completedTick + 1).toNat = w.completedTick.toNat + 1 := by
    have hlt : w.completedTick.toNat < (w.geometry.targetTick w.latestNowNs).toNat :=
      Nat.lt_of_le_of_ne hreached fun e => hne (toNat_inj.mp e)
    have := (w.geometry.targetTick w.latestNowNs).toNat_lt
    rw [toNat_add, toNat_one, Nat.mod_eq_of_lt (by omega)]
  generalize hb : (w.completedTick + 1) % w.geometry.bucketCount = b at *
  -- a bucket other than the opened one is as before, the snapshot is the opened one
  have hother : ∀ k t, .node t ∈ w.opened members k →
      (k ≠ .bucket b ∧ k ≠ .pending ∧ .node t ∈ members k) ∨
        (k = .pending ∧ .node t ∈ members (.bucket b)) := by
    intro k t ht
    unfold Wheel.opened at ht
    rw [hb] at ht
    by_cases hkb : k = .bucket b
    · rw [hkb, update_self] at ht
      exact absurd ht not_mem_nil
    · rw [update_of_ne hkb] at ht
      by_cases hkp : k = .pending
      · rw [hkp, update_self] at ht
        exact .inr ⟨hkp, ht⟩
      · rw [update_of_ne hkp] at ht
        exact .inl ⟨hkb, hkp, ht⟩
  refine { hbase, inv with
    flag := fun k t ht => ?_
    bucket := fun c t ht => ?_
    pending := fun t ht => ?_
    count := ?_ }
  · rcases hother k t ht with ⟨-, -, ht⟩ | ⟨rfl, -⟩
    · exact inv.flag k t ht
    · have hr : ¬ (w.nodes t).ready = true := fun hr => by cases (inv.flag _ t ht).mp hr
      exact ⟨fun e => absurd e hr, fun e => by cases e⟩
  · rcases hother _ t ht with ⟨hcb, -, ht⟩ | ⟨e, -⟩
    · obtain ⟨hc, hlt⟩ := hbucket c t ht
      refine ⟨hc, ?_⟩
      show w.completedTick.toNat + 1 < (w.nodes t).dueTick.toNat
      refine Nat.lt_of_le_of_ne hlt fun e => hcb ?_
      have hdue : (w.nodes t).dueTick = w.completedTick + 1 :=
        toNat_inj.mp (by rw [hnext, e])
      rw [hc, inv.hashed t (inv.active_of_mem ht) (by simp), hdue, hb]
    · cases e
  · rcases hother _ t ht with ⟨-, hkp, -⟩ | ⟨-, ht⟩
    · exact absurd rfl hkp
    · exact (hbucket b t ht).2
  · have : w.opened members .ready = members .ready := by
      unfold Wheel.opened
      rw [update_of_ne (by simp), update_of_ne (by simp)]
    rw [this]
    exact inv.count

theorem placed_checkNode (e : w.links.next .pending = .node s) :
    ∃ members', PlacedInv (w.checkNode s) members' none ∧
      (members' .pending).length + 1 = (members .pending).length := by
  have hm : .node s ∈ members .pending := inv.mem_of_next (h := .pending) e
  have hact := inv.active_of_mem hm
  have hflag : (w.nodes s).ready = false :=
    Bool.eq_false_iff.mpr fun hr => by cases (inv.flag _ s hm).mp hr
  have hd := placed_detach inv hm
  rw [hflag] at hd
  refine ⟨_, placed_place hd hact (inv.due s hact (by simp)) (inv.hashed s hact (by simp)), ?_⟩
  have hhome : Head.pending ≠ Wheel.home { w with links := w.links.detach (.node s) } s := by
    unfold Wheel.home
    split <;> exact fun e => by cases e
  have hpos := length_pos_of_mem hm
  rw [update_of_ne hhome, update_self, length_erase_of_mem hm]
  omega

end

end Moves

/-! ## 2. The advance loop -/

/-- Nothing is left to do up to `target`. -/
def Wheel.CaughtUp (w : Wheel) (target : UInt64) : Prop :=
  w.processing = false ∧ w.completedTick = target

/-- What is left to do: ticks to open, and timers of the snapshot to place. One tick outweighs a full
    snapshot. -/
def Wheel.rank (w : Wheel) (target : UInt64) (members : Head → List Link) : Nat :=
  (target.toNat - (w.completedTick.toNat + if w.processing then 1 else 0)) * 65537 +
    (members .pending).length

/-- The same timers with the same deadlines under the same clock: only places differ. -/
structure SameTimers (w w' : Wheel) : Prop where
  geometry : w'.geometry = w.geometry
  latestNowNs : w'.latestNowNs = w.latestNowNs
  owner : w'.owner = w.owner
  stopping : w'.stopping = w.stopping
  node : ∀ s, (w'.nodes s).handle = (w.nodes s).handle ∧ (w'.nodes s).info = (w.nodes s).info

theorem SameTimers.refl (w : Wheel) : SameTimers w w := ⟨rfl, rfl, rfl, rfl, fun _ => ⟨rfl, rfl⟩⟩

theorem SameTimers.trans {a b c : Wheel} (h : SameTimers a b) (k : SameTimers b c) : SameTimers a c :=
  ⟨k.geometry.trans h.geometry, k.latestNowNs.trans h.latestNowNs, k.owner.trans h.owner,
    k.stopping.trans h.stopping,
    fun s => ⟨(k.node s).1.trans (h.node s).1, (k.node s).2.trans (h.node s).2⟩⟩

theorem SameTimers.active {w' : Wheel} (h : SameTimers w w') (s : UInt64) : w'.Active s ↔ w.Active s := by
  unfold Wheel.Active
  rw [h.owner]

theorem SameTimers.dueTick {w' : Wheel} (h : SameTimers w w') (s : UInt64) :
    (w'.nodes s).dueTick = (w.nodes s).dueTick := congrArg TimerInfo.dueTick (h.node s).2

theorem sameTimers_finishTick (w : Wheel) : SameTimers w w.finishTick := by
  unfold Wheel.finishTick
  split
  · exact ⟨rfl, rfl, rfl, rfl, fun _ => ⟨rfl, rfl⟩⟩
  · exact .refl w

theorem sameTimers_openTick (w : Wheel) : SameTimers w w.openTick :=
  ⟨rfl, rfl, rfl, rfl, fun _ => ⟨rfl, rfl⟩⟩

theorem sameTimers_placeNode (w : Wheel) (s : UInt64) : SameTimers w (w.placeNode s) := by
  rw [placeNode_eq]
  refine ⟨rfl, rfl, rfl, rfl, fun t => ?_⟩
  show (update w.nodes s _ t).handle = _ ∧ (update w.nodes s _ t).info = _
  by_cases ht : t = s
  · rw [ht, update_self]
    exact ⟨rfl, rfl⟩
  · rw [update_of_ne ht]
    exact ⟨rfl, rfl⟩

theorem sameTimers_checkNode (w : Wheel) (s : UInt64) : SameTimers w (w.checkNode s) :=
  SameTimers.trans (b := { w with links := w.links.detach (.node s) })
    ⟨rfl, rfl, rfl, rfl, fun _ => ⟨rfl, rfl⟩⟩ (sameTimers_placeNode _ s)

section Loop

variable {w : Wheel} {members : Head → List Link} {target : UInt64}

theorem rank_finishTick (inv : PlacedInv w members none) :
    w.finishTick.rank target members = w.rank target members := by
  have hf := inv.frontier_toNat
  unfold Wheel.finishTick Wheel.rank
  split
  · rename_i hc
    simp only [Wheel.frontier, hc.1, if_true] at hf
    simp only [hc.1, if_true, Bool.false_eq_true, if_false, hf, Nat.add_zero]
  · rfl

theorem rank_openTick (inv : PlacedInv w members none) (hp : w.processing = false)
    (hne : w.completedTick ≠ w.geometry.targetTick w.latestNowNs)
    (ht : target = w.geometry.targetTick w.latestNowNs) :
    w.openTick.rank target (w.opened members) + 1 ≤ w.rank target members := by
  have hlen := (placed_openTick inv hp hne).length_le .pending
  have hreached := inv.reached
  simp only [hp, Bool.false_eq_true, if_false, Nat.add_zero] at hreached
  have hlt : w.completedTick.toNat < target.toNat := by
    rw [ht]
    exact Nat.lt_of_le_of_ne hreached fun e => hne (toNat_inj.mp e)
  obtain ⟨n, hn⟩ : ∃ n, target.toNat = w.completedTick.toNat + 1 + n :=
    ⟨target.toNat - (w.completedTick.toNat + 1), by omega⟩
  have e₁ : w.openTick.rank target (w.opened members) = n * 65537 + (w.opened members .pending).length := by
    show (target.toNat - (w.completedTick.toNat + 1)) * 65537 + _ = _
    rw [show target.toNat - (w.completedTick.toNat + 1) = n by omega]
  have e₂ : w.rank target members = (n + 1) * 65537 + (members .pending).length := by
    unfold Wheel.rank
    rw [hp, if_neg Bool.false_ne_true, show target.toNat - (w.completedTick.toNat + 0) = n + 1 by omega]
  rw [e₁, e₂]
  omega

theorem checkNode_ticks (w : Wheel) (s : UInt64) :
    (w.checkNode s).completedTick = w.completedTick ∧ (w.checkNode s).processing = w.processing := by
  unfold Wheel.checkNode
  rw [placeNode_eq]
  exact ⟨rfl, rfl⟩

theorem finishTick_processing (w : Wheel) (h : w.finishTick.processing = true) :
    w.finishTick = w ∧ w.links.next .pending ≠ .pending := by
  unfold Wheel.finishTick at h ⊢
  split at h
  · cases h
  rename_i hc
  rw [if_neg hc]
  exact ⟨rfl, fun e => hc ⟨h, e⟩⟩

/-- **The loop keeps the places, spends no more than was left to do, and stops when it has caught up or spent
    a budget.** -/
theorem placed_advanceLoop (target : UInt64) (w : Wheel) (ticksLeft nodesLeft : Nat)
    (ht : target = w.geometry.targetTick w.latestNowNs) (members : Head → List Link)
    (inv : PlacedInv w members none) :
    let r := Wheel.advanceLoop target w ticksLeft nodesLeft
    ∃ members', PlacedInv r.1 members' none ∧ SameTimers w r.1 ∧ r.2.1 ≤ ticksLeft ∧ r.2.2 ≤ nodesLeft ∧
      r.1.rank target members' + ticksLeft + nodesLeft ≤ w.rank target members + r.2.1 + r.2.2 ∧
      (r.1.CaughtUp target ∨ r.2.1 = 0 ∨ r.2.2 = 0) := by
  -- a round that goes on: the wheel it works on, and what it cost
  have visit : ∀ (v : Wheel) (ms : Head → List Link) (left : Nat), PlacedInv v ms none →
      target = v.geometry.targetTick v.latestNowNs →
      ¬ (v.finishTick.processing = false ∧ (v.finishTick.completedTick = target ∨ left = 0)) →
      ∃ ms', PlacedInv v.finishTick.visitTick ms' none ∧ SameTimers v v.finishTick.visitTick ∧
        v.finishTick.visitTick.rank target ms' + left ≤
          v.rank target ms + (if v.finishTick.processing then left else left - 1) ∧
        v.finishTick.visitTick.processing = true ∧
        (v.finishTick.processing = true → v.finishTick.visitTick.links.next .pending ≠ .pending) := by
    intro v ms left hv htv hgo
    have h₁ := placed_finishTick hv
    have hr₁ : v.finishTick.rank target ms = v.rank target ms := rank_finishTick hv
    have hs₁ := sameTimers_finishTick v
    unfold Wheel.visitTick
    cases hp : v.finishTick.processing with
    | true =>
      rw [if_pos rfl, if_pos rfl]
      obtain ⟨e, hne⟩ := finishTick_processing v hp
      refine ⟨ms, h₁, hs₁, by rw [hr₁], hp, fun _ => ?_⟩
      rw [e]
      exact hne
    | false =>
      rw [if_neg Bool.false_ne_true, if_neg Bool.false_ne_true]
      have hgo' : v.finishTick.completedTick ≠ target ∧ left ≠ 0 :=
        not_or.mp fun h => hgo ⟨hp, h⟩
      have ht₁ : target = v.finishTick.geometry.targetTick v.finishTick.latestNowNs := by
        rw [hs₁.geometry, hs₁.latestNowNs]
        exact htv
      have hne : v.finishTick.completedTick ≠
          v.finishTick.geometry.targetTick v.finishTick.latestNowNs := ht₁ ▸ hgo'.1
      have hr₂ := rank_openTick h₁ hp hne ht₁
      refine ⟨_, placed_openTick h₁ hp hne, hs₁.trans (sameTimers_openTick _), ?_, rfl, nofun⟩
      omega
  fun_induction Wheel.advanceLoop target w ticksLeft nodesLeft generalizing members with
  | case1 w ticksLeft nodesLeft w₁ hstop =>
      refine ⟨members, placed_finishTick inv, sameTimers_finishTick w, le_refl _, le_refl _, ?_, ?_⟩
      · show w.finishTick.rank target members + _ + _ ≤ _
        rw [rank_finishTick inv]
      · rcases hstop.2 with hc | hz
        · exact .inl ⟨hstop.1, hc⟩
        · exact .inr (.inl hz)
  | case2 w ticksLeft w₁ hgo w₂ left s hs =>
      obtain ⟨ms, h₂, hs₂, hr₂, -, -⟩ := visit w members ticksLeft inv ht hgo
      refine ⟨ms, h₂, hs₂, ?_, le_refl _, ?_, .inr (.inr rfl)⟩
      · show (if w.finishTick.processing then ticksLeft else ticksLeft - 1) ≤ ticksLeft
        split <;> omega
      · have hr₂' : w₂.rank target ms + ticksLeft ≤ w.rank target members + left := hr₂
        dsimp only
        omega
  | case3 w ticksLeft nodesLeft w₁ hgo w₂ left s hs hn ih =>
      obtain ⟨ms, h₂, hs₂, hr₂, -, -⟩ := visit w members ticksLeft inv ht hgo
      obtain ⟨ms₃, h₃, hlen⟩ := placed_checkNode h₂ hs
      have hs₃ := hs₂.trans (sameTimers_checkNode _ s)
      have ht₃ : target = (w₂.checkNode s).geometry.targetTick (w₂.checkNode s).latestNowNs := by
        rw [hs₃.geometry, hs₃.latestNowNs]
        exact ht
      obtain ⟨ms₄, h₄, hs₄, hl₄, hn₄, hr₄, hend⟩ := ih ht₃ ms₃ h₃
      have hrank : (w₂.checkNode s).rank target ms₃ + 1 = w₂.rank target ms := by
        unfold Wheel.rank
        rw [(checkNode_ticks w₂ s).1, (checkNode_ticks w₂ s).2]
        omega
      have hleft : left ≤ ticksLeft := by
        show (if w.finishTick.processing then ticksLeft else ticksLeft - 1) ≤ ticksLeft
        split <;> omega
      refine ⟨ms₄, h₄, hs₃.trans hs₄, hl₄.trans hleft, hn₄.trans (Nat.sub_le _ _), ?_, hend⟩
      have hr₂' : w₂.rank target ms + ticksLeft ≤ w.rank target members + left := hr₂
      omega
  | case4 w ticksLeft nodesLeft w₁ hgo w₂ left hlt hs ih =>
      obtain ⟨ms, h₂, hs₂, hr₂, -, -⟩ := visit w members ticksLeft inv ht hgo
      have ht₂ : target = w₂.geometry.targetTick w₂.latestNowNs := by
        rw [hs₂.geometry, hs₂.latestNowNs]
        exact ht
      obtain ⟨ms₄, h₄, hs₄, hl₄, hn₄, hr₄, hend⟩ := ih ht₂ ms h₂
      refine ⟨ms₄, h₄, hs₂.trans hs₄, hl₄.trans (le_of_lt hlt), hn₄, ?_, hend⟩
      have hr₂' : w₂.rank target ms + ticksLeft ≤ w.rank target members + left := hr₂
      omega
  | case5 w ticksLeft nodesLeft w₁ hgo w₂ left hlt hs =>
      -- a tick in process that is not drained starts with a node
      obtain ⟨ms, h₂, -, -, -, hne⟩ := visit w members ticksLeft inv ht hgo
      exfalso
      have hm := ((h₂.rings.ring .pending).linked mem_cons_self).2.2.2
      cases hproc : w.finishTick.processing with
      | true =>
        rcases mem_cons.mp hm with e | hm
        · exact hne hproc e
        · obtain ⟨t, et, -⟩ := h₂.active _ _ hm
          exact hs t et
      | false =>
        have hgo' : ticksLeft ≠ 0 := fun e => hgo ⟨hproc, .inr e⟩
        refine hlt ?_
        show (if w.finishTick.processing then ticksLeft else ticksLeft - 1) < ticksLeft
        rw [hproc, if_neg Bool.false_ne_true]
        omega

end Loop

/-! ## 3. The calls -/

/-- Every timer of the wheel has its place. -/
def Wheel.Placed (w : Wheel) : Prop := ∃ members, PlacedInv w members none

section Calls

variable {w : Wheel} {members : Head → List Link} {now : UInt64} {h : TimerHandle}

theorem deadlineValues_bucket {deadline due bucket : UInt64}
    (e : w.deadlineValues now deadline = .ok (due, bucket)) :
    bucket = due % w.geometry.bucketCount := by
  unfold Wheel.deadlineValues Geometry.bucketIndex at e
  split at e
  · cases e
  split at e
  · cases e
  split at e
  · cases e
  split at e
  · cases e
  rename_i hb
  split at hb
  · cases hb
  · obtain ⟨rfl, rfl⟩ := Prod.mk.inj (Except.ok.inj e)
    exact (Except.ok.inj hb).symm

theorem placed_acquire (inv : PlacedInv w members none) {o o' : HandleOwner} (ho : w.owner = some o)
    (e : o.acquire = .ok (h, o')) :
    PlacedInv { w with owner := some o' } members (some h.slotIndex) := by
  obtain ⟨free, hfree⟩ := inv.owner o ho
  refine { (wheelInv_acquire inv.toWheelInv ho e).1, inv with
    counted := fun o₂ e₂ => ?_
    hashed := fun t ht hne => ?_ }
  · obtain rfl : o' = o₂ := Option.some.inj e₂
    exact counted_acquire hfree (inv.counted o ho) e
  · rw [Wheel.active_owner rfl, active_acquire hfree e] at ht
    have ht' := ht.resolve_right fun e => hne (by rw [e])
    exact inv.hashed t ((Wheel.active_owner ho t).mpr ht') (by simp)

theorem placed_release (inv : PlacedInv w members (some h.slotIndex)) {o o' : HandleOwner}
    (ho : w.owner = some o) (e : o.release h = .ok o') :
    PlacedInv { w with owner := some o' } members none := by
  refine { wheelInv_release inv.toWheelInv ho e, inv with
    counted := fun o₂ e₂ => ?_
    hashed := fun t ht _ => ?_ }
  · obtain rfl : o' = o₂ := Option.some.inj e₂
    exact counted_release (inv.counted o ho) e
  · rw [Wheel.active_owner rfl, active_release e] at ht
    exact inv.hashed t ((Wheel.active_owner ho t).mpr ht.1) fun e => ht.2 (Option.some.inj e).symm

/-- The wheel `w'` has its timers in their places, with the geometry and the accepted time of `w`. -/
structure Kept (w w' : Wheel) : Prop where
  placed : w'.Placed
  geometry : w'.geometry = w.geometry
  latestNowNs : w'.latestNowNs = w.latestNowNs

theorem Kept.cursor {w' : Wheel} (k : Kept w w') (cursor : UInt64) :
    Kept w { w' with shutdownCursor := cursor } := by
  obtain ⟨members, inv⟩ := k.placed
  exact { k with placed := ⟨members, { inv with }⟩ }

section

variable (inv : PlacedInv w members none)
include inv

theorem kept_same : Kept w w := ⟨⟨members, inv⟩, rfl, rfl⟩

theorem kept_register (now deadline : UInt64) (out : TimerHandle) (fail : Option Failure) :
    Kept w (w.registerRuntime now deadline out (acquireOr fail)).2 := by
  unfold Wheel.registerRuntime
  split
  · exact kept_same inv
  · exact kept_same inv
  split
  · exact kept_same inv
  rename_i o ho
  split
  · exact kept_same inv
  split
  · exact kept_same inv
  rename_i due bucket hvalues
  split
  · exact kept_same inv
  rename_i h o' hacq
  have hacq' : o.acquire = .ok (h, o') := by
    cases fail with
    | none => exact hacq
    | some e => cases hacq
  have hact := (wheelInv_acquire inv.toWheelInv ho hacq').2
  have inv' := placed_setNode (placed_acquire inv ho hacq') { w.nodes h.slotIndex with
    handle := h, deadlineNs := deadline, dueTick := due, bucketIndex := bucket }
  have same := sameTimers_placeNode { w with
    owner := some o', nodes := update w.nodes h.slotIndex { w.nodes h.slotIndex with
      handle := h, deadlineNs := deadline, dueTick := due, bucketIndex := bucket } } h.slotIndex
  refine ⟨⟨_, placed_place inv' hact ?_ ?_⟩, same.geometry, same.latestNowNs⟩
  · simp only [update_self]
    obtain ⟨hd1, hd2⟩ := deadlineValues_ok hvalues
    exact ⟨hd1, hd2⟩
  · simp only [update_self]
    exact deadlineValues_bucket hvalues

theorem kept_cancel (h : TimerHandle) (fail : Option Failure) :
    Kept w (w.cancelRuntime h (releaseOr fail)).2 := by
  unfold Wheel.cancelRuntime
  split
  · rename_i o hv ho
    obtain ⟨k, hk⟩ := inv.linked _ (validateSlot_ok hv) (by simp)
    dsimp only
    split
    · obtain ⟨hp, hn, -, -⟩ := (inv.rings.ring k).linked (mem_cons_of_mem _ hk)
      rw [restore_detach hp hn]
      exact kept_same inv
    · rename_i o' hrel
      have hrel' : o.release h = .ok o' := by
        cases fail with
        | none => exact hrel
        | some e => cases hrel
      exact ⟨⟨_, placed_release (placed_setNode (placed_detach inv hk) .free) ho hrel'⟩, rfl, rfl⟩
  · exact kept_same inv
  · exact kept_same inv

theorem kept_rearm (h : TimerHandle) (now deadline : UInt64) : Kept w (w.rearm h now deadline).2 := by
  unfold Wheel.rearm
  split
  · rename_i hv
    have hactive : w.Active h.slotIndex := validateSlot_ok hv
    split
    · exact kept_same inv
    split
    · exact kept_same inv
    rename_i due bucket hvalues
    obtain ⟨k, hk⟩ := inv.linked _ hactive (by simp)
    have inv' := placed_setNode (placed_detach inv hk) { w.nodes h.slotIndex with
      ready := false, deadlineNs := deadline, dueTick := due, bucketIndex := bucket }
    refine ⟨⟨_, placed_place inv' hactive ?_ ?_⟩, (sameTimers_placeNode _ _).geometry,
      (sameTimers_placeNode _ _).latestNowNs⟩
    · simp only [update_self]
      obtain ⟨hd1, hd2⟩ := deadlineValues_ok hvalues
      exact ⟨hd1, hd2⟩
    · simp only [update_self]
      exact deadlineValues_bucket hvalues
  · exact kept_same inv

theorem kept_takeExpired (fail : Option Failure) : Kept w (w.takeExpiredRuntime (releaseOr fail)).2 := by
  unfold Wheel.takeExpiredRuntime
  split
  · rename_i slot _ _
    have k := kept_cancel inv (w.nodes slot).handle fail
    dsimp only
    split <;> (rename_i hc; rw [hc] at k; exact k)
  · exact kept_same inv

theorem kept_shutdownBegin : Kept w w.shutdownBegin.2 := by
  unfold Wheel.shutdownBegin
  split
  · exact kept_same inv
  · exact ⟨⟨members, { inv with }⟩, rfl, rfl⟩

theorem kept_shutdownStep (maxSlots : UInt64) (fail : Option Failure) :
    Kept w (w.shutdownStepRuntime maxSlots (releaseOr fail)).2 := by
  have same := kept_same inv
  unfold Wheel.shutdownStepRuntime
  split
  · exact same
  split
  · exact same
  split
  · exact same
  split
  · exact same
  dsimp only
  split
  · exact same.cursor _
  split
  · exact same.cursor _
  rename_i slot _
  have k := kept_cancel inv (w.nodes slot).handle fail
  split
  · rename_i hc
    rw [hc] at k
    exact k.cursor _
  · rename_i hc
    rw [hc] at k
    exact k

theorem kept_prepare (capacity maxMemoryBytes counter : UInt64) (memory ownerMemory : Bool) :
    Kept w (w.prepare capacity maxMemoryBytes counter memory ownerMemory).2 := by
  rcases prepare_cases w capacity maxMemoryBytes counter memory ownerMemory with
    e | ⟨o, bytes, hnone, hfree, hnoact, hcounted, e⟩
  · rw [e]
    exact kept_same inv
  · rw [e]
    have hempty := inv.members_eq_nil hnone
    have hno : ∀ h t, .node t ∉ members h := by
      intro h t ht
      rw [hempty h] at ht
      exact absurd ht not_mem_nil
    refine ⟨⟨members, { wheelInv_prepared inv.toWheelInv hnone hfree hnoact capacity bytes
        maxMemoryBytes, inv with
      counted := fun o' eo => ?_
      flag := fun h t ht => absurd ht (hno h t)
      hashed := fun t ht => absurd ((Wheel.active_owner rfl t).mp ht) (hnoact t)
      bucket := fun b t ht => absurd ht (hno _ t)
      pending := fun t ht => absurd ht (hno _ t) }⟩, rfl, rfl⟩
    obtain rfl : o = o' := Option.some.inj eo
    exact hcounted

end

/-- An advance is refused, or accepts its time and runs its loop. -/
theorem advance_cases (w : Wheel) (now : UInt64) (maxTicks maxNodes : Nat) :
    (∃ e, w.advance now maxTicks maxNodes = (.error e, w)) ∨
    ∃ r, w.geometry.originNs ≤ now ∧ w.latestNowNs ≤ now ∧
      let w' := (Wheel.advanceLoop (w.geometry.targetTick now) { w with latestNowNs := now }
        maxTicks maxNodes).1
      r.progress = w'.progressValue ∧ w.advance now maxTicks maxNodes = (.ok r, w') := by
  unfold Wheel.advance
  split
  · exact .inl ⟨_, rfl⟩
  split
  · exact .inl ⟨_, rfl⟩
  split
  · exact .inl ⟨_, rfl⟩
  split
  · exact .inl ⟨_, rfl⟩
  split
  · exact .inl ⟨_, rfl⟩
  rename_i hnow
  rw [not_or, not_lt, not_lt] at hnow
  exact .inr ⟨_, hnow.1, hnow.2, rfl, rfl⟩

theorem placed_accept (inv : PlacedInv w members none) (ho : w.geometry.originNs ≤ now)
    (hl : w.latestNowNs ≤ now) :
    PlacedInv { w with latestNowNs := now } members none :=
  { inv with origin := ho, reached := Nat.le_trans inv.reached (targetTick_mono inv.origin hl) }

end Calls

theorem placed_create {geometry : Geometry} {maxMemoryBytes : UInt64} {memory : Bool}
    (h : Wheel.create geometry maxMemoryBytes memory = .ok w) : w.Placed := by
  obtain ⟨inv, -⟩ := wheelInv_create h
  obtain ⟨total, rfl⟩ := create_eq h
  refine ⟨_, { inv with
    counted := nofun
    flag := fun h t ht => absurd ht not_mem_nil
    hashed := ?_
    bucket := fun b t ht => absurd ht not_mem_nil
    pending := fun t ht => absurd ht not_mem_nil
    count := rfl }⟩
  rintro s ⟨o, eo, -⟩
  cases eo

/-! ## 4. Runs -/

/-- What every run keeps: the places, and the wheel's own record of the accepted time. -/
structure RunInv (w : Wheel) (latest : Option UInt64) : Prop where
  placed : w.Placed
  accepted : w.latestNowNs = latest.getD w.geometry.originNs

section

variable {latest : Option UInt64}

theorem RunInv.of_kept {w' : Wheel} (h : RunInv w latest) (k : Kept w w') : RunInv w' latest :=
  ⟨k.placed, by rw [k.latestNowNs, k.geometry]; exact h.accepted⟩

/-- **Every call keeps every timer in its place**, whether it succeeds or not. -/
theorem runInv_exec (h : RunInv w latest) (c : Call) : RunInv (w.exec c) (w.accepted latest c) := by
  obtain ⟨members, inv⟩ := h.placed
  cases c with
  | prepare capacity maxMemoryBytes counter memory ownerMemory =>
      exact h.of_kept (kept_prepare inv capacity maxMemoryBytes counter memory ownerMemory)
  | register now deadline out fail => exact h.of_kept (kept_register inv now deadline out fail)
  | cancel handle fail => exact h.of_kept (kept_cancel inv handle fail)
  | rearm handle now deadline => exact h.of_kept (kept_rearm inv handle now deadline)
  | takeExpired fail => exact h.of_kept (kept_takeExpired inv fail)
  | shutdownBegin => exact h.of_kept (kept_shutdownBegin inv)
  | shutdownStep maxSlots fail => exact h.of_kept (kept_shutdownStep inv maxSlots fail)
  | advance now maxTicks maxNodes =>
      rcases advance_cases w now maxTicks maxNodes with ⟨e, hr⟩ | ⟨r, ho, hl, -, hr⟩
      · simp only [Wheel.exec, Wheel.accepted, hr]
        exact h
      · obtain ⟨members', inv', same, -⟩ := placed_advanceLoop (w.geometry.targetTick now)
          { w with latestNowNs := now } maxTicks maxNodes rfl members (placed_accept inv ho hl)
        simp only [Wheel.exec, Wheel.accepted, hr]
        exact ⟨⟨members', inv'⟩, same.latestNowNs⟩

theorem runInv_of_run (run : WheelRun w latest) : RunInv w latest := by
  induction run with
  | create h =>
      obtain ⟨-, e⟩ := wheelInv_create h
      exact ⟨placed_create h, e⟩
  | call _ c ih => exact runInv_exec ih c

theorem placed_of_run (run : WheelRun w latest) : w.Placed := (runInv_of_run run).placed

theorem RunInv.ready_accepted (h : RunInv w latest)
    {members : Head → List Link} (inv : WheelInv w members none) {s : UInt64}
    (hs : .node s ∈ members .ready) :
    ∃ now, latest = some now ∧ (w.nodes s).deadlineNs ≤ now := by
  obtain ⟨hle, hlt⟩ := inv.ready_deadline hs
  have hacc := h.accepted
  cases latest with
  | none =>
      rw [hacc] at hlt
      exact absurd hlt (UInt64.lt_irrefl _)
  | some now =>
      rw [hacc] at hle
      exact ⟨now, rfl, hle⟩

end

/-- **The wheel never fires early.** A timer on the ready ring, or handed out by `takeExpired`, has its deadline
    at or before the last time an advance accepted. -/
theorem ready_deadline_le_latest {w : Wheel} {latest : Option UInt64} (run : WheelRun w latest) :
    (∀ n s, w.links.next^[n] .ready = .node s → ∃ now, latest = some now ∧ (w.nodes s).deadlineNs ≤ now) ∧
    ∀ fail event w', w.takeExpiredRuntime (releaseOr fail) = (.ok event, w') →
      ∃ now, latest = some now ∧ event.timer.deadlineNs ≤ now := by
  have h := runInv_of_run run
  obtain ⟨members, inv⟩ := h.placed
  refine ⟨fun n s hs => ?_, fun fail event w' he => ?_⟩
  · have hm := (inv.rings.ring .ready).iterate_mem n
    change w.links.next^[n] .ready ∈ _ at hm
    rw [hs] at hm
    exact h.ready_accepted inv.toWheelInv ((mem_cons.mp hm).resolve_left
      (Head.link_ne_node .ready s).symm)
  · unfold Wheel.takeExpiredRuntime at he
    split at he
    · rename_i slot _ hnext
      dsimp only at he
      have hm := inv.mem_of_next (h := .ready) hnext
      split at he
      · obtain ⟨rfl, -⟩ : _ ∧ _ := ⟨Except.ok.inj (Prod.mk.inj he).1, (Prod.mk.inj he).2⟩
        exact h.ready_accepted inv.toWheelInv hm
      · cases (Prod.mk.inj he).1
    · cases (Prod.mk.inj he).1

theorem sampleWheel_ready :
    sampleWheel.links.next .ready = .node 0 ∧
      ∃ now, (some 130 : Option UInt64) = some now ∧ (sampleWheel.nodes 0).deadlineNs ≤ now := by
  have hnext : sampleWheel.links.next .ready = .node 0 := by decide +kernel
  refine ⟨hnext, (ready_deadline_le_latest sampleWheel_run).1 1 0 hnext⟩

/-! ## 5. Every reachable wheel -/

/-- **The structure of a wheel.** On every run there are disjoint rings behind the heads such that every active
    slot is on exactly one of them, as its ready flag says, and nothing else is; the counts are exact. -/
theorem wheel_structure {w : Wheel} {latest : Option UInt64} (run : WheelRun w latest) :
    ∃ members : Head → List Link, RingSystem w.links Head.link members ∧
      (∀ s, w.Active s → ∃ h, .node s ∈ members h ∧ (∀ k, .node s ∈ members k → k = h) ∧
        (h = .bucket (w.nodes s).bucketIndex ∨ h = .pending ∨ h = .ready) ∧
        ((w.nodes s).ready = true ↔ h = .ready)) ∧
      (∀ s, ¬ w.Active s → ∀ h, Link.node s ∉ members h) ∧
      (∀ h x, x ∈ members h → ∃ s, x = .node s) ∧
      w.readyCount.toNat = (members .ready).length ∧
      ∀ o, w.owner = some o → o.activeCount.toNat = o.activeSlots.length ∧
        ∀ s, s ∈ o.activeSlots ↔ w.Active s := by
  obtain ⟨members, inv⟩ := placed_of_run run
  refine ⟨members, inv.rings, fun s hs => ?_, fun s hs h hm => hs (inv.active_of_mem hm),
    fun h x hx => ?_, inv.count, fun o ho => ⟨inv.counted o ho, fun s => ?_⟩⟩
  · obtain ⟨h, hm⟩ := inv.linked s hs (by simp)
    refine ⟨h, hm, fun k hk => inv.rings.unique hk hm, ?_, inv.flag h s hm⟩
    cases h with
    | bucket b => exact .inl (by rw [(inv.bucket b s hm).1])
    | pending => exact .inr (.inl rfl)
    | ready => exact .inr (.inr rfl)
  · obtain ⟨s, e, -⟩ := inv.active h x hx
    exact ⟨s, e⟩
  · rw [mem_activeSlots, Wheel.active_owner ho]

theorem wheel_structure_sample :
    sampleWheel.readyCount = 1 ∧ ∃ members : Head → List Link,
      RingSystem sampleWheel.links Head.link members ∧ (members .ready).length = 1 := by
  have hcount : sampleWheel.readyCount = 1 := by decide +kernel
  obtain ⟨members, hrings, -, -, -, hlen, -⟩ := wheel_structure sampleWheel_run
  rw [hcount] at hlen
  exact ⟨hcount, members, hrings, hlen.symm⟩

/-- Timer `s` is met on the ring of `h`. -/
def Wheel.On (w : Wheel) (h : Head) (s : UInt64) : Prop := ∃ n, w.links.next^[n] h.link = .node s

theorem WheelInv.on_iff (inv : WheelInv w members none)
    {h : Head} {s : UInt64} : w.On h s ↔ .node s ∈ members h :=
  ((inv.rings.ring h).mem_iff (Head.link_ne_node h s).symm).symm

/-- The place of every timer of a wheel that has caught up with `target`. -/
structure Exact (w : Wheel) (target : UInt64) : Prop where
  ready : ∀ s, w.On .ready s ↔ w.Active s ∧ (w.nodes s).dueTick ≤ target
  bucket : ∀ b s, w.On (.bucket b) s ↔ w.Active s ∧ target < (w.nodes s).dueTick ∧
    b = (w.nodes s).dueTick % w.geometry.bucketCount

/-- **A wheel that has caught up has its timers exactly where they belong.** -/
theorem PlacedInv.exact (inv : PlacedInv w members none)
    {target : UInt64} (h : w.CaughtUp target) : Exact w target := by
  obtain ⟨hp, hc⟩ := h
  have hready := inv.ready
  have hbucket := inv.bucket
  simp only [hp, Bool.false_eq_true, if_false, Nat.add_zero] at hready hbucket
  rw [hc] at hready hbucket
  have hhash := fun s ha => inv.hashed s ha (by simp)
  -- an active timer is ready and due, or in its bucket and not due
  have key : ∀ s, w.Active s → (.node s ∈ members .ready ∧ (w.nodes s).dueTick ≤ target) ∨
      (.node s ∈ members (.bucket (w.nodes s).bucketIndex) ∧ target < (w.nodes s).dueTick) := by
    intro s hs
    obtain ⟨k, hk⟩ := inv.linked s hs (by simp)
    cases k with
    | bucket b =>
      obtain ⟨rfl, hlt⟩ := hbucket b s hk
      exact .inr ⟨hk, lt_iff_toNat_lt.mpr hlt⟩
    | pending =>
      rw [inv.idle hp] at hk
      exact absurd hk not_mem_nil
    | ready => exact .inl ⟨hk, le_iff_toNat_le.mpr (hready s hk)⟩
  refine ⟨fun s => ?_, fun b s => ?_⟩
  · rw [inv.on_iff]
    constructor
    · exact fun hm => ⟨inv.active_of_mem hm, le_iff_toNat_le.mpr (hready s hm)⟩
    rintro ⟨hs, hle⟩
    rcases key s hs with ⟨hm, -⟩ | ⟨-, hlt⟩
    · exact hm
    · exact absurd hle (not_le.mpr hlt)
  · rw [inv.on_iff]
    constructor
    · intro hm
      have hs := inv.active_of_mem hm
      obtain ⟨rfl, hlt⟩ := hbucket b s hm
      exact ⟨hs, lt_iff_toNat_lt.mpr hlt, hhash s hs⟩
    · rintro ⟨hs, hlt, rfl⟩
      rcases key s hs with ⟨-, hle⟩ | ⟨hm, -⟩
      · exact absurd hle (not_le.mpr hlt)
      · rwa [← hhash s hs]

theorem progressValue_caughtUp :
    w.progressValue.caughtUp = true ↔ w.CaughtUp (w.geometry.targetTick w.latestNowNs) := by
  show (!w.processing && w.completedTick == w.geometry.targetTick w.latestNowNs) = true ↔ _
  rw [Bool.and_eq_true, Bool.not_eq_true', beq_iff_eq]
  rfl

/-- **The wheel never loses a timer.** When an advance has caught up, the ready ring holds exactly the active
    timers that are due, and every other one sits in its own bucket. -/
theorem caught_up_exact {w w' : Wheel} {latest : Option UInt64} (run : WheelRun w latest)
    {now : UInt64} {maxTicks maxNodes : Nat} {r : AdvanceReport}
    (e : w.advance now maxTicks maxNodes = (.ok r, w')) (hc : r.progress.caughtUp = true) :
    (∀ s, w'.On .ready s ↔ w'.Active s ∧ (w'.nodes s).dueTick ≤ r.progress.targetTick) ∧
    ∀ s, w'.Active s → ¬ (w'.nodes s).dueTick ≤ r.progress.targetTick →
      w'.On (.bucket ((w'.nodes s).dueTick % w'.geometry.bucketCount)) s ∧
      (∀ b, w'.On (.bucket b) s → b = (w'.nodes s).dueTick % w'.geometry.bucketCount) ∧
      w'.completedTick < (w'.nodes s).dueTick := by
  obtain ⟨r', -, -, hr, e'⟩ := (advance_cases w now maxTicks maxNodes).resolve_left (by simp [e])
  obtain ⟨hok, hw'⟩ := Prod.mk.inj (e.symm.trans e')
  obtain rfl := Except.ok.inj hok
  rw [← hw'] at hr
  have run' := run.call (.advance now maxTicks maxNodes)
  have hw : w.exec (.advance now maxTicks maxNodes) = w' := congrArg Prod.snd e
  rw [hw] at run'
  obtain ⟨members, inv⟩ := placed_of_run run'
  rw [hr] at hc ⊢
  have hup := progressValue_caughtUp.mp hc
  have hexact := inv.exact hup
  refine ⟨hexact.ready, fun s hs hlt => ?_⟩
  have hlt' := not_le.mp hlt
  refine ⟨(hexact.bucket _ s).mpr ⟨hs, hlt', rfl⟩, fun b hb => ((hexact.bucket b s).mp hb).2.2, ?_⟩
  rw [hup.2]
  exact hlt'

theorem caught_up_exact_sample :
    (sampleWheel.nodes 0).dueTick = 3 ∧
      (sampleWheel.On .ready 0 ↔ sampleWheel.Active 0 ∧ (sampleWheel.nodes 0).dueTick ≤ 3) := by
  have hup : sampleStart.advance 130 8 8 = (.ok ⟨⟨130, 3, 3, false, 1, true⟩, 3, 1⟩, sampleWheel) :=
    Prod.ext (by decide +kernel) rfl
  exact ⟨by decide +kernel, (caught_up_exact sampleStart_run hup rfl).1 0⟩

end Vireo.Timer
