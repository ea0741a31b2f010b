/-
  File:      Vireo/Timer/Run.lean
  Subject:   THE RINGS OF THE TIMER WHEEL: their invariant, its moves, and the runs of the wheel.
-/
import Vireo.Timer.Wheel

namespace Vireo.Timer

open Vireo.Lib Function List

/-! ## 1. The invariant -/

/-- The dummy heads of a wheel. -/
inductive Head where
  | bucket (index : UInt64)
  | pending
  | ready
deriving DecidableEq

def Head.link : Head → Link
  | .bucket i => .bucket i
  | .pending => .pending
  | .ready => .ready

theorem Head.link_ne_node (h : Head) (s : UInt64) : h.link ≠ .node s := by
  cases h <;> exact fun e => by cases e

/-- The slot carries a registered timer. -/
def Wheel.Active (w : Wheel) (s : UInt64) : Prop := ∃ o, w.owner = some o ∧ o.Active s

/-- The node's deadline lies after the origin and at or before the boundary of its due tick. -/
structure TimerNode.Due (n : TimerNode) (g : Geometry) : Prop where
  deadline : n.deadlineNs.toNat ≤ g.originNs.toNat + n.dueTick.toNat * g.tickNs.toNat
  positive : 0 < n.dueTick.toNat

/-- What a wheel keeps, with the members of its rings and the timer that is between two rings. -/
structure WheelInv (w : Wheel) (members : Head → List Link) (loose : Option UInt64) : Prop where
  owner : ∀ o, w.owner = some o → ∃ free, OwnerInv o free
  rings : RingSystem w.links Head.link members
  active : ∀ h x, x ∈ members h → ∃ s, x = .node s ∧ w.Active s
  linked : ∀ s, w.Active s → loose ≠ some s → ∃ h, .node s ∈ members h
  apart : ∀ s, loose = some s → ∀ h, Link.node s ∉ members h
  idle : w.processing = false → members .pending = []
  origin : w.geometry.originNs ≤ w.latestNowNs
  reached : w.completedTick.toNat + (if w.processing then 1 else 0) ≤
    (w.geometry.targetTick w.latestNowNs).toNat
  due : ∀ s, w.Active s → loose ≠ some s → (w.nodes s).Due w.geometry
  ready : ∀ s, .node s ∈ members .ready →
    (w.nodes s).dueTick.toNat ≤ w.completedTick.toNat + (if w.processing then 1 else 0)

section Invariant

variable {w : Wheel} {members : Head → List Link} {loose : Option UInt64} {s : UInt64}

theorem WheelInv.frontier_toNat (inv : WheelInv w members loose) :
    w.frontier.toNat = w.completedTick.toNat + (if w.processing then 1 else 0) := by
  have hr := inv.reached
  have hlt := (w.geometry.targetTick w.latestNowNs).toNat_lt
  unfold Wheel.frontier
  cases hp : w.processing with
  | false => simp
  | true =>
      rw [hp] at hr
      simp only [if_true] at hr ⊢
      rw [UInt64.toNat_add, UInt64.toNat_one, Nat.mod_eq_of_lt (by omega)]

theorem WheelInv.ready_deadline (inv : WheelInv w members none) (hs : .node s ∈ members .ready) :
    (w.nodes s).deadlineNs ≤ w.latestNowNs ∧ w.geometry.originNs < w.latestNowNs := by
  obtain ⟨s', e, hact⟩ := inv.active _ _ hs
  obtain rfl : s = s' := Link.node.inj e
  have hdue := inv.due s hact (by simp)
  have hle := Nat.le_trans (inv.ready s hs) inv.reached
  refine ⟨deadline_le_of_due_le hdue.deadline inv.origin hle, ?_⟩
  have hpos := hdue.positive
  rw [targetTick_toNat inv.origin] at hle
  rw [UInt64.lt_iff_toNat_lt]
  refine Nat.lt_of_not_le fun hno => ?_
  rw [Nat.sub_eq_zero_of_le hno, Nat.zero_div] at hle
  omega

/-- Taking a timer out of its ring makes it the loose one. -/
theorem wheelInv_detach (inv : WheelInv w members none) {h : Head} (hm : .node s ∈ members h) :
    WheelInv { w with links := w.links.detach (.node s) }
      (update members h ((members h).erase (.node s))) (some s) := by
  have hsub : ∀ k, List.Subset (update members h ((members h).erase (.node s)) k) (members k) := by
    intro k x hx
    by_cases hk : k = h
    · subst hk
      rw [update_self] at hx
      exact mem_of_mem_erase hx
    · rwa [update_of_ne hk] at hx
  refine { inv with
      rings := inv.rings.detach hm, active := ?_, linked := ?_, apart := ?_, idle := ?_, due := ?_,
      ready := ?_ }
  · intro k x hx
    exact inv.active k x (hsub k hx)
  · intro t ht hne
    obtain ⟨k, hk⟩ := inv.linked t ht (by simp)
    refine ⟨k, ?_⟩
    by_cases hkh : k = h
    · subst hkh
      rw [update_self]
      refine (mem_erase_of_ne ?_).mpr hk
      exact fun e => hne (by rw [Link.node.inj e])
    · rwa [update_of_ne hkh]
  · rintro t et k hk
    obtain rfl : s = t := Option.some.inj et
    by_cases hkh : k = h
    · subst hkh
      rw [update_self] at hk
      exact (nodup_cons.mp (inv.rings.ring k).nodup).2.not_mem_erase hk
    · rw [update_of_ne hkh] at hk
      exact hkh (inv.rings.unique hk hm)
  · intro hp
    have := inv.idle hp
    refine eq_nil_iff_forall_not_mem.mpr fun x hx => ?_
    have hx' := hsub _ hx
    rw [this] at hx'
    exact absurd hx' not_mem_nil
  · intro t ht _
    exact inv.due t ht (by simp)
  · intro t ht
    exact inv.ready t (hsub _ ht)

theorem wheelInv_setNode (inv : WheelInv w members (some s)) (node : TimerNode) :
    WheelInv { w with nodes := update w.nodes s node } members (some s) := by
  refine { inv with due := ?_, ready := ?_ }
  · intro t ht hne
    have hts : t ≠ s := fun e => hne (by rw [e])
    show (update w.nodes s node t).Due w.geometry
    rw [update_of_ne hts]
    exact inv.due t ht hne
  · intro t ht
    have hts : t ≠ s := fun e => inv.apart s rfl .ready (e ▸ ht)
    show (update w.nodes s node t).dueTick.toNat ≤ _
    rw [update_of_ne hts]
    exact inv.ready t ht

theorem wheelInv_readyCount (inv : WheelInv w members loose) (n : UInt64) :
    WheelInv { w with readyCount := n } members loose :=
  { inv with }

/-- Linking the loose timer at the end of a ring, with its node rewritten. -/
theorem wheelInv_link (inv : WheelInv w members (some s)) (hs : w.Active s) (node : TimerNode) (h : Head)
    (hp : h ≠ .pending) (hdue : node.Due w.geometry)
    (hr : h = .ready → node.dueTick.toNat ≤ w.completedTick.toNat + (if w.processing then 1 else 0)) :
    WheelInv { w with
        nodes := update w.nodes s node, links := w.links.append h.link (.node s) }
      (update members h (members h ++ [.node s])) none := by
  have inv' := wheelInv_setNode inv node
  have hout : ∀ j, .node s ∉ Head.link j :: members j := by
    intro j hm
    rcases mem_cons.mp hm with e | hm
    · exact Head.link_ne_node j s e.symm
    · exact inv.apart s rfl j hm
  have hcase : ∀ k x, x ∈ update members h (members h ++ [.node s]) k →
      x ∈ members k ∨ (x = .node s ∧ k = h) := by
    intro k x hx
    by_cases hk : k = h
    · subst hk
      rw [update_self, mem_append, mem_singleton] at hx
      exact hx.imp id fun e => ⟨e, rfl⟩
    · rw [update_of_ne hk] at hx
      exact .inl hx
  refine { inv' with
      rings := inv.rings.append h hout, active := ?_, linked := ?_, apart := ?_, idle := ?_, due := ?_,
      ready := ?_ }
  · intro k x hx
    rcases hcase k x hx with hx | ⟨rfl, -⟩
    · exact inv.active k x hx
    · exact ⟨s, rfl, hs⟩
  · intro t ht _
    by_cases hts : t = s
    · refine ⟨h, ?_⟩
      rw [update_self, hts]
      exact mem_append_right _ (mem_singleton_self _)
    · obtain ⟨k, hk⟩ := inv.linked t ht (fun e => hts (Option.some.inj e).symm)
      refine ⟨k, ?_⟩
      by_cases hkh : k = h
      · subst hkh
        rw [update_self]
        exact mem_append_left _ hk
      · rwa [update_of_ne hkh]
  · nofun
  · intro hproc
    rw [update_of_ne (fun e => hp e.symm)]
    exact inv.idle hproc
  · intro t ht _
    by_cases hts : t = s
    · show (update w.nodes s node t).Due w.geometry
      rw [hts, update_self]
      exact hdue
    · exact inv'.due t ht (fun e => hts (Option.some.inj e).symm)
  · intro t ht
    rcases hcase .ready _ ht with ht | ⟨e, er⟩
    · exact inv'.ready t ht
    obtain rfl : t = s := Link.node.inj e
    show (update w.nodes t node t).dueTick.toNat ≤ _
    rw [update_self]
    exact hr er.symm

/-- The ring a placed timer goes to. -/
def Wheel.home (w : Wheel) (s : UInt64) : Head :=
  if (w.nodes s).dueTick ≤ w.frontier then .ready else .bucket (w.nodes s).bucketIndex

/-- **Placing the loose timer** puts it back under the invariant: it becomes ready only when its
    due tick is at the frontier. -/
theorem wheelInv_place (inv : WheelInv w members (some s)) (hs : w.Active s) (hdue : (w.nodes s).Due w.geometry) :
    WheelInv (w.placeNode s) (update members (w.home s) (members (w.home s) ++ [.node s])) none := by
  have hd : ∀ b, TimerNode.Due { w.nodes s with ready := b } w.geometry :=
    fun _ => { hdue with }
  by_cases hle : (w.nodes s).dueTick ≤ w.frontier
  · have hle' := UInt64.le_iff_toNat_le.mp hle
    rw [inv.frontier_toNat] at hle'
    have e : w.placeNode s = _ := if_pos hle
    have eh : w.home s = .ready := if_pos hle
    rw [e, eh]
    exact wheelInv_readyCount (wheelInv_link inv hs _ .ready (by simp) (hd true) fun _ => hle') _
  · have e : w.placeNode s = _ := if_neg hle
    have eh : w.home s = .bucket (w.nodes s).bucketIndex := if_neg hle
    rw [e, eh]
    exact wheelInv_link inv hs _ (.bucket _) (by simp) (hd false) (by simp)

end Invariant

/-! ## 2. The advance loop -/

section Advance

variable {w : Wheel} {members : Head → List Link} {s : UInt64}

theorem WheelInv.mem_of_next (inv : WheelInv w members none) {h : Head} (e : w.links.next h.link = .node s) :
    .node s ∈ members h := by
  have hm := ((inv.rings.ring h).linked mem_cons_self).2.2.2
  rw [e] at hm
  exact (mem_cons.mp hm).resolve_left (Head.link_ne_node h s).symm

theorem wheelInv_finishTick (inv : WheelInv w members none) : WheelInv w.finishTick members none := by
  unfold Wheel.finishTick
  split
  · rename_i hc
    obtain ⟨hp, hnil⟩ := hc
    have hempty : members .pending = [] := (inv.rings.ring .pending).next_head_eq_iff.mp hnil
    have hf := inv.frontier_toNat
    have hreached := inv.reached
    have hready := inv.ready
    simp only [Wheel.frontier, hp, if_true] at hf hreached hready
    refine { inv with idle := fun _ => hempty, reached := ?_, ready := ?_ }
    · show (w.completedTick + 1).toNat + 0 ≤ _
      rw [hf]
      exact hreached
    · intro s hs
      show _ ≤ (w.completedTick + 1).toNat + 0
      rw [hf]
      exact hready s hs
  · exact inv

/-- The members after the next tick was opened: its bucket has moved to the snapshot. -/
def Wheel.opened (w : Wheel) (members : Head → List Link) : Head → List Link :=
  let b := Head.bucket ((w.completedTick + 1) % w.geometry.bucketCount)
  update (update members .pending (members b)) b []

theorem wheelInv_openTick (inv : WheelInv w members none) (hp : w.processing = false)
    (hne : w.completedTick ≠ w.geometry.targetTick w.latestNowNs) :
    WheelInv w.openTick (w.opened members) none := by
  unfold Wheel.opened
  have hreached := inv.reached
  have hready := inv.ready
  simp only [hp, Bool.false_eq_true, if_false, Nat.add_zero] at hreached hready
  have hlt : w.completedTick.toNat < (w.geometry.targetTick w.latestNowNs).toNat :=
    Nat.lt_of_le_of_ne hreached fun e => hne (UInt64.toNat_inj.mp e)
  generalize hb : Head.bucket ((w.completedTick + 1) % w.geometry.bucketCount) = b
  have hpb : Head.pending ≠ b := by rw [← hb]; exact fun e => by cases e
  have hsys := inv.rings.splice hpb (inv.idle hp)
  have hlink : b.link = .bucket ((w.completedTick + 1) % w.geometry.bucketCount) := by rw [← hb]; rfl
  -- the snapshot holds what the bucket held, the bucket is empty, the other rings stay
  have hcase : ∀ k x, x ∈ update (update members .pending (members b)) b [] k →
      ∃ k', x ∈ members k' ∧ (k = .ready → k' = .ready) := by
    intro k x hx
    by_cases hkb : k = b
    · rw [hkb, update_self] at hx
      exact absurd hx not_mem_nil
    · rw [update_of_ne hkb] at hx
      by_cases hkp : k = .pending
      · rw [hkp, update_self] at hx
        exact ⟨b, hx, fun e => by rw [hkp] at e; cases e⟩
      · rw [update_of_ne hkp] at hx
        exact ⟨k, hx, id⟩
  dsimp only
  refine { inv with
      rings := ?_, active := ?_, linked := ?_, apart := fun s e => ?_, idle := ?_, reached := ?_,
      ready := ?_ }
  · rw [hlink] at hsys
    exact hsys
  · intro k x hx
    obtain ⟨k', hx', -⟩ := hcase k x hx
    exact inv.active k' x hx'
  · intro s hs _
    obtain ⟨k, hk⟩ := inv.linked s hs (by simp)
    by_cases hkb : k = b
    · refine ⟨.pending, ?_⟩
      rw [update_of_ne hpb, update_self, ← hkb]
      exact hk
    · have hkp : k ≠ .pending := fun e => by
        rw [e, inv.idle hp] at hk
        exact absurd hk not_mem_nil
      exact ⟨k, by rw [update_of_ne hkb, update_of_ne hkp]; exact hk⟩
  · cases e
  · nofun
  · exact hlt
  · intro s hs
    obtain ⟨k', hk', hr⟩ := hcase .ready _ hs
    rw [hr rfl] at hk'
    exact Nat.le_succ_of_le (hready s hk')

theorem WheelInv.active_of_mem {loose : Option UInt64} (inv : WheelInv w members loose) {h : Head}
    (hm : .node s ∈ members h) : w.Active s := by
  obtain ⟨s', es, hact⟩ := inv.active _ _ hm
  rw [Link.node.inj es]
  exact hact

end Advance

/-! ## 3. The calls -/

/-- The owner's acquire, or a failure injected in its place. -/
def acquireOr : Option Failure → AcquireFn
  | none => HandleOwner.acquire
  | some e => fun _ => .error e.1

/-- The owner's release, or a failure injected in its place. -/
def releaseOr : Option Failure → ReleaseFn
  | none => HandleOwner.release
  | some e => fun _ _ => .error e.1

section Calls

variable {w : Wheel} {members : Head → List Link} {h : TimerHandle}

theorem validateSlot_ok (e : w.validateSlot h = .ok) : ∃ o, w.owner = some o ∧ o.Active h.slotIndex := by
  unfold Wheel.validateSlot at e
  split at e
  · rename_i r he
    unfold TimerHandle.isEmpty at he
    split at he <;> cases he
    cases e
  · split at e
    · cases e
    · rename_i o ho
      split at e
      · rename_i hv
        exact ⟨o, ho, (validate_ok_iff.mp hv).2.2.1⟩
      · rename_i hne
        exact absurd e hne

theorem deadlineValues_ok {now deadline due bucket : UInt64}
    (e : w.deadlineValues now deadline = .ok (due, bucket)) :
    deadline.toNat ≤ w.geometry.originNs.toNat + due.toNat * w.geometry.tickNs.toNat ∧ 0 < due.toNat := by
  unfold Wheel.deadlineValues at e
  split at e
  · cases e
  rename_i horigin
  split at e
  · cases e
  rename_i hfuture
  split at e
  · cases e
  rename_i tick htick
  split at e
  · cases e
  obtain ⟨rfl, -⟩ := Prod.mk.inj (Except.ok.inj e)
  obtain ⟨h1, h2⟩ := deadlineTick_ok htick
  -- the deadline is after `now`, and `now` is not before the origin
  exact ⟨h1, h2 (UInt64.lt_of_le_of_lt (UInt64.not_lt.mp horigin) (UInt64.not_le.mp hfuture))⟩

variable {o : HandleOwner}

theorem Wheel.active_owner (ho : w.owner = some o) (s : UInt64) : w.Active s ↔ o.Active s := by
  constructor
  · rintro ⟨o₂, e₂, ha⟩
    obtain rfl : o = o₂ := Option.some.inj (ho.symm.trans e₂)
    exact ha
  · exact fun ha => ⟨o, ho, ha⟩

theorem wheelInv_acquire (inv : WheelInv w members none) {o' : HandleOwner} (ho : w.owner = some o)
    (e : o.acquire = .ok (h, o')) :
    WheelInv { w with owner := some o' } members (some h.slotIndex) ∧
      Wheel.Active { w with owner := some o' } h.slotIndex := by
  obtain ⟨free, hfree⟩ := inv.owner o ho
  obtain ⟨hnew, -, free', -, hfree'⟩ := ownerInv_acquire hfree e
  have hact : ∀ t, Wheel.Active { w with owner := some o' } t ↔ w.Active t ∨ t = h.slotIndex := by
    intro t
    rw [Wheel.active_owner rfl, Wheel.active_owner ho, active_acquire hfree e]
  have hold : ∀ t, Wheel.Active { w with owner := some o' } t → some h.slotIndex ≠ some t →
      w.Active t := fun t ht hne => ((hact t).mp ht).resolve_right fun e => hne (by rw [e])
  refine ⟨{ inv with
      owner := ?_, active := ?_, linked := ?_, apart := ?_, due := ?_ }, (hact _).mpr (.inr rfl)⟩
  · intro o₂ e₂
    obtain rfl : o' = o₂ := Option.some.inj e₂
    exact ⟨free', hfree'⟩
  · intro k x hx
    obtain ⟨s, es, ha⟩ := inv.active k x hx
    exact ⟨s, es, (hact s).mpr (.inl ha)⟩
  · intro t ht hne
    exact inv.linked t (hold t ht hne) (by simp)
  · intro t et k hk
    obtain ⟨s, es, ha⟩ := inv.active k _ hk
    obtain rfl : h.slotIndex = t := Option.some.inj et
    obtain rfl : h.slotIndex = s := Link.node.inj es
    exact hnew ((Wheel.active_owner ho _).mp ha)
  · intro t ht hne
    exact inv.due t (hold t ht hne) (by simp)

theorem wheelInv_release (inv : WheelInv w members (some h.slotIndex)) {o' : HandleOwner}
    (ho : w.owner = some o) (e : o.release h = .ok o') :
    WheelInv { w with owner := some o' } members none := by
  obtain ⟨free, hfree⟩ := inv.owner o ho
  have hfree' := ownerInv_release hfree e
  have hact : ∀ t, Wheel.Active { w with owner := some o' } t ↔ w.Active t ∧ t ≠ h.slotIndex := by
    intro t
    rw [Wheel.active_owner rfl, Wheel.active_owner ho, active_release e]
  have hne : ∀ t, t ≠ h.slotIndex → some h.slotIndex ≠ some t :=
    fun t ht e => ht (Option.some.inj e).symm
  refine { inv with
      owner := ?_, active := ?_, linked := ?_, apart := fun t et => (Option.some_ne_none t et.symm).elim,
      due := ?_ }
  · intro o₂ e₂
    obtain rfl : o' = o₂ := Option.some.inj e₂
    exact ⟨_, hfree'⟩
  · intro k x hx
    obtain ⟨s, es, ha⟩ := inv.active k x hx
    refine ⟨s, es, (hact s).mpr ⟨ha, fun e => inv.apart _ rfl k ?_⟩⟩
    rw [← e, ← es]
    exact hx
  · intro t ht _
    obtain ⟨ha, hts⟩ := (hact t).mp ht
    exact inv.linked t ha (hne t hts)
  · intro t ht _
    obtain ⟨ha, hts⟩ := (hact t).mp ht
    exact inv.due t ha (hne t hts)

/-- The wheel that `prepareRuntime` leaves behind with a new owner. -/
def Wheel.prepared (w : Wheel) (o : HandleOwner) (capacity bytes maxMemoryBytes : UInt64) : Wheel :=
  { w with
    owner := some o
    nodes := fun _ => .free
    links := ⟨fun l => match l with | .node s => .node s | l => w.links.prev l,
      fun l => match l with | .node s => .node s | l => w.links.next l⟩
    timerCapacity := capacity
    nodeBytes := bytes
    registryBudget := maxMemoryBytes }

/-- A refused prepare changes nothing; an accepted one installs an owner without timers. -/
theorem prepare_cases (w : Wheel) (capacity maxMemoryBytes counter : UInt64) (memory ownerMemory : Bool) :
    (w.prepare capacity maxMemoryBytes counter memory ownerMemory).2 = w ∨
    ∃ o bytes, w.owner = none ∧ (∃ free, OwnerInv o free) ∧ (∀ i, ¬ o.Active i) ∧ o.Counted ∧
      (w.prepare capacity maxMemoryBytes counter memory ownerMemory).2 =
        w.prepared o capacity bytes maxMemoryBytes := by
  unfold Wheel.prepare Wheel.prepareRuntime
  split
  · exact .inl rfl
  split
  · exact .inl rfl
  rename_i hnone
  split
  · exact .inl rfl
  rename_i bytes _
  split
  · exact .inl rfl
  split
  · exact .inl rfl
  split
  · exact .inl rfl
  rename_i o hcreate
  obtain ⟨hfree, hnoact⟩ := ownerInv_create hcreate
  exact .inr ⟨o, bytes, Option.not_isSome_iff_eq_none.mp hnone, hfree, hnoact, counted_create hcreate, rfl⟩

section

variable (inv : WheelInv w members none)
include inv

theorem WheelInv.members_eq_nil (hnone : w.owner = none) (h : Head) : members h = [] := by
  refine eq_nil_iff_forall_not_mem.mpr fun x hx => ?_
  obtain ⟨-, -, o, eo, -⟩ := inv.active h x hx
  rw [hnone] at eo
  cases eo

theorem wheelInv_prepared (hnone : w.owner = none)
    {o : HandleOwner} (hfree : ∃ free, OwnerInv o free) (hnoact : ∀ i, ¬ o.Active i)
    (capacity bytes maxMemoryBytes : UInt64) :
    WheelInv (w.prepared o capacity bytes maxMemoryBytes) members none := by
  have hempty := inv.members_eq_nil hnone
  have hinact : ∀ t, ¬ (w.prepared o capacity bytes maxMemoryBytes).Active t := by
    intro t ht
    exact hnoact t ((Wheel.active_owner rfl t).mp ht)
  refine { inv with
      owner := ?_, rings := ⟨fun h => ?_, inv.rings.disjoint⟩, active := ?_,
      linked := fun t ht => absurd ht (hinact t), due := fun t ht => absurd ht (hinact t), ready := ?_ }
  · intro o' eo
    obtain rfl : o = o' := Option.some.inj eo
    exact hfree
  · have hr := inv.rings.ring h
    refine hr.frame fun a ha b hb hab => ?_
    rw [hempty h, mem_singleton] at ha hb
    subst ha hb
    cases h <;> exact hab
  · intro h x hx
    rw [hempty h] at hx
    exact absurd hx not_mem_nil
  · intro t ht
    rw [hempty .ready] at ht
    exact absurd ht not_mem_nil

end

end Calls

/-! ## 4. Runs -/

/-- The public calls on a wheel; the injected failures stand for the owner's. -/
inductive Call where
  | prepare (capacity maxMemoryBytes counter : UInt64) (memory ownerMemory : Bool)
  | register (nowNs deadlineNs : UInt64) (out : TimerHandle) (fail : Option Failure)
  | cancel (handle : TimerHandle) (fail : Option Failure)
  | rearm (handle : TimerHandle) (nowNs deadlineNs : UInt64)
  | advance (nowNs : UInt64) (maxTicks maxNodes : Nat)
  | takeExpired (fail : Option Failure)
  | shutdownBegin
  | shutdownStep (maxSlots : UInt64) (fail : Option Failure)

/-- The wheel a call leaves behind. -/
def Wheel.exec (w : Wheel) : Call → Wheel
  | .prepare capacity maxMemoryBytes counter memory ownerMemory =>
    (w.prepare capacity maxMemoryBytes counter memory ownerMemory).2
  | .register now deadline out fail => (w.registerRuntime now deadline out (acquireOr fail)).2
  | .cancel handle fail => (w.cancelRuntime handle (releaseOr fail)).2
  | .rearm handle now deadline => (w.rearm handle now deadline).2
  | .advance now maxTicks maxNodes => (w.advance now maxTicks maxNodes).2
  | .takeExpired fail => (w.takeExpiredRuntime (releaseOr fail)).2
  | .shutdownBegin => w.shutdownBegin.2
  | .shutdownStep maxSlots fail => (w.shutdownStepRuntime maxSlots (releaseOr fail)).2

/-- The last time an advance accepted, after one more call. -/
def Wheel.accepted (w : Wheel) (latest : Option UInt64) : Call → Option UInt64
  | .advance now maxTicks maxNodes =>
    match (w.advance now maxTicks maxNodes).1 with
    | .ok _ => some now
    | .error _ => latest
  | _ => latest

/-- The wheels reached from a creation by any calls, with the last time an advance accepted. -/
inductive WheelRun : Wheel → Option UInt64 → Prop
  | create {geometry : Geometry} {maxMemoryBytes : UInt64} {memory : Bool} {w : Wheel}
      (h : Wheel.create geometry maxMemoryBytes memory = .ok w) : WheelRun w none
  | call {w : Wheel} {latest : Option UInt64} (h : WheelRun w latest) (c : Call) :
      WheelRun (w.exec c) (w.accepted latest c)

variable {geometry : Geometry} {maxMemoryBytes : UInt64} {w : Wheel}

theorem create_eq {memory : Bool} (h : Wheel.create geometry maxMemoryBytes memory = .ok w) :
    ∃ total, w = Wheel.fresh geometry maxMemoryBytes total := by
  unfold Wheel.create at h
  split at h
  · cases h
  split at h
  · cases h
  split at h
  · cases h
  split at h
  · cases h
  split at h
  · cases h
  · exact ⟨_, (Except.ok.inj h).symm⟩

theorem wheelInv_create {memory : Bool} (h : Wheel.create geometry maxMemoryBytes memory = .ok w) :
    WheelInv w (fun _ => []) none ∧ w.latestNowNs = w.geometry.originNs := by
  obtain ⟨total, rfl⟩ := create_eq h
  refine ⟨{ owner := ?_, rings := ⟨fun h => ⟨nodup_singleton _, ?_⟩, ?_⟩, active := ?_,
            linked := ?_, apart := ?_, idle := fun _ => rfl, origin := UInt64.le_refl _,
            reached := ?_, due := ?_, ready := ?_ }, rfl⟩
  · nofun
  · show ([h.link, h.link] : List Link).IsChain _
    rw [isChain_pair]
    exact ⟨rfl, rfl⟩
  · intro i j hij a ha hb
    rw [mem_singleton] at ha hb
    subst ha
    cases i <;> cases j <;> simp_all [Head.link]
  · intro h x hx
    exact absurd hx not_mem_nil
  · rintro s ⟨o, eo, -⟩
    cases eo
  · nofun
  · exact Nat.zero_le _
  · rintro s ⟨o, eo, -⟩
    cases eo
  · intro s hs
    exact absurd hs not_mem_nil

/-- A run of create, prepare, register: one timer, due at 125. -/
def sampleStart : Wheel :=
  ((Wheel.fresh ⟨100, 10, 4⟩ 4096 264).exec (.prepare 4 4096 0 true true)).exec
    (.register 100 125 .empty none)

theorem sampleStart_run : WheelRun sampleStart none := by
  have hcreate : Wheel.create ⟨100, 10, 4⟩ 4096 true = .ok (.fresh ⟨100, 10, 4⟩ 4096 264) := rfl
  exact ((WheelRun.create hcreate).call (.prepare 4 4096 0 true true)).call (.register 100 125 .empty none)

/-- After an advance the timer due at 125 is ready at 130, and not before. -/
def sampleWheel : Wheel := sampleStart.exec (.advance 130 8 8)

theorem sampleWheel_run : WheelRun sampleWheel (some 130) :=
  sampleStart_run.call (.advance 130 8 8)

end Vireo.Timer
