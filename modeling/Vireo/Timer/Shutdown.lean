/-
  File:      Vireo/Timer/Shutdown.lean
  Subject:   A STOPPED WHEEL GIVES EVERY TIMER BACK, ONCE.
-/
import Vireo.Timer.HandleRun
import Vireo.Timer.Placement

namespace Vireo.Timer

open Lib List
open Function (update update_self update_of_ne)
open UInt64 (le_iff_toNat_le lt_iff_toNat_lt toNat_inj)

/-! ## 1. The nodes and the cursor -/

/-- The nodes in use have the handles of their slots, the others none; the cursor has passed no timer. -/
structure Held (w : Wheel) (o : HandleOwner) : Prop where
  named : o.ownerId ≠ 0
  capacity : w.timerCapacity = o.capacity
  handle : ∀ s, (w.nodes s).handle.ownerId ≠ 0 ↔ o.Active s
  slot : ∀ s, o.Active s → (w.nodes s).handle.slotIndex = s
  cursor : w.shutdownCursor ≤ w.timerCapacity
  behind : ∀ s, o.Active s → w.shutdownCursor ≤ s

/-- A wheel has its timers on record; the cursor stays at the start until the wheel is stopped. -/
structure Registered (w : Wheel) : Prop where
  absent : w.owner = none → w.stopping = false
  start : w.stopping = false → w.shutdownCursor = 0
  held : ∀ o, w.owner = some o → Held w o

variable {w w' : Wheel} {o : HandleOwner} {h : TimerHandle} {members : Head → List Link}

/-- What is on record of a wheel; where its timers are is not. -/
def Wheel.registry (w : Wheel) : Option HandleOwner × Bool × UInt64 × UInt64 × (UInt64 → TimerHandle) :=
  (w.owner, w.stopping, w.timerCapacity, w.shutdownCursor, fun s => (w.nodes s).handle)

theorem Registered.of_registry (reg : Registered w) (e : w'.registry = w.registry) : Registered w' := by
  simp only [Wheel.registry, Prod.mk.injEq, funext_iff] at e
  obtain ⟨howner, hstop, hcapacity, hcursor, hhandle⟩ := e
  refine ⟨by rw [howner, hstop]; exact reg.absent, by rw [hstop, hcursor]; exact reg.start, fun o ho => ?_⟩
  have held := reg.held o (howner ▸ ho)
  exact ⟨held.named, hcapacity.trans held.capacity, fun s => hhandle s ▸ held.handle s,
    fun s hs => hhandle s ▸ held.slot s hs, hcapacity ▸ hcursor ▸ held.cursor,
    fun s hs => hcursor ▸ held.behind s hs⟩

theorem registry_placeNode (w : Wheel) (s : UInt64) : (w.placeNode s).registry = w.registry := by
  have hhandle : (fun t => ((w.placeNode s).nodes t).handle) = fun t => (w.nodes t).handle :=
    funext fun t => ((sameTimers_placeNode w s).node t).1
  unfold Wheel.registry
  rw [hhandle, placeNode_eq]

theorem registry_advanceLoop (target : UInt64) (w : Wheel) (ticksLeft nodesLeft : Nat) :
    (Wheel.advanceLoop target w ticksLeft nodesLeft).1.registry = w.registry := by
  have finish : ∀ v : Wheel, v.finishTick.registry = v.registry := by
    intro v
    unfold Wheel.finishTick
    split <;> rfl
  have visit : ∀ v : Wheel, v.finishTick.visitTick.registry = v.registry := by
    intro v
    unfold Wheel.visitTick
    split <;> exact finish v
  fun_induction Wheel.advanceLoop target w ticksLeft nodesLeft with
  | case1 w => exact finish w
  | case2 w => exact visit w
  | case3 w _ _ _ _ _ _ s _ _ ih => exact ih.trans ((registry_placeNode _ s).trans (visit w))
  | case4 w _ _ _ _ _ _ _ _ ih => exact ih.trans (visit w)
  | case5 w => exact visit w

/-- A wheel without the timer of this handle. -/
def Wheel.without (w : Wheel) (o : HandleOwner) (h : TimerHandle) : Wheel :=
  { w with
    owner := some (o.freed h.slotIndex)
    links := w.links.detach (.node h.slotIndex)
    readyCount := if (w.nodes h.slotIndex).ready then w.readyCount - 1 else w.readyCount
    nodes := update w.nodes h.slotIndex .free }

theorem cancel_cases (inv : PlacedInv w members none) (h : TimerHandle) (fail : Option Failure) :
    (∃ e, e ≠ .ok ∧ w.cancelRuntime h (releaseOr fail) = (e, w)) ∨
    ∃ o, w.owner = some o ∧ o.validate h = .ok ∧
      w.cancelRuntime h (releaseOr fail) = (.ok, w.without o h) := by
  unfold Wheel.cancelRuntime
  split
  · rename_i o hvalid ho
    obtain ⟨k, hk⟩ := inv.linked _ (validateSlot_ok hvalid) (by simp)
    dsimp only
    split
    · rename_i e he
      obtain ⟨hp, hn, -, -⟩ := (inv.rings.ring k).linked (mem_cons_of_mem _ hk)
      rw [restore_detach hp hn]
      refine .inl ⟨e, ?_, rfl⟩
      cases fail with
      | some f => exact Except.error.inj he ▸ f.2
      | none =>
        rintro rfl
        change o.release h = _ at he
        unfold HandleOwner.release at he
        split at he
        · cases he
        · rename_i hne
          exact hne (Except.error.inj he)
    · rename_i o' hrelease
      have hrelease' : o.release h = .ok o' := by
        cases fail with
        | none => exact hrelease
        | some e => cases hrelease
      obtain ⟨hv, rfl⟩ := release_cases hrelease'
      exact .inr ⟨o, ho, hv, rfl⟩
  · exact .inl ⟨_, by simp, rfl⟩
  · rename_i hsome hnone
    refine .inl ⟨_, fun hok => ?_, rfl⟩
    cases ho : w.owner with
    | none => exact hnone hok ho
    | some o => exact hsome o hok ho

theorem created_named {capacity maxMemoryBytes counter : UInt64} {memory : Bool}
    (e : (HandleOwner.create capacity maxMemoryBytes counter memory).1 = .ok o) :
    o.ownerId ≠ 0 ∧ o.capacity = capacity := by
  obtain ⟨-, -, total, identity, rfl⟩ := create_cases e
  refine ⟨fun hzero => ?_, rfl⟩
  have hcreated := created capacity maxMemoryBytes counter memory
  generalize HandleOwner.create capacity maxMemoryBytes counter memory = made at e hcreated
  cases hcreated with
  | refused | lost => cases e
  | made room named =>
    obtain rfl := Except.ok.inj e
    have hnext := toNat_next room
    rw [← named, hzero] at hnext
    cases hnext

theorem Held.freed (held : Held w o) (hv : o.validate h = .ok) : Held (w.without o h) (o.freed h.slotIndex) := by
  have hactive := active_release (release_eq hv)
  have hother : ∀ {s}, s ≠ h.slotIndex → (w.without o h).nodes s = w.nodes s := fun hs => update_of_ne hs _ _
  refine ⟨held.named, held.capacity, fun s => ?_, fun s hs => ?_, held.cursor,
    fun s hs => held.behind s ((hactive s).mp hs).1⟩
  · rw [hactive]
    rcases eq_or_ne s h.slotIndex with rfl | hne
    · show (update w.nodes _ _ _).handle.ownerId ≠ 0 ↔ _
      rw [update_self]
      exact ⟨fun hbad => absurd rfl hbad, fun hbad => absurd rfl hbad.2⟩
    · rw [hother hne, held.handle s, and_iff_left hne]
  · obtain ⟨hold, hne⟩ := (hactive s).mp hs
    rw [hother hne]
    exact held.slot s hold

theorem Held.taken (held : Held w o) {free : List UInt64} (inv : OwnerInv o free) {o' : HandleOwner}
    (e : o.acquire = .ok (h, o')) (hzero : w.shutdownCursor = 0) {node : TimerNode} (hnode : node.handle = h) :
    Held { w with owner := some o', nodes := update w.nodes h.slotIndex node } o' := by
  have hactive := active_acquire inv e
  obtain ⟨-, hmine, -, -, rfl⟩ := acquire_cases e
  refine ⟨held.named, held.capacity, fun s => ?_, fun s hs => ?_, held.cursor,
    fun s _ => (hzero ▸ UInt64.zero_le : w.shutdownCursor ≤ s)⟩
  · rw [hactive]
    rcases eq_or_ne s h.slotIndex with rfl | hne
    · dsimp only
      rw [update_self, hnode, hmine]
      exact ⟨fun _ => .inr rfl, fun _ => held.named⟩
    · dsimp only
      rw [update_of_ne hne, held.handle s, or_iff_left hne]
  · rcases eq_or_ne s h.slotIndex with rfl | hne
    · dsimp only
      rw [update_self, hnode]
    · dsimp only
      rw [update_of_ne hne]
      exact held.slot s (((hactive s).mp hs).resolve_right hne)

theorem registered_register (inv : PlacedInv w members none) (reg : Registered w) (now deadline : UInt64)
    (out : TimerHandle) (fail : Option Failure) :
    Registered (w.registerRuntime now deadline out (acquireOr fail)).2 := by
  unfold Wheel.registerRuntime
  split
  · exact reg
  · exact reg
  split
  · exact reg
  rename_i o ho
  split
  · exact reg
  rename_i hstop
  split
  · exact reg
  split
  · exact reg
  rename_i h o' hacquire
  have hacquire' : o.acquire = .ok (h, o') := by
    cases fail with
    | none => exact hacquire
    | some e => cases hacquire
  have hgo := Bool.eq_false_iff.mpr hstop
  obtain ⟨free, hfree⟩ := inv.owner o ho
  refine Registered.of_registry (w := { w with owner := some o', nodes := update w.nodes h.slotIndex _ })
    ⟨(by cases ·), fun _ => reg.start hgo, fun o₂ ho₂ => ?_⟩ (registry_placeNode _ _)
  exact Option.some.inj ho₂ ▸ (reg.held o ho).taken hfree hacquire' (reg.start hgo) rfl

theorem registered_rearm (reg : Registered w) (h : TimerHandle) (now deadline : UInt64) :
    Registered (w.rearm h now deadline).2 := by
  unfold Wheel.rearm
  split
  · split
    · exact reg
    split
    · exact reg
    refine reg.of_registry ((registry_placeNode _ _).trans ?_)
    have hhandle : ∀ node, node.handle = (w.nodes h.slotIndex).handle →
        (fun s => (update w.nodes h.slotIndex node s).handle) = fun s => (w.nodes s).handle := by
      intro node hnode
      funext s
      rcases eq_or_ne s h.slotIndex with rfl | hne
      · rw [update_self, hnode]
      · rw [update_of_ne hne]
    exact congrArg (fun f => (w.owner, w.stopping, w.timerCapacity, w.shutdownCursor, f)) (hhandle _ rfl)
  · exact reg

theorem registered_prepare (reg : Registered w) (capacity maxMemoryBytes counter : UInt64)
    (memory ownerMemory : Bool) :
    Registered (w.prepare capacity maxMemoryBytes counter memory ownerMemory).2 := by
  unfold Wheel.prepare Wheel.prepareRuntime
  split
  · exact reg
  split
  · exact reg
  rename_i hnone
  split
  · exact reg
  split
  · exact reg
  split
  · exact reg
  split
  · exact reg
  rename_i o hcreate
  have hgo := reg.absent (Option.not_isSome_iff_eq_none.mp hnone)
  obtain ⟨hnamed, hcapacity⟩ := created_named hcreate
  refine ⟨(by cases ·), fun _ => reg.start hgo, fun o' ho' => ?_⟩
  obtain rfl := Option.some.inj ho'
  have hno := (ownerInv_create hcreate).2
  exact ⟨hnamed, hcapacity.symm, fun s => ⟨fun hbad => absurd rfl hbad, fun hs => absurd hs (hno s)⟩,
    fun s hs => absurd hs (hno s),
    (reg.start hgo ▸ UInt64.zero_le : w.shutdownCursor ≤ capacity), fun s hs => absurd hs (hno s)⟩

/-! ## 2. A step of the shutdown -/

/-- The timers of a wheel, with what they were registered for. -/
def Wheel.timers (w : Wheel) : List Expired :=
  match w.owner with
  | none => []
  | some o => o.activeSlots.map fun s => ⟨(w.nodes s).handle, (w.nodes s).info⟩

theorem timers_without (ho : w.owner = some o) (hv : o.validate h = .ok) :
    w.timers.Perm (⟨(w.nodes h.slotIndex).handle, (w.nodes h.slotIndex).info⟩ :: (w.without o h).timers) := by
  have hactive := active_release (release_eq hv)
  have hmem : o.Active h.slotIndex := (validate_ok_iff.mp hv).2.2.1
  have hslots : o.activeSlots.Perm (h.slotIndex :: (o.freed h.slotIndex).activeSlots) := by
    have hnodup : ∀ o : HandleOwner, o.activeSlots.Nodup := fun o => (nodup_indices o).filter _
    refine (perm_ext_iff_of_nodup (hnodup o) (nodup_cons.mpr ⟨fun hm => ?_, hnodup _⟩)).mpr fun s => ?_
    · exact ((hactive _).mp (mem_activeSlots.mp hm)).2 rfl
    · rw [mem_cons, mem_activeSlots, mem_activeSlots, hactive]
      rcases eq_or_ne s h.slotIndex with rfl | hne
      · exact iff_of_true hmem (.inl rfl)
      · rw [or_iff_right hne, and_iff_left hne]
  unfold Wheel.timers
  rw [ho]
  refine (hslots.map _).trans (.of_eq (congrArg _ (map_congr_left fun s hs => ?_)))
  have hne := ((hactive s).mp (mem_activeSlots.mp hs)).2
  rw [show (w.without o h).nodes s = w.nodes s from update_of_ne hne _ _]

/-- Where a scan from `cursor` stops: behind slots without a timer, or behind the first one with a timer. -/
inductive Scanned (w : Wheel) (cursor : UInt64) (left : Nat) : UInt64 × Option UInt64 → Prop
  | passed {stop : UInt64} (hle : stop ≤ w.timerCapacity) (hstart : cursor ≤ stop)
      (hgo : left ≠ 0 → cursor < w.timerCapacity → cursor < stop)
      (hfree : ∀ s, cursor ≤ s → s < stop → (w.nodes s).handle.ownerId = 0) : Scanned w cursor left (stop, none)
  | found {slot : UInt64} (hlt : slot < w.timerCapacity) (hstart : cursor ≤ slot)
      (hfree : ∀ s, cursor ≤ s → s < slot → (w.nodes s).handle.ownerId = 0)
      (htimer : (w.nodes slot).handle.ownerId ≠ 0) : Scanned w cursor left (slot + 1, some slot)

theorem succ_le_iff {a b c : UInt64} (h : a < c) : a + 1 ≤ b ↔ a < b := by
  have := c.toNat_lt
  rw [lt_iff_toNat_lt] at h
  rw [le_iff_toNat_le, lt_iff_toNat_lt, UInt64.toNat_add, UInt64.toNat_one]
  omega

theorem scanned (w : Wheel) (left : Nat) {cursor : UInt64} (hle : cursor ≤ w.timerCapacity) :
    Scanned w cursor left (w.shutdownScan cursor left) := by
  have here : ∀ c s, c ≤ s → s < c → (w.nodes s).handle.ownerId = 0 :=
    fun c s h h' => absurd h (UInt64.not_le.mpr h')
  induction left generalizing cursor with
  | zero => exact .passed hle (UInt64.le_refl _) (absurd rfl ·) (here _)
  | succ left ih =>
    unfold Wheel.shutdownScan
    split
    · rename_i hlt
      split
      · rename_i hzero
        -- this slot has no timer, and the scan goes on behind it
        have hfree : ∀ {stop}, (∀ s, cursor + 1 ≤ s → s < stop → (w.nodes s).handle.ownerId = 0) →
            ∀ s, cursor ≤ s → s < stop → (w.nodes s).handle.ownerId = 0 := by
          intro stop h s hs
          rcases UInt64.le_iff_lt_or_eq.mp hs with hs | rfl
          · exact h s ((succ_le_iff hlt).mpr hs)
          · exact fun _ => hzero
        have hrest := ih ((succ_le_iff hlt).mpr hlt)
        generalize w.shutdownScan (cursor + 1) left = x at hrest ⊢
        cases hrest with
        | passed hle hstart _ h =>
          have hlt' := (succ_le_iff hlt).mp hstart
          exact .passed hle (UInt64.le_of_lt hlt') (fun _ _ => hlt') (hfree h)
        | found hlt' hstart h htimer =>
          exact .found hlt' (UInt64.le_of_lt ((succ_le_iff hlt).mp hstart)) (hfree h) htimer
      · rename_i htimer
        exact .found hlt (UInt64.le_refl _) (here _) htimer
    · rename_i hend
      exact .passed hle (UInt64.le_refl _) (fun _ hlt => absurd hlt hend) (here _)

/-- What is left of a wheel when these timers were taken away; a step moves the cursor unless no timer is left. -/
structure Winds (w : Wheel) (gone : List Expired) (step : Prop) (v : Wheel) : Prop where
  registered : Registered v
  stopping : v.stopping = w.stopping
  capacity : v.timerCapacity = w.timerCapacity
  timers : w.timers.Perm (gone ++ v.timers)
  cursor : w.shutdownCursor ≤ v.shutdownCursor
  further : step → v.timers = [] ∨ w.shutdownCursor < v.shutdownCursor

theorem Registered.without (reg : Registered w) (ho : w.owner = some o) (hv : o.validate h = .ok) :
    Registered (w.without o h) :=
  ⟨(by cases ·), reg.start, fun o' ho' => Option.some.inj ho' ▸ (reg.held o ho).freed hv⟩

theorem Registered.moved (reg : Registered w) (ho : w.owner = some o) (hstop : w.stopping = true) {stop : UInt64}
    (hle : stop ≤ w.timerCapacity) (hbehind : ∀ s, o.Active s → stop ≤ s) :
    Registered { w with shutdownCursor := stop } :=
  ⟨reg.absent, fun h => absurd (hstop.symm.trans h) (by simp), fun o' ho' => by
    obtain rfl := Option.some.inj (ho.symm.trans ho')
    exact { reg.held o ho with cursor := hle, behind := hbehind }⟩

theorem winds_without (reg : Registered w) (ho : w.owner = some o) (hv : o.validate h = .ok) :
    Winds w [⟨(w.nodes h.slotIndex).handle, (w.nodes h.slotIndex).info⟩] False (w.without o h) :=
  ⟨reg.without ho hv, rfl, rfl, timers_without ho hv, UInt64.le_refl _, False.elim⟩

theorem winds_same (reg : Registered w) {v : Wheel} (e : v = w) : Winds w [] False v := by
  subst e
  exact ⟨reg, rfl, rfl, .refl _, UInt64.le_refl _, False.elim⟩

section

variable (inv : PlacedInv w members none) (reg : Registered w)
include inv

theorem PlacedInv.timers_length (ho : w.owner = some o) : w.timers.length = o.activeCount.toNat := by
  unfold Wheel.timers
  rw [ho]
  exact (length_map _).trans (inv.counted o ho).symm

include reg

/-- **A step of a stopped wheel changes nothing, or gives a timer or a part of the table.** -/
theorem shutdownStep_cases (hstop : w.stopping = true) (maxSlots : UInt64) (fail : Option Failure) :
    (∃ e, w.shutdownStepRuntime maxSlots (releaseOr fail) = (.error e, w)) ∨
    ∃ r v o, w.shutdownStepRuntime maxSlots (releaseOr fail) = (.ok r, v) ∧ Winds w r.cancelled.toList True v ∧
      v.owner = some o ∧ r.remainingCount = o.activeCount ∧ r.finished = (o.activeCount == 0) := by
  unfold Wheel.shutdownStepRuntime
  split
  · exact .inl ⟨_, rfl⟩
  rename_i hslots
  split
  · exact .inl ⟨_, rfl⟩
  split
  · exact .inl ⟨_, rfl⟩
  rename_i o ho
  split
  · exact .inl ⟨_, rfl⟩
  have held := reg.held o ho
  have hlength := inv.timers_length ho
  dsimp only
  split
  · rename_i hzero
    have hnil : w.timers = [] := length_eq_zero_iff.mp (hlength.trans (congrArg UInt64.toNat hzero))
    have hnone : ∀ s, ¬ o.Active s := fun s hs => by
      have := length_pos_of_mem (mem_activeSlots.mpr hs)
      rw [← show o.activeCount.toNat = _ from inv.counted o ho, hzero] at this
      cases this
    exact .inr ⟨_, _, o, rfl, ⟨reg.moved ho hstop (UInt64.le_refl _) fun s hs => absurd hs (hnone s), rfl, rfl,
      .refl _, held.cursor, fun _ => .inl hnil⟩, ho, rfl, by rw [hzero]; rfl⟩
  rename_i hsome
  have hscan := scanned w maxSlots.toNat held.cursor
  generalize w.shutdownScan w.shutdownCursor maxSlots.toNat = x at hscan ⊢
  cases hscan with
  | @passed stop hle hstart hfar hfree =>
    refine .inr ⟨_, _, o, rfl, ⟨reg.moved ho hstop hle fun s hs => UInt64.not_lt.mp fun hlt => ?_, rfl, rfl,
      .refl _, hstart, fun _ => .inr (hfar (fun h => hslots (toNat_inj.mp h)) ?_)⟩, ho, rfl, rfl⟩
    · exact (held.handle s).mpr hs (hfree s (held.behind s hs) hlt)
    · -- a timer that is left lies behind the cursor
      obtain ⟨s, hs⟩ := exists_mem_of_ne_nil o.activeSlots fun hnil => hsome (toNat_inj.mp
        ((inv.counted o ho).trans (congrArg length hnil)))
      have ha := mem_activeSlots.mp hs
      exact UInt64.lt_of_le_of_lt (held.behind s ha) (held.capacity ▸ ha.1)
  | @found slot hlt hstart hfree htimer =>
    have hslot := held.slot slot ((held.handle slot).mp htimer)
    dsimp only
    rcases cancel_cases inv (w.nodes slot).handle fail with ⟨e, hne, he⟩ | ⟨o', ho', hv, he⟩
    · rw [he]
      cases e with
      | ok => exact absurd rfl hne
      | _ => exact .inl ⟨_, rfl⟩
    · obtain rfl := Option.some.inj (ho.symm.trans ho')
      have winds := winds_without reg ho hv
      have hnext : w.shutdownCursor < slot + 1 := UInt64.lt_of_le_of_lt hstart ((succ_le_iff hlt).mp (UInt64.le_refl _))
      rw [he]
      refine .inr ⟨_, _, _, rfl, { winds with
        registered := winds.registered.moved rfl hstop ((succ_le_iff hlt).mpr hlt) fun s hs => ?_
        timers := by
          have htimers := winds.timers
          rw [hslot] at htimers
          exact htimers
        cursor := UInt64.le_of_lt hnext
        further := fun _ => .inr hnext }, rfl, rfl, rfl⟩
      obtain ⟨hold, hne⟩ := (active_release (release_eq hv) s).mp hs
      rw [succ_le_iff hlt]
      rcases UInt64.lt_or_eq_of_le (UInt64.not_lt.mp fun hbelow =>
        (held.handle s).mpr hold (hfree s (held.behind s hold) hbelow)) with hlt' | rfl
      · exact hlt'
      · exact absurd hslot.symm hne

/-! ## 3. Any calls on a stopped wheel -/

/-- The timers that a call takes away, as they were; a step of the shutdown reports its own. -/
def Wheel.removed (w : Wheel) : Call → List Expired
  | .cancel h fail =>
    if (w.cancelRuntime h (releaseOr fail)).1 = .ok then
      [⟨(w.nodes h.slotIndex).handle, (w.nodes h.slotIndex).info⟩] else []
  | .takeExpired fail => (w.takeExpiredRuntime (releaseOr fail)).1.toOption.toList
  | .shutdownStep maxSlots fail =>
    ((w.shutdownStepRuntime maxSlots (releaseOr fail)).1.toOption.bind (·.cancelled)).toList
  | _ => []

/-- The call is a step of the shutdown, and succeeds. -/
def Wheel.stepped (w : Wheel) : Call → Bool
  | .shutdownStep maxSlots fail => (w.shutdownStepRuntime maxSlots (releaseOr fail)).1.toOption.isSome
  | _ => false

theorem winds_cancel (h : TimerHandle) (fail : Option Failure) :
    Winds w (w.removed (.cancel h fail)) False (w.exec (.cancel h fail)) := by
  unfold Wheel.removed Wheel.exec
  dsimp only
  rcases cancel_cases inv h fail with ⟨e, hne, he⟩ | ⟨o, ho, hv, he⟩
  · rw [he, if_neg hne]
    exact winds_same reg rfl
  · rw [he]
    exact winds_without reg ho hv

theorem winds_takeExpired (fail : Option Failure) :
    Winds w (w.removed (.takeExpired fail)) False (w.exec (.takeExpired fail)) := by
  unfold Wheel.removed Wheel.exec Wheel.takeExpiredRuntime
  dsimp only
  split
  · rename_i _ slot _ hnext
    obtain ⟨o, ho, hactive⟩ := inv.active_of_mem (inv.mem_of_next (h := .ready) hnext)
    rcases cancel_cases inv (w.nodes slot).handle fail with ⟨e, hne, he⟩ | ⟨o', ho', hv, he⟩
    · rw [he]
      cases e with
      | ok => exact absurd rfl hne
      | _ => exact winds_same reg rfl
    · have winds := winds_without reg ho' hv
      rw [(reg.held o ho).slot slot hactive] at winds
      rw [he]
      exact winds
  · exact winds_same reg rfl

/-- **A call on a stopped wheel does nothing but take a timer away or move the cursor.** -/
theorem winds_exec (hstop : w.stopping = true) (c : Call) : Winds w (w.removed c) (w.stepped c) (w.exec c) := by
  have same : ∀ {v : Wheel}, v = w → Winds w [] (false = true) v :=
    fun e => { winds_same reg e with further := (by cases ·) }
  cases c with
  | prepare =>
    refine same ((prepare_cases ..).resolve_right fun ⟨_, _, hnone, _⟩ => ?_)
    exact absurd (hstop.symm.trans (reg.absent hnone)) (by simp)
  | register now deadline out fail =>
    refine same ?_
    show (w.registerRuntime now deadline out (acquireOr fail)).2 = w
    unfold Wheel.registerRuntime
    split
    · rfl
    · rfl
    split
    · rfl
    rw [if_pos hstop]
  | rearm h now deadline =>
    refine same ?_
    show (w.rearm h now deadline).2 = w
    unfold Wheel.rearm
    rw [if_pos hstop]
    split <;> rfl
  | advance now maxTicks maxNodes =>
    refine same ?_
    show (w.advance now maxTicks maxNodes).2 = w
    unfold Wheel.advance
    rw [if_pos hstop]
    split
    · rfl
    split
    · rfl
    split <;> rfl
  | shutdownBegin =>
    refine same ?_
    show w.shutdownBegin.2 = w
    unfold Wheel.shutdownBegin
    split
    · rfl
    · rw [← hstop]
  | cancel h fail => exact { winds_cancel inv reg h fail with further := (by cases ·) }
  | takeExpired fail => exact { winds_takeExpired inv reg fail with further := (by cases ·) }
  | shutdownStep maxSlots fail =>
    unfold Wheel.removed Wheel.stepped Wheel.exec
    dsimp only
    rcases shutdownStep_cases inv reg hstop maxSlots fail with ⟨e, he⟩ | ⟨r, v, o, he, winds, -⟩
    · rw [he]
      exact same rfl
    · rw [he]
      exact { winds with further := fun _ => winds.further trivial }

theorem registered_exec (c : Call) : Registered (w.exec c) := by
  by_cases hstop : w.stopping = true
  · exact (winds_exec inv reg hstop c).registered
  cases c with
  | prepare => exact registered_prepare reg ..
  | register => exact registered_register inv reg ..
  | rearm => exact registered_rearm reg ..
  | advance now maxTicks maxNodes =>
    show Registered (w.advance now maxTicks maxNodes).2
    rcases advance_cases w now maxTicks maxNodes with ⟨e, he⟩ | ⟨r, -, -, -, he⟩
    · exact he ▸ reg
    · exact he ▸ reg.of_registry (registry_advanceLoop ..)
  | cancel h fail => exact (winds_cancel inv reg h fail).registered
  | takeExpired fail => exact (winds_takeExpired inv reg fail).registered
  | shutdownBegin =>
    show Registered w.shutdownBegin.2
    unfold Wheel.shutdownBegin
    split
    · exact reg
    · rename_i hsome
      exact ⟨fun hnone => absurd (Option.isNone_iff_eq_none.mpr hnone) hsome, (by cases ·),
        fun o ho => { reg.held o ho with }⟩
  | shutdownStep maxSlots fail =>
    show Registered (w.shutdownStepRuntime maxSlots (releaseOr fail)).2
    unfold Wheel.shutdownStepRuntime
    split
    · exact reg
    split
    · exact reg
    split
    · exact reg
    rw [if_pos (Bool.eq_false_iff.mpr hstop)]
    exact reg

end

theorem registered_of_run {latest : Option UInt64} (run : WheelRun w latest) : Registered w := by
  induction run with
  | create hcreate =>
    obtain ⟨_, rfl⟩ := create_eq hcreate
    exact ⟨fun _ => rfl, fun _ => rfl, fun o ho => by cases ho⟩
  | call run c reg =>
    obtain ⟨_, inv⟩ := placed_of_run run
    exact registered_exec inv reg c

/-- The timers that the calls take away. -/
def Wheel.removals (w : Wheel) : List Call → List Expired
  | [] => []
  | c :: calls => w.removed c ++ (w.exec c).removals calls

/-- How many of the calls are steps of the shutdown that succeed. -/
def Wheel.steps (w : Wheel) : List Call → Nat
  | [] => 0
  | c :: calls => (w.stepped c).toNat + (w.exec c).steps calls

theorem winds_calls {latest : Option UInt64} (run : WheelRun w latest) (hstop : w.stopping = true) (calls : List Call) :
    let w' := calls.foldl Wheel.exec w
    (∃ latest', WheelRun w' latest') ∧ w'.stopping = true ∧ w'.timerCapacity = w.timerCapacity ∧
    w.timers.Perm (w.removals calls ++ w'.timers) ∧
    (w'.timers = [] ∨ w.shutdownCursor.toNat + w.steps calls ≤ w'.shutdownCursor.toNat) := by
  induction calls generalizing w latest with
  | nil => exact ⟨⟨_, run⟩, hstop, rfl, .refl _, .inr (Nat.le_refl _)⟩
  | cons c calls ih =>
    obtain ⟨_, inv⟩ := placed_of_run run
    have winds := winds_exec inv (registered_of_run run) hstop c
    obtain ⟨run', hstop', hcapacity, hperm, hfar⟩ := ih (run.call c) (winds.stopping.trans hstop)
    refine ⟨run', hstop', hcapacity.trans winds.capacity,
      winds.timers.trans ((hperm.append_left _).trans (.of_eq (append_assoc ..).symm)), ?_⟩
    rcases hfar with hnil | hfar
    · exact .inl hnil
    have hcursor := le_iff_toNat_le.mp winds.cursor
    rw [foldl_cons, Wheel.steps]
    cases hstep : w.stepped c with
    | false => exact .inr (by rw [Bool.toNat_false]; omega)
    | true =>
      rcases winds.further hstep with hnil | hlt
      · exact .inl (append_eq_nil_iff.mp (hnil ▸ hperm).nil_eq.symm).2
      · rw [lt_iff_toNat_lt] at hlt
        exact .inr (by rw [Bool.toNat_true]; omega)

/-- **A stopped wheel gives every timer back, once.** Whatever is called on it, each timer was taken away by one
    call or is still there; after as many successful steps of the shutdown as the table has slots none is left;
    and a step that succeeds says how many are. -/
theorem wheel_shutdown {latest : Option UInt64} (run : WheelRun w latest) (hstop : w.stopping = true)
    (calls : List Call) :
    let w' := calls.foldl Wheel.exec w
    (w.timers.map (·.handle)).Nodup ∧ w.timers.Perm (w.removals calls ++ w'.timers) ∧
    (w.timerCapacity.toNat ≤ w.steps calls → w'.timers = []) ∧
    ∀ maxSlots fail, (∃ e, w'.shutdownStepRuntime maxSlots (releaseOr fail) = (.error e, w')) ∨
      ∃ r v, w'.shutdownStepRuntime maxSlots (releaseOr fail) = (.ok r, v) ∧
        r.remainingCount.toNat = v.timers.length ∧ (r.finished = true ↔ v.timers = []) := by
  obtain ⟨⟨_, run'⟩, hstop', hcapacity, hperm, hfar⟩ := winds_calls run hstop calls
  have reg := registered_of_run run'
  obtain ⟨_, inv⟩ := placed_of_run run'
  refine ⟨?_, hperm, fun henough => hfar.elim id fun hfar => ?_, fun maxSlots fail => ?_⟩
  · unfold Wheel.timers
    split
    · exact nodup_nil
    · rename_i o ho
      rw [map_map]
      refine ((nodup_indices o).filter _).map_on fun s hs t ht heq => ?_
      have hslot := ((registered_of_run run).held o ho).slot
      rw [← hslot s (mem_activeSlots.mp hs), ← hslot t (mem_activeSlots.mp ht)]
      exact congrArg TimerHandle.slotIndex heq
  · -- the cursor is at the end of the table, and no timer is behind it
    unfold Wheel.timers
    split
    · rfl
    · rename_i o ho
      have held := reg.held o ho
      refine map_eq_nil_iff.mpr (eq_nil_iff_forall_not_mem.mpr fun s hs => ?_)
      have hs := mem_activeSlots.mp hs
      have hlt := lt_iff_toNat_lt.mp (held.capacity ▸ hs.1)
      have hle := le_iff_toNat_le.mp (held.behind s hs)
      rw [hcapacity] at hlt
      omega
  · rcases shutdownStep_cases inv reg hstop' maxSlots fail with he | ⟨r, v, o, he, winds, ho, hcount, hdone⟩
    · exact .inl he
    refine .inr ⟨r, v, he, ?_⟩
    obtain ⟨_, inv'⟩ := placed_of_run (run'.call (.shutdownStep maxSlots fail))
    rw [show Wheel.exec _ (.shutdownStep _ _) = v from congrArg Prod.snd he] at inv'
    have hlength := inv'.timers_length ho
    rw [hcount, hdone, ← length_eq_zero_iff, hlength, beq_iff_eq, ← toNat_inj]
    exact ⟨rfl, Iff.rfl⟩

theorem shutdown_sample :
    let w := (sampleStart.exec .shutdownBegin)
    w.timers.length = 1 ∧
      ([.shutdownStep 1 none, .shutdownStep 4 none, .shutdownStep 4 none, .shutdownStep 4 none].foldl Wheel.exec w).timers = [] := by
  have hshut := wheel_shutdown (sampleStart_run.call .shutdownBegin) (by decide +kernel)
    [.shutdownStep 1 none, .shutdownStep 4 none, .shutdownStep 4 none, .shutdownStep 4 none]
  exact ⟨by decide +kernel, hshut.2.2.1 (by decide +kernel)⟩

end Vireo.Timer
