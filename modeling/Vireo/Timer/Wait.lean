/-
  File:      Vireo/Timer/Wait.lean
  Subject:   HOW LONG THE LOOP MAY SLEEP (`src/net/timer_loop_wait.c`, `src/base/clock_wait.c`).
-/
import Vireo.Lib.Checks
import Vireo.Timer.Placement

namespace Vireo.Timer

open Vireo.Lib

/-! ## 1. The plan -/

/-- `vireo_clock_deadline_remaining`. -/
def clockDeadlineRemaining (now deadline : UInt64) : UInt64 := if now < deadline then deadline - now else 0

/-- `vireo_clock_deadline_wait_ms`: whole milliseconds, rounded up and capped. -/
def clockDeadlineWaitMs (now deadline : UInt64) (maxWaitMs : Int) : Except Result Int :=
  if maxWaitMs < 0 then .error .invalidArgument
  else
    let remaining := clockDeadlineRemaining now deadline
    let rounded := remaining / 1000000 + if remaining % 1000000 ≠ 0 then 1 else 0
    .ok (if (rounded.toNat : Int) > maxWaitMs then maxWaitMs else rounded.toNat)

/-- `vireo_timer_wheel_registry_info_t`. -/
structure RegistryInfo where
  prepared : Bool
  capacity : UInt64
  activeCount : UInt64
  availableCount : UInt64
  allocationBytes : UInt64
  maxMemoryBytes : UInt64

/-- `vireo_timer_loop_wait_plan_t`. -/
structure WaitPlan where
  timeoutMs : Int
  timerWorkPending : Bool
  hasTickDeadline : Bool
  tickDeadlineNs : UInt64
deriving DecidableEq

namespace Wheel

/-- `vireo_timer_wheel_registry_inspect`. -/
def registryInspect (w : Wheel) : Except Result RegistryInfo :=
  match w.owner with
  | none => .ok ⟨false, 0, 0, 0, 0, 0⟩
  | some o => do
    let total ← checkedU64Add w.nodeBytes o.allocationBytes
    .ok ⟨true, w.timerCapacity, o.activeCount, o.capacity - o.activeCount, total, w.registryBudget⟩

/-- `vireo_timer_wheel_progress_inspect`. -/
def progressInspect (w : Wheel) : Except Result Progress :=
  if w.owner.isNone then .error .notFound else .ok w.progressValue

/-- `vireo_timer_loop_plan_wait`; what the other two snapshots fail for, an unprepared wheel, is
    refused before they are taken. -/
def planWait (w : Wheel) (nowNs : UInt64) (maxWaitMs : Int) : Except Result WaitPlan := do
  require (0 ≤ maxWaitMs) Result.invalidArgument
  let registry ← w.registryInspect
  require (registry.prepared = true) Result.notFound
  require (w.stopping = false) Result.cancelled
  let progress ← w.progressInspect
  require (progress.latestNowNs ≤ nowNs) Result.range
  let elapsed ← w.geometry.elapsedTick nowNs
  if progress.processing ∨ progress.readyCount ≠ 0 ∨ progress.completedTick < elapsed then
    .ok ⟨0, true, false, 0⟩
  else if registry.activeCount = 0 then .ok ⟨maxWaitMs, false, false, 0⟩
  else do
    let nextTick ← checkedU64Add progress.completedTick 1
    let tickDeadline ← w.geometry.tickTime nextTick
    let timeout ← clockDeadlineWaitMs nowNs tickDeadline maxWaitMs
    .ok ⟨timeout, false, true, tickDeadline⟩

end Wheel

/-! ## 2. The wait is tight -/

/-- **A wait** is the least number of milliseconds that reaches the deadline, or the cap. -/
theorem clockDeadlineWaitMs_ok {now deadline : UInt64} {cap timeout : Int}
    (h : clockDeadlineWaitMs now deadline cap = .ok timeout) :
    ∃ ms : Nat, (∀ k : Nat, ms ≤ k ↔ deadline.toNat ≤ now.toNat + k * 1000000) ∧ timeout = min cap ms := by
  unfold clockDeadlineWaitMs at h
  split at h
  · cases h
  have hr : (clockDeadlineRemaining now deadline).toNat = deadline.toNat - now.toNat := by
    unfold clockDeadlineRemaining
    split
    · rename_i hlt
      exact UInt64.toNat_sub_of_le _ _ (UInt64.le_of_lt hlt)
    · rename_i hle
      exact (Nat.sub_eq_zero_of_le (UInt64.le_iff_toNat_le.mp (UInt64.not_lt.mp hle))).symm
  generalize clockDeadlineRemaining now deadline = r at h hr
  have hround : (r / 1000000 + if r % 1000000 ≠ 0 then 1 else 0).toNat =
      r.toNat / (1000000 : UInt64).toNat + if r % 1000000 ≠ 0 then 1 else 0 := by
    have := r.toNat_lt
    rw [UInt64.toNat_add, UInt64.toNat_div, apply_ite UInt64.toNat]
    show (r.toNat / 1000000 + if _ then 1 else 0) % 2 ^ 64 = r.toNat / 1000000 + _
    split <;> omega
  refine ⟨(r / 1000000 + if r % 1000000 ≠ 0 then 1 else 0).toNat, fun k => ?_, ?_⟩
  · rw [hround, roundUp_le_iff (by decide), hr]
    show _ ≤ k * 1000000 ↔ _
    omega
  · rw [← Except.ok.inj h]
    split <;> omega

/-- There is something to do at `now`: a tick is in process, a timer is ready, or a tick has elapsed. -/
def Wheel.Work (w : Wheel) (now : UInt64) : Prop :=
  w.processing = true ∨ (∃ s, w.On .ready s) ∨
    ∃ tick, w.geometry.elapsedTick now = .ok tick ∧ w.completedTick < tick

theorem PlacedInv.ready_iff {w : Wheel} {members : Head → List Link} (inv : PlacedInv w members none) :
    w.readyCount ≠ 0 ↔ ∃ s, w.On .ready s := by
  rw [ne_eq, ← UInt64.toNat_inj, inv.count, UInt64.toNat_zero, List.length_eq_zero_iff]
  constructor
  · intro hne
    obtain ⟨x, hx⟩ := List.exists_mem_of_ne_nil _ hne
    obtain ⟨s, rfl, -⟩ := inv.active _ x hx
    exact ⟨s, inv.on_iff.mpr hx⟩
  · rintro ⟨s, hs⟩
    exact List.ne_nil_of_mem (inv.on_iff.mp hs)

/-- **The conversions are exact, and the wait is tight**: while there are timers, it is zero exactly when there
    is work, and otherwise the least number of milliseconds to the next tick, or the cap. -/
theorem wait_tight : (∀ g : Geometry, g.valid = true → g.Connected) ∧
    ∀ w latest, WheelRun w latest → ∀ s, w.Active s → w.stopping = false →
      ∀ now (cap : Int) plan, 0 < cap → w.planWait now cap = .ok plan →
        (plan.timeoutMs = 0 ↔ w.Work now) ∧
        (¬ w.Work now → ∃ next x, checkedU64Add w.completedTick 1 = .ok next ∧ w.geometry.tickTime next = .ok x ∧
          ∃ ms : Nat, IsLeast {k : Nat | x.toNat ≤ now.toNat + k * 1000000} ms ∧ plan.timeoutMs = min cap ms) := by
  refine ⟨fun g => connected, fun w latest run s hs going now cap plan hcap h => ?_⟩
  obtain ⟨members, inv⟩ := placed_of_run run
  obtain ⟨o, ho, ha⟩ := hs
  have hactive : o.activeCount ≠ 0 := fun hz => by
    have hlen : o.activeCount.toNat = o.activeSlots.length := inv.counted o ho
    rw [hz] at hlen
    exact absurd (mem_activeSlots.mpr ha) (List.length_eq_zero_iff.mp hlen.symm ▸ List.not_mem_nil)
  simp only [Wheel.planWait, Wheel.registryInspect, Wheel.progressInspect, ho, bind_eq_ok, require_eq_ok] at h
  obtain ⟨-, -, registry, ⟨total, -, hreg⟩, -, -, -, -, progress, hprogress, -, -, elapsed, helapsed, h⟩ := h
  obtain rfl := Except.ok.inj hreg
  obtain rfl : w.progressValue = progress := Except.ok.inj hprogress
  have hwork : (w.progressValue.processing = true ∨ w.progressValue.readyCount ≠ 0 ∨
      w.progressValue.completedTick < elapsed) ↔ w.Work now := by
    refine or_congr .rfl (or_congr inv.ready_iff ⟨fun hlt => ⟨elapsed, helapsed, hlt⟩, ?_⟩)
    rintro ⟨tick, htick, hlt⟩
    exact Except.ok.inj (htick.symm.trans helapsed) ▸ hlt
  by_cases hw : w.Work now
  · rw [if_pos (hwork.mpr hw)] at h
    rw [← Except.ok.inj h]
    exact ⟨⟨fun _ => hw, fun _ => rfl⟩, fun hno => absurd hw hno⟩
  rw [if_neg fun hyes => hw (hwork.mp hyes), if_neg hactive] at h
  simp only [bind_eq_ok] at h
  obtain ⟨next, hnext, x, hx, timeout, htimeout, h⟩ := h
  rw [← Except.ok.inj h]
  obtain ⟨ms, hms, hmin⟩ := clockDeadlineWaitMs_ok htimeout
  -- the next tick lies ahead, for the completed one is not behind
  have hbehind : elapsed.toNat < next.toNat := by
    have hle := UInt64.not_lt.mp fun hlt => hw (.inr (.inr ⟨elapsed, helapsed, hlt⟩))
    rw [checkedU64Add_ok hnext]
    exact Nat.lt_succ_of_le (UInt64.le_iff_toNat_le.mp hle)
  have hahead := UInt64.lt_iff_toNat_lt.mp (lt_of_elapsedTick helapsed hbehind hx)
  have hpos : ¬ ms ≤ 0 := fun hle => by
    have := (hms 0).mp hle
    omega
  refine ⟨⟨fun hz => ?_, fun hyes => absurd hyes hw⟩, fun _ => ⟨next, x, hnext, hx, ms,
    ⟨(hms ms).mp (Nat.le_refl _), fun k hk => (hms k).mpr hk⟩, hmin⟩⟩
  have hz : timeout = 0 := hz
  omega

theorem wait_tight_sample : sampleStart.geometry.Connected ∧
    ∃ plan, sampleStart.planWait 104 5 = .ok plan ∧ plan.timeoutMs = 1 ∧ ¬ sampleStart.Work 104 := by
  have hplan : sampleStart.planWait 104 5 = .ok ⟨1, false, true, 110⟩ := by decide +kernel
  have hexact := wait_tight.2 _ _ sampleStart_run 0 ⟨_, rfl, by decide, rfl⟩ rfl 104 5 _ (by decide) hplan
  exact ⟨wait_tight.1 _ rfl, _, hplan, rfl, fun hwork => absurd (hexact.1.mpr hwork) (by decide)⟩

end Vireo.Timer
