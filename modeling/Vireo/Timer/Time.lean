/-
  File:      Vireo/Timer/Time.lean
  Subject:   WHEEL TIME (`src/timer/wheel_time.c`): ticks of a geometry and their boundaries.
-/
import Vireo.Base.Result

namespace Vireo.Timer

open UInt64 (le_iff_toNat_le le_refl le_trans not_le not_lt toNat_div toNat_inj toNat_one toNat_sub_of_le
  toNat_zero)

/-- `vireo_timer_wheel_geometry_t`. -/
structure Geometry where
  originNs : UInt64
  tickNs : UInt64
  bucketCount : UInt64
deriving DecidableEq

namespace Geometry

variable (g : Geometry)

/-- `geometry_valid`. -/
def valid : Bool := g.tickNs != 0 && g.bucketCount != 0

/-- `tick_boundary`: the checked time of a tick. -/
def tickBoundary (tick : UInt64) : Except Result UInt64 :=
  match checkedU64Mul tick g.tickNs with
  | .error e => .error e
  | .ok duration => checkedU64Add g.originNs duration

/-- `vireo_timer_wheel_geometry_make`. -/
def make (originNs tickNs bucketCount : UInt64) : Except Result Geometry :=
  if tickNs = 0 ∨ bucketCount = 0 then .error .invalidArgument
  else .ok ⟨originNs, tickNs, bucketCount⟩

/-- `vireo_timer_wheel_elapsed_tick`: rounds down. -/
def elapsedTick (nowNs : UInt64) : Except Result UInt64 :=
  if g.valid = false then .error .invalidArgument
  else if nowNs < g.originNs then .error .range
  else .ok ((nowNs - g.originNs) / g.tickNs)

/-- `vireo_timer_wheel_deadline_tick`: rounds up and refuses an unrepresentable boundary. -/
def deadlineTick (deadlineNs : UInt64) : Except Result UInt64 :=
  if g.valid = false then .error .invalidArgument
  else if deadlineNs ≤ g.originNs then .ok 0
  else
    let delta := deadlineNs - g.originNs
    let rounded :=
      if delta % g.tickNs ≠ 0 then checkedU64Add (delta / g.tickNs) 1 else .ok (delta / g.tickNs)
    match rounded with
    | .error e => .error e
    | .ok tick =>
      match g.tickBoundary tick with
      | .error e => .error e
      | .ok _ => .ok tick

/-- `vireo_timer_wheel_tick_time`. -/
def tickTime (tick : UInt64) : Except Result UInt64 :=
  if g.valid = false then .error .invalidArgument else g.tickBoundary tick

/-- `vireo_timer_wheel_bucket_index`. -/
def bucketIndex (tick : UInt64) : Except Result UInt64 :=
  if g.valid = false then .error .invalidArgument else .ok (tick % g.bucketCount)

/-- The two positive parameters a geometry needs. -/
structure Valid (g : Geometry) : Prop where
  tick : 0 < g.tickNs.toNat
  buckets : 0 < g.bucketCount.toNat

/-- The tick reached at `now`, as the advance loop computes its target. -/
def targetTick (nowNs : UInt64) : UInt64 := (nowNs - g.originNs) / g.tickNs

end Geometry

variable {g : Geometry}

theorem Geometry.valid_iff : g.valid = true ↔ g.Valid := by
  have key : ∀ x : UInt64, (x != 0) = true ↔ 0 < x.toNat := by
    intro x
    rw [bne_iff_ne, ne_eq, ← toNat_inj, toNat_zero]
    omega
  unfold Geometry.valid
  rw [Bool.and_eq_true, key, key]
  exact ⟨fun h => ⟨h.1, h.2⟩, fun h => ⟨h.tick, h.buckets⟩⟩

variable {now : UInt64}

theorem targetTick_toNat (h : g.originNs ≤ now) :
    (g.targetTick now).toNat = (now.toNat - g.originNs.toNat) / g.tickNs.toNat := by
  rw [Geometry.targetTick, toNat_div, toNat_sub_of_le _ _ h]

/-- **A quotient rounded up** is the least number of parts that suffices. -/
theorem roundUp_le_iff {a n : UInt64} (hn : 0 < n.toNat) {k : Nat} :
    a.toNat / n.toNat + (if a % n ≠ 0 then 1 else 0) ≤ k ↔ a.toNat ≤ k * n.toNat := by
  have hzero : a % n = 0 ↔ a.toNat % n.toNat = 0 := by rw [← toNat_inj, UInt64.toNat_mod, toNat_zero]
  split
  · rename_i hrem
    rw [Nat.add_one_le_iff, Nat.div_lt_iff_lt_mul hn]
    exact ⟨le_of_lt, fun hle => lt_of_le_of_ne hle fun e => hrem (hzero.mpr (e ▸ Nat.mul_mod_left k _))⟩
  · rename_i hrem
    obtain ⟨m, hm⟩ := Nat.dvd_of_mod_eq_zero (hzero.mp (not_not.mp hrem))
    rw [hm, Nat.mul_div_cancel_left _ hn, Nat.add_zero, Nat.mul_comm, Nat.mul_le_mul_right_iff hn]

theorem tickTime_cases (hv : g.valid = true) (tick : UInt64) : g.tickTime tick = g.tickBoundary tick ∧
    ((∃ x, g.tickBoundary tick = .ok x ∧ x.toNat = g.originNs.toNat + tick.toNat * g.tickNs.toNat) ∨
      (g.tickBoundary tick = .error .overflow ∧ 2 ^ 64 ≤ g.originNs.toNat + tick.toNat * g.tickNs.toNat)) := by
  refine ⟨if_neg (by simp [hv]), ?_⟩
  unfold Geometry.tickBoundary
  split
  · rename_i e hmul
    obtain ⟨rfl, hbig⟩ := checkedU64Mul_error hmul
    exact .inr ⟨rfl, hbig.trans (Nat.le_add_left _ _)⟩
  · rename_i duration hmul
    rw [← checkedU64Mul_ok hmul]
    cases hadd : checkedU64Add g.originNs duration with
    | ok x => exact .inl ⟨x, rfl, checkedU64Add_ok hadd⟩
    | error e =>
      obtain ⟨rfl, hbig⟩ := checkedU64Add_error hadd
      exact .inr ⟨rfl, hbig⟩

theorem tickTime_ok (hv : g.valid = true) {tick x : UInt64} :
    g.tickTime tick = .ok x ↔ x.toNat = g.originNs.toNat + tick.toNat * g.tickNs.toNat := by
  obtain ⟨he, ⟨y, e, hy⟩ | ⟨e, hbig⟩⟩ := tickTime_cases hv tick
  · rw [he, e, ← hy, toNat_inj]
    exact ⟨fun h => (Except.ok.inj h).symm, fun h => h ▸ rfl⟩
  · have := x.toNat_lt
    rw [he, e]
    exact ⟨(by cases ·), fun h => by omega⟩

/-- **The tick of a deadline** is the least one whose time reaches it; it is refused when none does. -/
theorem deadlineTick_cases (hv : g.valid = true) (d : UInt64) :
    (∃ tick x, g.deadlineTick d = .ok tick ∧ g.tickTime tick = .ok x ∧
      ∀ k y, g.tickTime k = .ok y → (tick ≤ k ↔ d ≤ y)) ∨
    (g.deadlineTick d = .error .overflow ∧ ∀ k y, g.tickTime k = .ok y → y < d) := by
  have htick := (Geometry.valid_iff.mp hv).tick
  unfold Geometry.deadlineTick
  rw [if_neg (by simp [hv])]
  split
  · rename_i hle
    have hle := le_iff_toNat_le.mp hle
    refine .inl ⟨0, g.originNs, rfl, (tickTime_ok hv).mpr (by simp), fun k y hy => ⟨fun _ => ?_, fun _ => ?_⟩⟩
    · rw [le_iff_toNat_le, (tickTime_ok hv).mp hy]
      omega
    · exact le_iff_toNat_le.mpr (Nat.zero_le _)
  rename_i hgt
  have hlt := not_le.mp hgt
  have hup : ∀ k y, g.tickTime k = .ok y → ((d - g.originNs).toNat / g.tickNs.toNat +
      (if (d - g.originNs) % g.tickNs ≠ 0 then 1 else 0) ≤ k.toNat ↔ d ≤ y) := by
    intro k y hy
    have := UInt64.lt_iff_toNat_lt.mp hlt
    rw [roundUp_le_iff htick, toNat_sub_of_le _ _ (UInt64.le_of_lt hlt), le_iff_toNat_le,
      (tickTime_ok hv).mp hy]
    omega
  dsimp only
  split
  · rename_i hround
    split at hround
    · rename_i h
      obtain ⟨rfl, hbig⟩ := checkedU64Add_error hround
      refine .inr ⟨rfl, fun k y hy => not_le.mp fun hd => ?_⟩
      have hle := (hup k y hy).mpr hd
      have := k.toNat_lt
      rw [if_pos h, ← toNat_div] at hle
      rw [toNat_one] at hbig
      omega
    · cases hround
  · rename_i tick hround
    have hle : ∀ k y, g.tickTime k = .ok y → (tick ≤ k ↔ d ≤ y) := by
      intro k y hy
      rw [← hup k y hy, le_iff_toNat_le]
      split at hround
      · rename_i h
        rw [checkedU64Add_ok hround, toNat_div, if_pos h, toNat_one]
      · rename_i h
        rw [← Except.ok.inj hround, toNat_div, if_neg h, Nat.add_zero]
    obtain ⟨he, ⟨x, e, -⟩ | ⟨e, hbig⟩⟩ := tickTime_cases hv tick
    · rw [e]
      exact .inl ⟨tick, x, rfl, he.trans e, hle⟩
    · rw [e]
      refine .inr ⟨rfl, fun k y hy => not_le.mp fun hd => ?_⟩
      have hmul := Nat.mul_le_mul_right g.tickNs.toNat (le_iff_toNat_le.mp ((hle k y hy).mpr hd))
      have := (tickTime_ok hv).mp hy ▸ y.toNat_lt
      omega

/-- **The tick reached at `now`** is the last one whose time has come. -/
theorem elapsedTick_ok {tick : UInt64} (h : g.elapsedTick now = .ok tick) :
    (∃ x, g.tickTime tick = .ok x ∧ x ≤ now) ∧ ∀ k x, g.tickTime k = .ok x → (k ≤ tick ↔ x ≤ now) := by
  unfold Geometry.elapsedTick at h
  split at h
  · cases h
  rename_i hv
  have hv := Bool.not_eq_false _ ▸ hv
  split at h
  · cases h
  rename_i ho
  have ho := not_lt.mp ho
  have hle := le_iff_toNat_le.mp ho
  have key : ∀ k : Nat, k ≤ tick.toNat ↔ g.originNs.toNat + k * g.tickNs.toNat ≤ now.toNat := by
    intro k
    rw [← Except.ok.inj h, toNat_div, toNat_sub_of_le _ _ ho,
      Nat.le_div_iff_mul_le (Geometry.valid_iff.mp hv).tick]
    omega
  have hnow := (key _).mp (Nat.le_refl _)
  have hx := UInt64.toNat_ofNat_of_lt' (Nat.lt_of_le_of_lt hnow now.toNat_lt)
  refine ⟨⟨_, (tickTime_ok hv).mpr hx, le_iff_toNat_le.mpr (hx.trans_le hnow)⟩, fun k x hk => ?_⟩
  rw [le_iff_toNat_le, le_iff_toNat_le, (tickTime_ok hv).mp hk, key]

/-- **Ticks and times are Galois connected**: `deadlineTick` from below, `elapsedTick` from above. -/
structure Geometry.Connected (g : Geometry) : Prop where
  deadline : ∀ d tick, g.deadlineTick d = .ok tick → (∃ x, g.tickTime tick = .ok x ∧ d ≤ x) ∧
    ∀ k x, g.tickTime k = .ok x → (tick ≤ k ↔ d ≤ x)
  refused : ∀ d e, g.deadlineTick d = .error e ↔ e = .overflow ∧ ∀ k x, g.tickTime k = .ok x → x < d
  elapsed : ∀ now tick, g.elapsedTick now = .ok tick → (∃ x, g.tickTime tick = .ok x ∧ x ≤ now) ∧
    ∀ k x, g.tickTime k = .ok x → (k ≤ tick ↔ x ≤ now)
  next : ∀ now tick n x, g.elapsedTick now = .ok tick → checkedU64Add tick 1 = .ok n →
    g.tickTime n = .ok x → now < x
  deadline_mono : ∀ d d' tick tick', d ≤ d' → g.deadlineTick d = .ok tick → g.deadlineTick d' = .ok tick' →
    tick ≤ tick'
  elapsed_mono : ∀ now now' tick tick', now ≤ now' → g.elapsedTick now = .ok tick →
    g.elapsedTick now' = .ok tick' → tick ≤ tick'

theorem lt_of_elapsedTick {tick n x : UInt64} (h : g.elapsedTick now = .ok tick)
    (hn : tick.toNat < n.toNat) (hx : g.tickTime n = .ok x) : now < x :=
  not_le.mp fun hle =>
    Nat.not_le.mpr hn (le_iff_toNat_le.mp (((elapsedTick_ok h).2 n x hx).mpr hle))

theorem connected (hv : g.valid = true) : g.Connected := by
  have deadline : ∀ d tick, g.deadlineTick d = .ok tick → (∃ x, g.tickTime tick = .ok x ∧ d ≤ x) ∧
      ∀ k x, g.tickTime k = .ok x → (tick ≤ k ↔ d ≤ x) := by
    intro d tick h
    rcases deadlineTick_cases hv d with ⟨t, x, e, hx, hle⟩ | ⟨e, -⟩
    · obtain rfl := Except.ok.inj (e.symm.trans h)
      exact ⟨⟨x, hx, (hle t x hx).mp (le_refl _)⟩, hle⟩
    · rw [e] at h
      cases h
  refine ⟨deadline, fun d e => ?_, fun _ _ => elapsedTick_ok, fun now tick n x h hn hx => ?_,
    fun d d' tick tick' hd h h' => ?_, fun now now' tick tick' hnow h h' => ?_⟩
  · rcases deadlineTick_cases hv d with ⟨t, x, e', hx, hle⟩ | ⟨e', hno⟩
    · rw [e']
      exact ⟨(by cases ·), fun h => absurd ((hle t x hx).mp (le_refl _)) (not_le.mpr (h.2 t x hx))⟩
    · rw [e']
      exact ⟨fun h => ⟨(Except.error.inj h).symm, hno⟩, fun h => h.1 ▸ rfl⟩
  · refine lt_of_elapsedTick h ?_ hx
    rw [checkedU64Add_ok hn]
    exact Nat.lt_succ_self _
  · obtain ⟨⟨x, hx, hle⟩, -⟩ := deadline d' tick' h'
    exact ((deadline d tick h).2 tick' x hx).mpr (le_trans hd hle)
  · obtain ⟨⟨x, hx, hle⟩, -⟩ := elapsedTick_ok h
    exact ((elapsedTick_ok h').2 tick x hx).mpr (le_trans hle hnow)

/-- **An accepted deadline lies at or before its tick's boundary**, and only a deadline at or
    before the origin gets tick 0. -/
theorem deadlineTick_ok {deadline tick : UInt64} (h : g.deadlineTick deadline = .ok tick) :
    deadline.toNat ≤ g.originNs.toNat + tick.toNat * g.tickNs.toNat ∧
      (g.originNs < deadline → 0 < tick.toNat) := by
  have hv : g.valid = true := by
    by_contra hv
    rw [Geometry.deadlineTick, if_pos (Bool.eq_false_iff.mpr hv)] at h
    cases h
  obtain ⟨⟨x, hx, hle⟩, hleast⟩ := (connected hv).deadline _ _ h
  refine ⟨(tickTime_ok hv).mp hx ▸ le_iff_toNat_le.mp hle, fun hlt => Nat.pos_of_ne_zero fun hz => ?_⟩
  have hzero := hleast 0 g.originNs ((tickTime_ok hv).mpr (by simp))
  exact not_lt.mpr (hzero.mp (le_iff_toNat_le.mpr (Nat.le_of_eq hz))) hlt

theorem deadline_le_of_due_le {deadline due : UInt64}
    (hd : deadline.toNat ≤ g.originNs.toNat + due.toNat * g.tickNs.toNat)
    (ho : g.originNs ≤ now) (hdue : due.toNat ≤ (g.targetTick now).toNat) : deadline ≤ now := by
  rw [targetTick_toNat ho] at hdue
  have hon := le_iff_toNat_le.mp ho
  have hmul : due.toNat * g.tickNs.toNat ≤ now.toNat - g.originNs.toNat :=
    Nat.mul_le_of_le_div _ _ _ hdue
  rw [le_iff_toNat_le]
  omega

theorem targetTick_mono {now' : UInt64} (ho : g.originNs ≤ now)
    (h : now ≤ now') : (g.targetTick now).toNat ≤ (g.targetTick now').toNat := by
  rw [targetTick_toNat ho, targetTick_toNat (le_trans ho h)]
  have := le_iff_toNat_le.mp h
  exact Nat.div_le_div_right (by omega)

end Vireo.Timer
