/-
  File:      Vireo/Base/Pool.lean
  Subject:   THE OBJECT POOL (`src/base/pool.c`): slots of one storage lent out under numbered leases.

  An object is the offset of its slot in the storage. The counter of generations is checked before the
  free chain is looked at: an exhausted pool reports `OVERFLOW` even when every slot is in use.
-/
import Vireo.Base.Result
import Vireo.Lib.FreeList

namespace Vireo.Base

open Vireo.Lib Function List
open UInt64 (lt_iff_toNat_lt not_le toNat_add toNat_inj toNat_one toNat_zero)

/-! ## 1. The pool as the code computes it -/

/-- `vireo_pool_layout_t`. -/
structure PoolLayout where
  elementSize : UInt64
  elementAlignment : UInt64
  capacity : UInt64
  slotStride : UInt64
  storageBytes : UInt64
deriving DecidableEq

/-- `vireo_pool_options_t`. -/
structure PoolOptions where
  elementSize : UInt64
  elementAlignment : UInt64
  capacity : UInt64
  maxMemoryBytes : UInt64
deriving DecidableEq

/-- `slot_metadata_t`. -/
structure PoolSlot where
  nextFree : UInt64
  generation : UInt64
  inUse : Bool
deriving DecidableEq

/-- `vireo_pool_lease_t`. -/
structure Lease where
  poolId : UInt64
  slotIndex : UInt64
  generation : UInt64
deriving DecidableEq

/-- `struct vireo_pool`; `slots i` is meaningful for `i < layout.capacity`. -/
structure ObjectPool where
  layout : PoolLayout
  allocationBytes : UInt64
  maxMemoryBytes : UInt64
  metadataBytes : UInt64
  slots : UInt64 → PoolSlot
  freeHead : UInt64
  inUseCount : UInt64
  poolId : UInt64
  lastGeneration : UInt64

/-- `vireo_checked_size_align_up`. -/
def checkedSizeAlignUp (value alignment : UInt64) : Except Result UInt64 :=
  if alignment = 0 then .error .invalidArgument
  else if value % alignment = 0 then .ok value
  else checkedU64Add value (alignment - value % alignment)

/-- `vireo_pool_layout_compute`. -/
def PoolLayout.compute (elementSize elementAlignment capacity maxStorageBytes : UInt64) :
    Except Result PoolLayout :=
  if elementSize = 0 ∨ elementAlignment = 0 ∨ capacity = 0 ∨ maxStorageBytes = 0 ∨
      elementAlignment &&& (elementAlignment - 1) ≠ 0 then .error .invalidArgument
  else
    match checkedSizeAlignUp elementSize elementAlignment with
    | .error e => .error e
    | .ok slotStride =>
      match checkedU64Mul slotStride capacity with
      | .error e => .error e
      | .ok storageBytes =>
        if storageBytes > maxStorageBytes then .error .range
        else .ok ⟨elementSize, elementAlignment, capacity, slotStride, storageBytes⟩

namespace ObjectPool

/-- `VIREO_POOL_MAX_MEMORY`. -/
def maxMemory : UInt64 := 67108864

/-- `sizeof(slot_metadata_t)` on LP64. -/
def metadataSize : UInt64 := 24

/-- `sizeof(vireo_pool_t)` on LP64. -/
def controlSize : UInt64 := 136

/-- `_Alignof(max_align_t)` on LP64. -/
def maxAlign : UInt64 := 16

/-- `claim_identity`: the next identity of the counter, which never wraps. -/
def claimIdentity (source : UInt64) : Except Result UInt64 := checkedU64Add source 1

/-- The candidate that `vireo_pool_create_with_counters` publishes: every slot free, in order. -/
def fresh (layout : PoolLayout) (allocationBytes maxMemoryBytes metadataBytes identity
    initialGeneration : UInt64) : ObjectPool where
  layout := layout
  allocationBytes := allocationBytes
  maxMemoryBytes := maxMemoryBytes
  metadataBytes := metadataBytes
  slots i := ⟨if i + 1 = layout.capacity then u64Max else i + 1, 0, false⟩
  freeHead := 0
  inUseCount := 0
  poolId := identity
  lastGeneration := initialGeneration

/-- `vireo_pool_create_with_counters`, with the identity counter behind it; `memory`: the allocations succeed.  -/
def createWithCounters (options : PoolOptions) (identitySource initialGeneration : UInt64)
    (memory : Bool) : Except Result ObjectPool × UInt64 :=
  if options.maxMemoryBytes = 0 then (.error .invalidArgument, identitySource)
  else
    match PoolLayout.compute options.elementSize options.elementAlignment options.capacity
        u64Max with
    | .error e => (.error e, identitySource)
    | .ok layout =>
      match checkedU64Mul metadataSize layout.capacity with
      | .error e => (.error e, identitySource)
      | .ok metadataBytes =>
        match checkedU64Add controlSize layout.storageBytes with
        | .error e => (.error e, identitySource)
        | .ok partialBytes =>
          match checkedU64Add partialBytes metadataBytes with
          | .error e => (.error e, identitySource)
          | .ok allocationBytes =>
            if layout.elementAlignment > maxAlign ∨ options.maxMemoryBytes > maxMemory ∨
                allocationBytes > options.maxMemoryBytes then (.error .range, identitySource)
            else
              match claimIdentity identitySource with
              | .error e => (.error e, identitySource)
              | .ok identity =>
                if memory = false then (.error .noMemory, identity)
                else (.ok (fresh layout allocationBytes options.maxMemoryBytes metadataBytes
                  identity initialGeneration), identity)

/-- `vireo_pool_acquire`: the lease and the offset of its object. -/
def acquire (p : ObjectPool) : Except Result (Lease × UInt64) × ObjectPool :=
  match checkedU64Add p.lastGeneration 1 with
  | .error e => (.error e, p)
  | .ok generation =>
    if p.freeHead = u64Max then (.error .busy, p)
    else
      let index := p.freeHead
      match checkedU64Mul index p.layout.slotStride with
      | .error e => (.error e, p)
      | .ok offset =>
        (.ok (⟨p.poolId, index, generation⟩, offset), { p with
          freeHead := (p.slots index).nextFree
          slots := update p.slots index
            { p.slots index with generation := generation, inUse := true }
          lastGeneration := generation
          inUseCount := p.inUseCount + 1 })

/-- `vireo_pool_release`: the result, the caller's lease afterwards and the pool. -/
def release (p : ObjectPool) (lease : Lease) : Result × Lease × ObjectPool :=
  if lease.poolId = 0 ∧ lease.slotIndex = 0 ∧ lease.generation = 0 then (.notFound, lease, p)
  else if lease.poolId = 0 ∨ lease.generation = 0 ∨ lease.poolId ≠ p.poolId then
    (.invalidArgument, lease, p)
  else if lease.slotIndex ≥ p.layout.capacity then (.range, lease, p)
  else
    let slot := p.slots lease.slotIndex
    if slot.inUse = false ∨ slot.generation ≠ lease.generation then (.notFound, lease, p)
    else (.ok, ⟨0, 0, 0⟩, { p with
      slots := update p.slots lease.slotIndex
        { slot with inUse := false, nextFree := p.freeHead }
      freeHead := lease.slotIndex
      inUseCount := p.inUseCount - 1 })

/-- `vireo_pool_destroy` on a pool. -/
def destroy (p : ObjectPool) : Result := if p.inUseCount ≠ 0 then .busy else .ok

end ObjectPool

/-! ## 2. One pool -/

/-- The lease names the current holder of a slot of the pool. -/
structure ObjectPool.Current (p : ObjectPool) (l : Lease) : Prop where
  identity : l.poolId = p.poolId
  index : l.slotIndex < p.layout.capacity
  inUse : (p.slots l.slotIndex).inUse = true
  generation : (p.slots l.slotIndex).generation = l.generation

/-- What a pool keeps, with its free chain, its outstanding leases and all it ever issued. -/
structure PoolInv (p : ObjectPool) (outstanding issued : List Lease) (free : List UInt64) :
    Prop where
  list : FreeList (fun i => (p.slots i).nextFree) u64Max p.freeHead (· < p.layout.capacity)
    (fun i => (p.slots i).inUse) free
  stride : p.layout.slotStride.toNat * p.layout.capacity.toNat < 2 ^ 64
  element : p.layout.elementSize.toNat ≤ p.layout.slotStride.toNat
  identity : p.poolId ≠ 0
  count : p.inUseCount.toNat = outstanding.length
  room : outstanding.length + free.length = p.layout.capacity.toNat
  nodup : outstanding.Nodup
  current : ∀ l, l ∈ outstanding ↔ p.Current l
  issued : ∀ l ∈ issued, l.generation.toNat ≤ p.lastGeneration.toNat
  generation : ∀ i, (p.slots i).generation.toNat ≤ p.lastGeneration.toNat
  positive : ∀ i, (p.slots i).inUse = true → (p.slots i).generation ≠ 0

variable {p : ObjectPool}

theorem ObjectPool.Current.congr {p' : ObjectPool} {l : Lease} (hid : p'.poolId = p.poolId)
    (hcap : p'.layout.capacity = p.layout.capacity)
    (hslot : p'.slots l.slotIndex = p.slots l.slotIndex) : p'.Current l ↔ p.Current l := by
  constructor
  · intro c
    exact ⟨c.identity.trans hid, hcap ▸ c.index, hslot ▸ c.inUse, hslot ▸ c.generation⟩
  · intro c
    refine ⟨c.identity.trans hid.symm, ?_, ?_, ?_⟩
    · rw [hcap]
      exact c.index
    · rw [hslot]
      exact c.inUse
    · rw [hslot]
      exact c.generation

section Pool

variable {p p' : ObjectPool} {outstanding issued : List Lease} {free : List UInt64}

theorem PoolInv.eq_of_slot (inv : PoolInv p outstanding issued free) {l m : Lease}
    (hl : l ∈ outstanding) (hm : m ∈ outstanding) (h : l.slotIndex = m.slotIndex) : l = m := by
  have cl := (inv.current l).mp hl
  have cm := (inv.current m).mp hm
  have hi : l.poolId = m.poolId := cl.identity.trans cm.identity.symm
  have hg : l.generation = m.generation := by
    rw [← cl.generation, ← cm.generation, h]
  cases l
  cases m
  simp_all

theorem acquire_ok {lease : Lease} {object : UInt64} (h : p.acquire = (.ok (lease, object), p')) :
    p.freeHead ≠ u64Max ∧ lease.poolId = p.poolId ∧ lease.slotIndex = p.freeHead ∧
    lease.generation.toNat = p.lastGeneration.toNat + 1 ∧
    object.toNat = p.freeHead.toNat * p.layout.slotStride.toNat ∧
    p' = { p with
      freeHead := (p.slots p.freeHead).nextFree
      slots := update p.slots p.freeHead
        { p.slots p.freeHead with generation := lease.generation, inUse := true }
      lastGeneration := lease.generation
      inUseCount := p.inUseCount + 1 } := by
  unfold ObjectPool.acquire at h
  split at h
  · cases (Prod.mk.inj h).1
  rename_i generation hgen
  split at h
  · cases (Prod.mk.inj h).1
  rename_i hne
  dsimp only at h
  split at h
  · cases (Prod.mk.inj h).1
  rename_i offset hoff
  obtain ⟨h₁, h₂⟩ := Prod.mk.inj h
  obtain ⟨rfl, rfl⟩ := Prod.mk.inj (Except.ok.inj h₁)
  have hg := checkedU64Add_ok hgen
  rw [toNat_one] at hg
  exact ⟨hne, rfl, rfl, hg, checkedU64Mul_ok hoff, h₂.symm⟩

theorem acquire_error {e : Result} (h : p.acquire = (.error e, p')) : p' = p := by
  unfold ObjectPool.acquire at h
  split at h
  · exact (Prod.mk.inj h).2.symm
  split at h
  · exact (Prod.mk.inj h).2.symm
  dsimp only at h
  split at h
  · exact (Prod.mk.inj h).2.symm
  · cases (Prod.mk.inj h).1

section

variable (inv : PoolInv p outstanding issued free) {p' : ObjectPool}
include inv

theorem poolInv_acquire {lease : Lease} {object : UInt64} (h : p.acquire = (.ok (lease, object), p')) :
    ∃ free', PoolInv p' (lease :: outstanding) (lease :: issued) free' := by
  obtain ⟨hne, hid, hslot, hgen, -, rfl⟩ := acquire_ok h
  obtain ⟨hs, hu, free', rfl, hlist⟩ := inv.list.take (fun i => (update p.slots p.freeHead
      { p.slots p.freeHead with generation := lease.generation, inUse := true } i).nextFree)
    (fun i => (update p.slots p.freeHead
      { p.slots p.freeHead with generation := lease.generation, inUse := true } i).inUse)
    hne (fun i hi => by rw [update_of_ne hi]) (by rw [update_self])
    (fun i hi => by rw [update_of_ne hi])
  have hroom := inv.room
  rw [length_cons] at hroom
  have hcap := p.layout.capacity.toNat_lt
  have hnew : lease ∉ outstanding := fun hm => by
    have hc := ((inv.current lease).mp hm).inUse
    rw [hslot, hu] at hc
    cases hc
  refine ⟨free', ⟨hlist, inv.stride, inv.element, inv.identity, ?_, ?_,
    nodup_cons.mpr ⟨hnew, inv.nodup⟩, fun l => ?_, fun l hl => ?_, fun i => ?_, fun i hi => ?_⟩⟩
  · show (p.inUseCount + 1).toNat = _
    rw [toNat_add, toNat_one, inv.count, length_cons, Nat.mod_eq_of_lt]
    omega
  · show (lease :: outstanding).length + free'.length = p.layout.capacity.toNat
    rw [length_cons]
    omega
  · rw [mem_cons]
    by_cases hl : l.slotIndex = p.freeHead
    · -- the slot has a new holder: only the new lease names it
      have hold : l ∉ outstanding := fun hm => by
        have hc := ((inv.current l).mp hm).inUse
        rw [hl, hu] at hc
        cases hc
      refine ⟨fun hm => ?_, fun hc => .inl ?_⟩
      · obtain rfl := hm.resolve_right hold
        refine ⟨hid, hslot ▸ hs, ?_, ?_⟩
        · show (update p.slots p.freeHead _ l.slotIndex).inUse = true
          rw [hl, update_self]
        · show (update p.slots p.freeHead _ l.slotIndex).generation = _
          rw [hl, update_self]
      · have hg := hc.generation
        change (update p.slots p.freeHead _ l.slotIndex).generation = _ at hg
        rw [hl, update_self] at hg
        have hi : l.poolId = lease.poolId := hc.identity.trans hid.symm
        have hsl : l.slotIndex = lease.slotIndex := hl.trans hslot.symm
        cases l
        cases lease
        simp_all
    · have hle : l ≠ lease := fun e => hl (by rw [e, hslot])
      rw [or_iff_right hle, inv.current l]
      symm
      exact ObjectPool.Current.congr rfl rfl (update_of_ne hl _ _)
  · show l.generation.toNat ≤ lease.generation.toNat
    rcases mem_cons.mp hl with rfl | hl
    · exact le_refl _
    · have := inv.issued l hl
      omega
  · show (update p.slots p.freeHead _ i).generation.toNat ≤ lease.generation.toNat
    by_cases hi : i = p.freeHead
    · rw [hi, update_self]
    rw [update_of_ne hi]
    have := inv.generation i
    omega
  · change (update p.slots p.freeHead _ i).inUse = true at hi
    show (update p.slots p.freeHead _ i).generation ≠ 0
    by_cases hif : i = p.freeHead
    · rw [hif, update_self]
      intro hz
      have hz' : lease.generation.toNat = 0 := by rw [show lease.generation = 0 from hz]; rfl
      omega
    · rw [update_of_ne hif] at hi ⊢
      exact inv.positive i hi

theorem release_cases {l : Lease} : (p.Current l ∧ p.release l = (.ok, ⟨0, 0, 0⟩, { p with
      slots := update p.slots l.slotIndex
        { p.slots l.slotIndex with inUse := false, nextFree := p.freeHead }
      freeHead := l.slotIndex
      inUseCount := p.inUseCount - 1 })) ∨
    (¬ p.Current l ∧ ∃ e, e ≠ .ok ∧ p.release l = (e, l, p)) := by
  by_cases hc : p.Current l
  · refine .inl ⟨hc, ?_⟩
    have hid : l.poolId ≠ 0 := hc.identity ▸ inv.identity
    have hgen : l.generation ≠ 0 := hc.generation ▸ inv.positive _ hc.inUse
    unfold ObjectPool.release
    rw [if_neg (fun h => hid h.1), if_neg (by simp [inv.identity, hgen, hc.identity]),
      if_neg (not_le.mpr hc.index)]
    exact if_neg (by simp [hc.inUse, hc.generation])
  · refine .inr ⟨hc, ?_⟩
    unfold ObjectPool.release
    split
    · exact ⟨_, by simp, rfl⟩
    split
    · exact ⟨_, by simp, rfl⟩
    rename_i hid
    split
    · exact ⟨_, by simp, rfl⟩
    rename_i hidx
    dsimp only
    split
    · exact ⟨_, by simp, rfl⟩
    rename_i hslot
    refine absurd ⟨?_, not_le.mp hidx, ?_, ?_⟩ hc
    · by_contra hne
      exact hid (.inr (.inr hne))
    · by_contra hne
      exact hslot (.inl (Bool.not_eq_true _ ▸ hne))
    · by_contra hne
      exact hslot (.inr hne)

theorem poolInv_release {l l' : Lease} (h : p.release l = (.ok, l', p')) :
    ∃ free', PoolInv p' (outstanding.erase l) issued free' := by
  rcases release_cases (l := l) inv with ⟨hc, e⟩ | ⟨-, e, hne, he⟩
  · rw [e] at h
    obtain ⟨-, h⟩ := Prod.mk.inj h
    obtain ⟨-, rfl⟩ := Prod.mk.inj h
    have hm := (inv.current l).mpr hc
    have hlist := inv.list.put (fun i => (update p.slots l.slotIndex
        { p.slots l.slotIndex with inUse := false, nextFree := p.freeHead } i).nextFree)
      (fun i => (update p.slots l.slotIndex
        { p.slots l.slotIndex with inUse := false, nextFree := p.freeHead } i).inUse)
      hc.index hc.inUse (by rw [update_self]) (fun i hi => by rw [update_of_ne hi])
      (by rw [update_self]) (fun i hi => by rw [update_of_ne hi])
    have hpos : 0 < outstanding.length := length_pos_of_mem hm
    have hlen := length_erase_of_mem hm
    have hroom := inv.room
    refine ⟨_, ⟨hlist, inv.stride, inv.element, inv.identity, ?_, ?_, inv.nodup.erase l, fun m => ?_,
      inv.issued, fun i => ?_, fun i hi => ?_⟩⟩
    · show (p.inUseCount - 1).toNat = _
      have hone : (1 : UInt64) ≤ p.inUseCount := by
        rw [UInt64.le_iff_toNat_le, inv.count]
        exact hpos
      rw [UInt64.toNat_sub_of_le _ _ hone, inv.count, hlen]
      rfl
    · show (outstanding.erase l).length + (l.slotIndex :: free).length = p.layout.capacity.toNat
      rw [hlen, length_cons]
      omega
    · rw [inv.nodup.mem_erase_iff]
      by_cases hs : m.slotIndex = l.slotIndex
      · refine ⟨fun hm' => absurd (inv.eq_of_slot hm'.2 hm hs) hm'.1, fun c => ?_⟩
        have hu := c.inUse
        change (update p.slots l.slotIndex _ m.slotIndex).inUse = true at hu
        rw [hs, update_self] at hu
        cases hu
      · have hne : m ≠ l := fun e => hs (by rw [e])
        rw [and_iff_right hne, inv.current m]
        symm
        exact ObjectPool.Current.congr rfl rfl (update_of_ne hs _ _)
    · show (update p.slots l.slotIndex _ i).generation.toNat ≤ p.lastGeneration.toNat
      by_cases hi : i = l.slotIndex
      · rw [hi, update_self]
        exact inv.generation l.slotIndex
      · rw [update_of_ne hi]
        exact inv.generation i
    · change (update p.slots l.slotIndex _ i).inUse = true at hi
      show (update p.slots l.slotIndex _ i).generation ≠ 0
      by_cases hil : i = l.slotIndex
      · rw [hil, update_self] at hi
        cases hi
      · rw [update_of_ne hil] at hi ⊢
        exact inv.positive i hi
  · rw [he] at h
    exact absurd (Prod.mk.inj h).1 hne

/-- **`OVERFLOW` comes first**, when the generations are used up, then `BUSY`, when every slot is in use. -/
theorem acquire_refused : (p.acquire.1 = .error .overflow ↔ p.lastGeneration = u64Max) ∧
    (p.lastGeneration ≠ u64Max → ((p.acquire.1 = .error .busy ↔
          ∀ i, i < p.layout.capacity → (p.slots i).inUse = true) ∧
        ∀ e, p.acquire.1 = .error e → e = .busy)) := by
  have hfull := inv.list.head_eq_nil
  have hexhausted : (1 : UInt64).toNat > u64Max.toNat - p.lastGeneration.toNat ↔ p.lastGeneration = u64Max := by
    rw [← toNat_inj, toNat_one, u64Max_toNat]
    have := p.lastGeneration.toNat_lt
    omega
  unfold ObjectPool.acquire checkedU64Add
  by_cases hx : p.lastGeneration = u64Max
  · rw [if_pos (hexhausted.mpr hx)]
    exact ⟨⟨fun _ => hx, fun _ => rfl⟩, fun hne => absurd hx hne⟩
  · rw [if_neg fun h => hx (hexhausted.mp h)]
    dsimp only
    by_cases hn : p.freeHead = u64Max
    · rw [if_pos hn]
      exact ⟨⟨nofun, fun h => absurd h hx⟩,
        fun _ => ⟨⟨fun _ => hfull.mp hn, fun _ => rfl⟩, fun e he => (Except.error.inj he).symm⟩⟩
    · rw [if_neg hn]
      -- the offset of a slot is below the size of the storage
      obtain ⟨l, hl⟩ := inv.list.chain.of_ne hn
      have hslot : p.freeHead < p.layout.capacity :=
        ((inv.list.mem p.freeHead).mp (hl ▸ mem_cons_self)).1
      have hlt := lt_iff_toNat_lt.mp hslot
      have hbound : p.freeHead.toNat * p.layout.slotStride.toNat ≤
          p.layout.capacity.toNat * p.layout.slotStride.toNat := Nat.mul_le_mul_right _ (le_of_lt hlt)
      have hstride := inv.stride
      rw [Nat.mul_comm] at hstride
      rw [checkedU64Mul_of_lt (by omega)]
      exact ⟨⟨nofun, fun h => absurd h hx⟩, fun _ => ⟨⟨nofun, fun hall => absurd (hfull.mpr hall) hn⟩, nofun⟩⟩

theorem objects_apart {i j : Nat} (hij : i ≠ j) (hi : i < p.layout.capacity.toNat) :
    (i * p.layout.slotStride.toNat + p.layout.elementSize.toNat ≤ j * p.layout.slotStride.toNat ∨
      j * p.layout.slotStride.toNat + p.layout.elementSize.toNat ≤ i * p.layout.slotStride.toNat) ∧
    i * p.layout.slotStride.toNat + p.layout.elementSize.toNat ≤
      p.layout.slotStride.toNat * p.layout.capacity.toNat := by
  have hel := inv.element
  -- a slot ends where the next one starts, or before
  have step : ∀ a b, a < b → a * p.layout.slotStride.toNat + p.layout.elementSize.toNat ≤
      b * p.layout.slotStride.toNat := by
    intro a b hab
    have := Nat.mul_le_mul_right p.layout.slotStride.toNat hab
    rw [Nat.succ_mul] at this
    omega
  refine ⟨(Nat.lt_or_gt_of_ne hij).imp (step i j) (step j i), ?_⟩
  rw [Nat.mul_comm p.layout.slotStride.toNat]
  exact step i _ hi

end

end Pool

/-! ## 3. Creation -/

theorem alignUp_ok {value alignment out : UInt64} (h : checkedSizeAlignUp value alignment = .ok out) :
    value.toNat ≤ out.toNat := by
  unfold checkedSizeAlignUp at h
  split at h
  · cases h
  split at h
  · rw [Except.ok.inj h]
  · rw [checkedU64Add_ok h]
    omega

variable {layout : PoolLayout}

theorem layout_ok {elementSize elementAlignment capacity maxStorageBytes : UInt64}
    (h : PoolLayout.compute elementSize elementAlignment capacity maxStorageBytes = .ok layout) :
    0 < layout.capacity.toNat ∧ layout.elementSize.toNat ≤ layout.slotStride.toNat ∧
      layout.slotStride.toNat * layout.capacity.toNat < 2 ^ 64 := by
  unfold PoolLayout.compute at h
  split at h
  · cases h
  rename_i harg
  split at h
  · cases h
  rename_i stride hstride
  split at h
  · cases h
  rename_i bytes hbytes
  split at h
  · cases h
  obtain rfl := Except.ok.inj h
  refine ⟨?_, alignUp_ok hstride, ?_⟩
  · refine Nat.pos_of_ne_zero fun hz => harg (.inr (.inr (.inl ?_)))
    rw [← toNat_inj, hz, toNat_zero]
  · rw [← checkedU64Mul_ok hbytes]
    exact bytes.toNat_lt

variable {initialGeneration : UInt64}

theorem poolInv_fresh {allocationBytes maxMemoryBytes metadataBytes identity : UInt64} (hcap : 0 < layout.capacity.toNat)
    (helement : layout.elementSize.toNat ≤ layout.slotStride.toNat)
    (hstride : layout.slotStride.toNat * layout.capacity.toNat < 2 ^ 64) (hid : identity ≠ 0) :
    PoolInv (ObjectPool.fresh layout allocationBytes maxMemoryBytes metadataBytes identity
        initialGeneration) [] [] ((List.range' 0 layout.capacity.toNat).map UInt64.ofNat) := by
  have hlt := layout.capacity.toNat_lt
  -- the last slot is linked to the sentinel, every other one to its neighbour
  have hsucc : ∀ i : UInt64, i.toNat + 1 ≤ layout.capacity.toNat →
      (i + 1 = layout.capacity ↔ i.toNat + 1 = layout.capacity.toNat) := by
    intro i hi
    rw [← toNat_inj, toNat_add, toNat_one, Nat.mod_eq_of_lt (by omega)]
  have hlist : FreeList (fun i : UInt64 => if i + 1 = layout.capacity then u64Max else i + 1) u64Max 0
      (· < layout.capacity) (fun _ => false)
      ((List.range' 0 layout.capacity.toNat).map UInt64.ofNat) := by
    refine freeList_fresh hcap ?_ (fun i hi => ?_) (fun i hi => ?_) fun _ => rfl
    · rw [lt_iff_toNat_lt, u64Max_toNat]
      omega
    · exact if_neg fun h => absurd ((hsucc i (by omega)).mp h) (by omega)
    · exact if_pos ((hsucc i (by omega)).mpr hi)
  refine ⟨hlist, hstride, helement, hid, rfl, ?_, nodup_nil,
    fun l => ⟨fun hm => absurd hm not_mem_nil, fun c => ?_⟩,
    fun l hl => absurd hl not_mem_nil, fun i => Nat.zero_le _, fun i hi => ?_⟩
  · rw [length_nil, length_map, length_range', Nat.zero_add]
    rfl
  · cases c.inUse
  · cases hi

variable {options : PoolOptions}

theorem create_ok {source : UInt64} {memory : Bool} {source' : UInt64}
    (h : ObjectPool.createWithCounters options source initialGeneration memory = (.ok p, source')) :
    (∃ free, PoolInv p [] [] free) ∧ p.poolId.toNat = source.toNat + 1 ∧ source' = p.poolId := by
  unfold ObjectPool.createWithCounters at h
  split at h
  · cases (Prod.mk.inj h).1
  split at h
  · cases (Prod.mk.inj h).1
  rename_i layout hlayout
  obtain ⟨hcap, helement, hstride⟩ := layout_ok hlayout
  split at h
  · cases (Prod.mk.inj h).1
  rename_i metadataBytes _
  split at h
  · cases (Prod.mk.inj h).1
  split at h
  · cases (Prod.mk.inj h).1
  rename_i allocationBytes _
  split at h
  · cases (Prod.mk.inj h).1
  split at h
  · cases (Prod.mk.inj h).1
  rename_i identity hid
  have hid' := checkedU64Add_ok hid
  rw [toNat_one] at hid'
  split at h
  · cases (Prod.mk.inj h).1
  obtain ⟨hp, hsource⟩ := Prod.mk.inj h
  obtain rfl := Except.ok.inj hp
  refine ⟨⟨_, poolInv_fresh hcap helement hstride fun hz => ?_⟩, hid', hsource.symm⟩
  rw [hz, toNat_zero] at hid'
  omega

theorem create_source (options : PoolOptions) (source initialGeneration : UInt64) (memory : Bool) :
    source.toNat ≤ (ObjectPool.createWithCounters options source initialGeneration memory).2.toNat := by
  unfold ObjectPool.createWithCounters
  split
  · exact le_refl _
  split
  · exact le_refl _
  split
  · exact le_refl _
  split
  · exact le_refl _
  split
  · exact le_refl _
  split
  · exact le_refl _
  split
  · exact le_refl _
  rename_i identity hid
  have hid' := checkedU64Add_ok hid
  split
  · show source.toNat ≤ identity.toNat
    omega
  · show source.toNat ≤ identity.toNat
    omega

/-! ## 4. Processes with any number of pools -/

/-- A live pool, the leases it has lent out and those it ever issued. -/
structure PoolEntry where
  pool : ObjectPool
  outstanding : List Lease
  issued : List Lease

/-- The identity counter and the pools of a process, by the handle that owns them. -/
structure PoolProcess where
  lastPoolId : UInt64
  pools : Nat → Option PoolEntry

/-- The calls on pools; a lease may be any three numbers. -/
inductive PoolCall where
  | create (handle : Nat) (options : PoolOptions) (initialGeneration : UInt64) (memory : Bool)
  | acquire (handle : Nat)
  | release (handle : Nat) (lease : Lease)
  | destroy (handle : Nat)

/-- What a handle owns from now on. -/
def PoolProcess.set (s : PoolProcess) (k : Nat) (e : Option PoolEntry) : PoolProcess :=
  { s with pools := update s.pools k e }

/-- One more call. A handle that owns a pool refuses another creation. -/
def PoolProcess.exec (s : PoolProcess) : PoolCall → PoolProcess
  | .create k options initialGeneration memory =>
    match s.pools k with
    | some _ => s
    | none =>
      match ObjectPool.createWithCounters options s.lastPoolId initialGeneration memory with
      | (.ok p, source) => ⟨source, update s.pools k (some ⟨p, [], []⟩)⟩
      | (.error _, source) => ⟨source, s.pools⟩
  | .acquire k =>
    match s.pools k with
    | none => s
    | some e =>
      match e.pool.acquire with
      | (.ok (lease, _), p) =>
        s.set k (some ⟨p, lease :: e.outstanding, lease :: e.issued⟩)
      | (.error _, p) => s.set k (some ⟨p, e.outstanding, e.issued⟩)
  | .release k lease =>
    match s.pools k with
    | none => s
    | some e =>
      match e.pool.release lease with
      | (.ok, _, p) =>
        s.set k (some ⟨p, e.outstanding.erase lease, e.issued⟩)
      | (_, _, p) => s.set k (some ⟨p, e.outstanding, e.issued⟩)
  | .destroy k =>
    match s.pools k with
    | none => s
    | some e =>
      match e.pool.destroy with
      | .ok => s.set k none
      | _ => s

/-- The states of a process, from one without pools by any calls. -/
inductive PoolRun : PoolProcess → Prop
  | start (lastPoolId : UInt64) : PoolRun ⟨lastPoolId, fun _ => none⟩
  | call {s : PoolProcess} (h : PoolRun s) (c : PoolCall) : PoolRun (s.exec c)

/-- What a process keeps: every pool is in order, and no two share an identity. -/
structure ProcessInv (s : PoolProcess) : Prop where
  pool : ∀ k e, s.pools k = some e → ∃ free, PoolInv e.pool e.outstanding e.issued free
  claimed : ∀ k e, s.pools k = some e → e.pool.poolId.toNat ≤ s.lastPoolId.toNat
  distinct : ∀ j k e e', j ≠ k → s.pools j = some e → s.pools k = some e' → e.pool.poolId ≠ e'.pool.poolId

variable {s : PoolProcess}

theorem processInv_update (inv : ProcessInv s) {k : Nat} {e : PoolEntry}
    (e' : PoolEntry) (he : s.pools k = some e) (hid : e'.pool.poolId = e.pool.poolId)
    (hinv : ∃ free, PoolInv e'.pool e'.outstanding e'.issued free) :
    ProcessInv (s.set k (some e')) := by
  -- every entry of the new table has the identity of an old entry of its handle
  have hold : ∀ j d, update s.pools k (some e') j = some d →
      ∃ d₀, s.pools j = some d₀ ∧ d.pool.poolId = d₀.pool.poolId ∧
        ∃ free, PoolInv d.pool d.outstanding d.issued free := by
    intro j d hd
    by_cases hj : j = k
    · rw [hj, update_self] at hd
      obtain rfl := Option.some.inj hd
      exact ⟨e, hj ▸ he, hid, hinv⟩
    · rw [update_of_ne hj] at hd
      exact ⟨d, hd, rfl, inv.pool j d hd⟩
  refine ⟨fun j d hd => ?_, fun j d hd => ?_, fun i j d d' hij hd hd' => ?_⟩
  · obtain ⟨-, -, -, h⟩ := hold j d hd
    exact h
  · obtain ⟨d₀, h₀, hpid, -⟩ := hold j d hd
    rw [hpid]
    exact inv.claimed j d₀ h₀
  · obtain ⟨d₀, h₀, hpid, -⟩ := hold i d hd
    obtain ⟨d₁, h₁, hpid', -⟩ := hold j d' hd'
    rw [hpid, hpid']
    exact inv.distinct i j d₀ d₁ hij h₀ h₁

theorem processInv_create (inv : ProcessInv s) {k : Nat} {memory : Bool}
    {source : UInt64} (hc : ObjectPool.createWithCounters options s.lastPoolId initialGeneration
      memory = (.ok p, source)) :
    ProcessInv ⟨source, update s.pools k (some ⟨p, [], []⟩)⟩ := by
  obtain ⟨hfree, hid, hsource⟩ := create_ok hc
  have hsource' : source.toNat = s.lastPoolId.toNat + 1 := by rw [hsource]; exact hid
  -- the new identity is above every one in use
  have hnew : ∀ j e, s.pools j = some e → e.pool.poolId ≠ p.poolId := by
    intro j e he heq
    have := inv.claimed j e he
    rw [heq, hid] at this
    omega
  refine ⟨fun j e he => ?_, fun j e he => ?_, fun i j e e' hij he he' => ?_⟩
  · by_cases hj : j = k
    · change update s.pools k _ j = some e at he
      rw [hj, update_self] at he
      obtain rfl := Option.some.inj he
      exact hfree
    · change update s.pools k _ j = some e at he
      rw [update_of_ne hj] at he
      exact inv.pool j e he
  · change update s.pools k _ j = some e at he
    show _ ≤ source.toNat
    by_cases hj : j = k
    · rw [hj, update_self] at he
      obtain rfl := Option.some.inj he
      show p.poolId.toNat ≤ _
      omega
    · rw [update_of_ne hj] at he
      have := inv.claimed j e he
      omega
  · change update s.pools k _ i = some e at he
    change update s.pools k _ j = some e' at he'
    by_cases hi : i = k
    · have hj : j ≠ k := fun h => hij (hi.trans h.symm)
      rw [hi, update_self] at he
      rw [update_of_ne hj] at he'
      obtain rfl := Option.some.inj he
      exact (hnew j e' he').symm
    · rw [update_of_ne hi] at he
      by_cases hj : j = k
      · rw [hj, update_self] at he'
        obtain rfl := Option.some.inj he'
        exact hnew i e he
      · rw [update_of_ne hj] at he'
        exact inv.distinct i j e e' hij he he'

theorem processInv_exec (inv : ProcessInv s) (c : PoolCall) : ProcessInv (s.exec c) := by
  cases c with
  | create k options initialGeneration memory =>
    rw [PoolProcess.exec]
    split
    · exact inv
    split
    · rename_i p source hc
      exact processInv_create inv hc
    · rename_i e source hc
      have hle := create_source options s.lastPoolId initialGeneration memory
      rw [hc] at hle
      exact { inv with claimed := fun k e he => (inv.claimed k e he).trans hle }
  | acquire k =>
    rw [PoolProcess.exec]
    split
    · exact inv
    rename_i e he
    obtain ⟨free, hp⟩ := inv.pool k e he
    split
    · rename_i lease object p ha
      have hid : p.poolId = e.pool.poolId := by
        obtain ⟨-, -, -, -, -, rfl⟩ := acquire_ok ha
        rfl
      exact processInv_update inv ⟨p, lease :: e.outstanding, lease :: e.issued⟩ he hid
        (poolInv_acquire hp ha)
    · rename_i r p ha
      obtain rfl := acquire_error ha
      exact processInv_update inv _ he rfl ⟨free, hp⟩
  | release k lease =>
    rw [PoolProcess.exec]
    split
    · exact inv
    rename_i e he
    obtain ⟨free, hp⟩ := inv.pool k e he
    rcases release_cases (l := lease) hp with ⟨-, hr⟩ | ⟨-, r, hne, hr⟩
    · rw [hr]
      exact processInv_update inv ⟨_, e.outstanding.erase lease, e.issued⟩ he rfl (poolInv_release hp hr)
    · rw [hr]
      have hmatch : ProcessInv (s.set k (some ⟨e.pool, e.outstanding, e.issued⟩)) :=
        processInv_update inv _ he rfl ⟨free, hp⟩
      cases r <;> first | exact absurd rfl hne | exact hmatch
  | destroy k =>
    rw [PoolProcess.exec]
    split
    · exact inv
    rename_i e he
    split
    · have hold : ∀ j d, update s.pools k none j = some d → s.pools j = some d := by
        intro j d hd
        by_cases hj : j = k
        · rw [hj, update_self] at hd
          cases hd
        · rwa [update_of_ne hj] at hd
      exact ⟨fun j d hd => inv.pool j d (hold j d hd), fun j d hd => inv.claimed j d (hold j d hd),
        fun i j d d' hij hd hd' => inv.distinct i j d d' hij (hold i d hd) (hold j d' hd')⟩
    · exact inv

theorem processInv_of_run (run : PoolRun s) : ProcessInv s := by
  induction run with
  | start lastPoolId => exact ⟨nofun, nofun, nofun⟩
  | call _ c ih => exact processInv_exec ih c

/-- **The object pool.** In every state of every history: the free chain is a duplicate-free list of exactly the
    slots not in use; a release succeeds exactly for an outstanding lease; an acquire issues a generation above
    all issued before, or says why not; and a call that fails changes nothing. -/
theorem pool_leases {s : PoolProcess} (run : PoolRun s) {k : Nat} {e : PoolEntry} (he : s.pools k = some e) :
    (∃ free : List UInt64, FreeChain (fun i => (e.pool.slots i).nextFree) u64Max e.pool.freeHead free ∧
      free.Nodup ∧ ∀ i, i ∈ free ↔ i < e.pool.layout.capacity ∧ (e.pool.slots i).inUse = false) ∧
    e.pool.inUseCount.toNat = e.outstanding.length ∧ e.outstanding.Nodup ∧
    (∀ l ∈ e.outstanding, ∀ m ∈ e.outstanding, l ≠ m →
      let stride := e.pool.layout.slotStride.toNat
      let size := e.pool.layout.elementSize.toNat
      l.slotIndex.toNat * stride + size ≤ m.slotIndex.toNat * stride ∨
        m.slotIndex.toNat * stride + size ≤ l.slotIndex.toNat * stride) ∧
    (∀ l, (e.pool.release l).1 = .ok ↔ l ∈ e.outstanding) ∧
    (∀ j e', j ≠ k → s.pools j = some e' → ∀ l ∈ e'.outstanding, l ∉ e.outstanding) ∧
    (∀ lease object p', e.pool.acquire = (.ok (lease, object), p') →
      object.toNat = lease.slotIndex.toNat * e.pool.layout.slotStride.toNat ∧
      lease.slotIndex < e.pool.layout.capacity ∧ (e.pool.slots lease.slotIndex).inUse = false ∧
      (e.pool.slots lease.slotIndex).generation < lease.generation ∧
      (p'.slots lease.slotIndex).generation = lease.generation ∧
      ∀ l ∈ e.issued, l.generation < lease.generation) ∧
    (e.pool.acquire.1 = .error .overflow ↔ e.pool.lastGeneration = u64Max) ∧
    (e.pool.lastGeneration ≠ u64Max →
      ((e.pool.acquire.1 = .error .busy ↔
          ∀ i, i < e.pool.layout.capacity → (e.pool.slots i).inUse = true) ∧
        ∀ r, e.pool.acquire.1 = .error r → r = .busy)) ∧
    (∀ r p', e.pool.acquire = (.error r, p') → p' = e.pool) ∧
    ∀ l, (e.pool.release l).1 ≠ .ok → (e.pool.release l).2 = (l, e.pool) := by
  have inv := processInv_of_run run
  obtain ⟨free, hp⟩ := inv.pool k e he
  obtain ⟨hover, hbusy⟩ := acquire_refused hp
  refine ⟨⟨free, hp.list.chain, hp.list.nodup, hp.list.mem⟩, hp.count, hp.nodup,
    fun l hl m hm hlm => ?_, fun l => ?_, fun j e' hj he' l hl hl' => ?_,
    fun lease object p' ha => ?_, hover, hbusy, fun r p' ha => acquire_error ha, fun l hne => ?_⟩
  · have hslot : l.slotIndex.toNat ≠ m.slotIndex.toNat :=
      fun h => hlm (hp.eq_of_slot hl hm (toNat_inj.mp h))
    exact (objects_apart hp hslot
      (lt_iff_toNat_lt.mp ((hp.current l).mp hl).index)).1
  · rw [hp.current l]
    rcases release_cases (l := l) hp with ⟨hc, hr⟩ | ⟨hc, r, hne, hr⟩
    · rw [hr]
      exact ⟨fun _ => hc, fun _ => rfl⟩
    · rw [hr]
      exact ⟨fun h => absurd h hne, fun h => absurd h hc⟩
  · obtain ⟨free', hp'⟩ := inv.pool j e' he'
    refine inv.distinct j k e' e hj he' he ?_
    rw [← ((hp'.current l).mp hl).identity, ((hp.current l).mp hl').identity]
  · obtain ⟨hne, -, hslot, hgen, hobj, rfl⟩ := acquire_ok ha
    obtain ⟨hs, hu, -⟩ := hp.list.take (fun i => (e.pool.slots i).nextFree)
      (fun i => decide (i = e.pool.freeHead) || (e.pool.slots i).inUse) hne
      (fun _ _ => rfl) (by simp) (fun i hi => by simp [hi])
    rw [hslot]
    refine ⟨hobj, hs, hu, ?_, ?_, fun l hl => ?_⟩
    · rw [lt_iff_toNat_lt, hgen]
      have := hp.generation e.pool.freeHead
      omega
    · show (update e.pool.slots e.pool.freeHead _ e.pool.freeHead).generation = _
      rw [update_self]
    · rw [lt_iff_toNat_lt, hgen]
      have := hp.issued l hl
      omega
  · rcases release_cases (l := l) hp with ⟨-, hr⟩ | ⟨-, r, -, hr⟩
    · rw [hr] at hne
      exact absurd rfl hne
    · rw [hr]

/-- A pool of one slot, lent out. -/
def samplePool (initialGeneration : UInt64) : PoolProcess :=
  ((PoolProcess.mk 0 fun _ => none).exec (.create 0 ⟨8, 8, 1, 4096⟩ initialGeneration true)).exec
    (.acquire 0)

theorem samplePool_run (initialGeneration : UInt64) : PoolRun (samplePool initialGeneration) :=
  ((PoolRun.start 0).call (.create 0 ⟨8, 8, 1, 4096⟩ initialGeneration true)).call (.acquire 0)

theorem pool_leases_sample :
    ∃ e, (samplePool 0).pools 0 = some e ∧ e.pool.inUseCount.toNat = 1 ∧
      (e.pool.release ⟨1, 0, 1⟩).1 = .ok := by
  obtain ⟨e, he⟩ : ∃ e, (samplePool 0).pools 0 = some e := ⟨_, rfl⟩
  obtain ⟨-, hcount, -, -, hrelease, -⟩ := pool_leases (samplePool_run 0) he
  have hout : e.outstanding = [⟨1, 0, 1⟩] := by
    rw [← Option.some.inj he]
    rfl
  rw [hout] at hcount hrelease
  exact ⟨e, he, hcount, (hrelease _).mpr (mem_singleton_self _)⟩

/-- Every slot is in use, and the acquire does not say so: the generations are used up. -/
theorem acquire_busy_exhausted :
    ¬ ∀ s, PoolRun s → ∀ k e, s.pools k = some e →
      (e.pool.acquire.1 = .error .busy ↔ ∀ i, i < e.pool.layout.capacity → (e.pool.slots i).inUse = true) := by
  intro h
  obtain ⟨e, he⟩ : ∃ e, (samplePool (u64Max - 1)).pools 0 = some e := ⟨_, rfl⟩
  have hiff := h _ (samplePool_run (u64Max - 1)) 0 e he
  obtain rfl := Option.some.inj he
  have hfull : ∀ i : UInt64, i < 1 → i = 0 := by
    intro i hi
    rw [lt_iff_toNat_lt, toNat_one] at hi
    rw [← toNat_inj, toNat_zero]
    omega
  have hbusy := hiff.mpr fun i hi => by
    rw [hfull i hi]
    rfl
  cases hbusy

end Vireo.Base
