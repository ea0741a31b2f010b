/-
  File:      Vireo/Timer/Handle.lean
  Subject:   TIMER HANDLES AND THEIR OWNER (`src/timer/handle.c`, `src/timer/handle_owner.c`).

  A handle is the triple (owner id, slot, generation); the owner is a fixed table of slots with a
  free chain threaded through `next_free`.
-/
import Vireo.Lib.FreeList
import Vireo.Lib.Table
import Vireo.Base.Result

namespace Vireo.Timer

open Function List
open UInt64 (le_iff_toNat_le lt_iff_toNat_lt toNat_add toNat_inj toNat_one toNat_sub_of_le)

/-- `vireo_timer_handle_t`; the empty handle is all zero. -/
@[ext]
structure TimerHandle where
  ownerId : UInt64
  slotIndex : UInt64
  generation : UInt64

namespace TimerHandle

/-- The all-zero handle. -/
def empty : TimerHandle := ⟨0, 0, 0⟩

/-- `handle_has_valid_shape`: all zero, or owner and generation both non-zero. -/
def hasValidShape (h : TimerHandle) : Bool :=
  (h.ownerId == 0 && h.slotIndex == 0 && h.generation == 0) ||
    (h.ownerId != 0 && h.generation != 0)

/-- `vireo_timer_handle_is_empty`. -/
def isEmpty (h : TimerHandle) : Except Result Bool :=
  if h.hasValidShape then .ok (h.ownerId == 0) else .error .invalidArgument

/-- `vireo_timer_handle_next_generation`. -/
def nextGeneration (last : UInt64) : Except Result UInt64 := checkedU64Add last 1

end TimerHandle

/-- One slot of the owner's table: a live identity or a cell of the free chain. -/
structure OwnerSlot where
  generation : UInt64
  nextFree : UInt64
  active : Bool

/-- `struct vireo_timer_handle_owner`; `slots i` is meaningful for `i < capacity`. -/
structure HandleOwner where
  slots : UInt64 → OwnerSlot
  capacity : UInt64
  freeHead : UInt64
  activeCount : UInt64
  allocationBytes : UInt64
  maxMemoryBytes : UInt64
  ownerId : UInt64
  lastGeneration : UInt64

namespace HandleOwner

/-- `VIREO_TIMER_HANDLE_OWNER_MAX_CAPACITY`. -/
def maxCapacity : UInt64 := 65536

/-- `VIREO_TIMER_HANDLE_OWNER_MAX_MEMORY`. -/
def maxMemory : UInt64 := 67108864

/-- `sizeof(vireo_timer_handle_owner_slot_t)` on LP64. -/
def slotBytes : UInt64 := 24

/-- `sizeof(vireo_timer_handle_owner_t)` on LP64. -/
def controlBytes : UInt64 := 88

/-- The table `vireo_timer_handle_owner_create` publishes: every slot free, chained in order. -/
def fresh (capacity maxMemoryBytes totalBytes identity : UInt64) : HandleOwner where
  slots i := ⟨0, if i = capacity - 1 then u64Max else i + 1, false⟩
  capacity := capacity
  freeHead := 0
  activeCount := 0
  allocationBytes := totalBytes
  maxMemoryBytes := maxMemoryBytes
  ownerId := identity
  lastGeneration := 0

/-- `vireo_timer_handle_owner_create_runtime`, with the identity counter passed in and out; `memory` says
    whether both allocations succeed. -/
def create (capacity maxMemoryBytes counter : UInt64) (memory : Bool) :
    Except Result HandleOwner × UInt64 :=
  if capacity = 0 ∨ maxMemoryBytes = 0 then (.error .invalidArgument, counter) else
  match checkedU64Mul capacity slotBytes with
  | .error e => (.error e, counter)
  | .ok slotsSize =>
    match checkedU64Add controlBytes slotsSize with
    | .error e => (.error e, counter)
    | .ok total =>
      if capacity > maxCapacity ∨ maxMemoryBytes > maxMemory ∨ total > maxMemoryBytes then
        (.error .range, counter)
      else
        match TimerHandle.nextGeneration counter with
        | .error e => (.error e, counter)
        | .ok identity =>
          if memory then (.ok (fresh capacity maxMemoryBytes total identity), identity)
          else (.error .noMemory, identity)

variable (o : HandleOwner)

/-- `vireo_timer_handle_owner_acquire`. -/
def acquire : Except Result (TimerHandle × HandleOwner) :=
  match TimerHandle.nextGeneration o.lastGeneration with
  | .error e => .error e
  | .ok next =>
    if o.freeHead = u64Max then .error .busy
    else
      let index := o.freeHead
      let slot := o.slots index
      .ok (⟨o.ownerId, index, next⟩,
        { o with
          freeHead := slot.nextFree
          slots := update o.slots index { slot with generation := next, active := true }
          activeCount := o.activeCount + 1
          lastGeneration := next })

/-- `vireo_timer_handle_owner_validate`. -/
def validate (h : TimerHandle) : Result :=
  match h.isEmpty with
  | .error e => e
  | .ok true => .notFound
  | .ok false =>
    if h.ownerId ≠ o.ownerId then .invalidArgument
    else if h.slotIndex ≥ o.capacity then .range
    else if (o.slots h.slotIndex).active = false ∨ (o.slots h.slotIndex).generation ≠ h.generation
      then .notFound
    else .ok

/-- `vireo_timer_handle_owner_release`. -/
def release (h : TimerHandle) : Except Result HandleOwner :=
  match o.validate h with
  | .ok =>
    .ok { o with
      slots := update o.slots h.slotIndex
        { o.slots h.slotIndex with active := false, nextFree := o.freeHead }
      freeHead := h.slotIndex
      activeCount := o.activeCount - 1 }
  | e => .error e

/-- The owner after an acquire: its first free slot is in use, with this generation. -/
def taken (next : UInt64) : HandleOwner :=
  { o with
    freeHead := (o.slots o.freeHead).nextFree
    slots := update o.slots o.freeHead { o.slots o.freeHead with generation := next, active := true }
    activeCount := o.activeCount + 1
    lastGeneration := next }

theorem taken_self {o : HandleOwner} (g : UInt64) : (o.taken g).slots o.freeHead =
    { o.slots o.freeHead with generation := g, active := true } := update_self ..

/-- The owner after a release: slot `i` is its first free one. -/
def freed (i : UInt64) : HandleOwner :=
  { o with
    slots := update o.slots i { o.slots i with active := false, nextFree := o.freeHead }
    freeHead := i
    activeCount := o.activeCount - 1 }

theorem freed_self {o : HandleOwner} (i : UInt64) : (o.freed i).slots i =
    { o.slots i with active := false, nextFree := o.freeHead } := update_self ..

/-- The slot currently carries an identity. -/
def Active (i : UInt64) : Prop := i < o.capacity ∧ (o.slots i).active = true

end HandleOwner

/-! ## 1. The free chain -/

/-- Following `next_free` from `h` visits `l` and ends at `SIZE_MAX`. -/
def FreeChain (slots : UInt64 → OwnerSlot) : UInt64 → List UInt64 → Prop
  | h, [] => h = u64Max
  | h, x :: l => h = x ∧ FreeChain slots (slots x).nextFree l

/-- The free chain holds exactly the inactive slots, each once. -/
structure OwnerInv (o : HandleOwner) (free : List UInt64) : Prop where
  chain : FreeChain o.slots o.freeHead free
  nodup : free.Nodup
  mem : ∀ i, i ∈ free ↔ i < o.capacity ∧ (o.slots i).active = false
  capacity : o.capacity ≤ HandleOwner.maxCapacity

theorem freeChain_iff {slots : UInt64 → OwnerSlot} {h : UInt64} {l : List UInt64} :
    FreeChain slots h l ↔ Lib.FreeChain (fun i => (slots i).nextFree) u64Max h l := by
  induction l generalizing h with
  | nil => exact .rfl
  | cons x l ih => exact and_congr_right fun _ => ih

theorem not_u64Max_lt (c : UInt64) : ¬ u64Max < c := fun h => by
  rw [lt_iff_toNat_lt, u64Max_toNat] at h
  have := c.toNat_lt
  omega

variable {o : HandleOwner} {free : List UInt64}

theorem ownerInv_iff : OwnerInv o free ↔
    Lib.FreeList (fun i => (o.slots i).nextFree) u64Max o.freeHead (· < o.capacity)
      (fun i => (o.slots i).active) free ∧ o.capacity ≤ HandleOwner.maxCapacity := by
  constructor
  · rintro ⟨chain, nodup, mem, capacity⟩
    exact ⟨⟨freeChain_iff.mp chain, nodup, mem, not_u64Max_lt o.capacity⟩, capacity⟩
  · rintro ⟨h, capacity⟩
    exact ⟨freeChain_iff.mpr h.chain, h.nodup, h.mem, capacity⟩

variable {o' : HandleOwner} {h : TimerHandle}

/-- What an acquire does: it takes an inactive slot of the table and nothing else changes. -/
theorem acquire_cases (e : o.acquire = .ok (h, o')) :
    o.freeHead ≠ u64Max ∧ h.ownerId = o.ownerId ∧ h.slotIndex = o.freeHead ∧
    h.generation.toNat = o.lastGeneration.toNat + 1 ∧ o' = o.taken h.generation := by
  unfold HandleOwner.acquire at e
  split at e
  · cases e
  rename_i next hnext
  split at e
  · cases e
  rename_i hne
  have hg := checkedU64Add_ok hnext
  rw [toNat_one] at hg
  obtain ⟨e1, e2⟩ := Prod.mk.inj (Except.ok.inj e)
  subst e1
  exact ⟨hne, rfl, rfl, hg, e2.symm⟩

theorem validate_ok_iff : o.validate h = .ok ↔ (h.ownerId ≠ 0 ∧ h.generation ≠ 0) ∧
      h.ownerId = o.ownerId ∧ o.Active h.slotIndex ∧ (o.slots h.slotIndex).generation = h.generation := by
  unfold HandleOwner.validate TimerHandle.isEmpty TimerHandle.hasValidShape HandleOwner.Active
  grind

theorem release_eq (hv : o.validate h = .ok) : o.release h = .ok (o.freed h.slotIndex) := by
  unfold HandleOwner.release
  rw [hv]
  rfl

theorem release_cases (e : o.release h = .ok o') : o.validate h = .ok ∧ o' = o.freed h.slotIndex := by
  have hv : o.validate h = .ok := by
    unfold HandleOwner.release at e
    split at e
    · assumption
    · cases e
  rw [release_eq hv] at e
  exact ⟨hv, (Except.ok.inj e).symm⟩

/-! ## 2. The operations keep the free chain -/

theorem ownerInv_acquire (inv : OwnerInv o free) (e : o.acquire = .ok (h, o')) :
    ¬ o.Active h.slotIndex ∧ h.slotIndex < o.capacity ∧
      ∃ free', free = h.slotIndex :: free' ∧ OwnerInv o' free' := by
  obtain ⟨hne, -, hs, -, rfl⟩ := acquire_cases e
  obtain ⟨hlist, hcapacity⟩ := ownerInv_iff.mp inv
  obtain ⟨hlt, hfree, free', rfl, hlist'⟩ := hlist.take
    (fun i => ((o.taken h.generation).slots i).nextFree) (fun i => ((o.taken h.generation).slots i).active)
    hne (fun i hi => congrArg _ (update_of_ne hi _ _)) (by rw [HandleOwner.taken_self])
    fun i hi => congrArg _ (update_of_ne hi _ _)
  rw [hs]
  refine ⟨fun ha => ?_, hlt, free', rfl, ownerInv_iff.mpr ⟨hlist', hcapacity⟩⟩
  rw [ha.2] at hfree
  cases hfree

theorem ownerInv_release (inv : OwnerInv o free) (e : o.release h = .ok o') :
    OwnerInv o' (h.slotIndex :: free) := by
  obtain ⟨hv, rfl⟩ := release_cases e
  obtain ⟨-, -, hact, -⟩ := validate_ok_iff.mp hv
  obtain ⟨hlist, hcapacity⟩ := ownerInv_iff.mp inv
  have hlist' := hlist.put
    (fun i => ((o.freed h.slotIndex).slots i).nextFree) (fun i => ((o.freed h.slotIndex).slots i).active)
    hact.1 hact.2 (by rw [HandleOwner.freed_self]) (fun j hj => congrArg _ (update_of_ne hj _ _))
    (by rw [HandleOwner.freed_self]) fun j hj => congrArg _ (update_of_ne hj _ _)
  exact ownerInv_iff.mpr ⟨hlist', hcapacity⟩

theorem active_acquire (inv : OwnerInv o free) (e : o.acquire = .ok (h, o')) (i : UInt64) :
    o'.Active i ↔ o.Active i ∨ i = h.slotIndex := by
  obtain ⟨-, hlt, -⟩ := ownerInv_acquire inv e
  obtain ⟨-, -, hs, -, rfl⟩ := acquire_cases e
  show i < o.capacity ∧ (update o.slots o.freeHead _ i).active = true ↔ _
  rw [hs] at hlt ⊢
  by_cases hi : i = o.freeHead
  · rw [hi, update_self]
    exact ⟨fun _ => .inr rfl, fun _ => ⟨hlt, rfl⟩⟩
  · rw [update_of_ne hi]
    exact ⟨.inl, fun h => h.resolve_right hi⟩

theorem active_release (e : o.release h = .ok o')
    (i : UInt64) : o'.Active i ↔ o.Active i ∧ i ≠ h.slotIndex := by
  obtain ⟨-, rfl⟩ := release_cases e
  show i < o.capacity ∧ (update o.slots h.slotIndex _ i).active = true ↔ _
  by_cases hi : i = h.slotIndex
  · rw [hi, update_self]
    exact ⟨fun ha => absurd ha.2 (by simp), fun ha => absurd rfl ha.2⟩
  · rw [update_of_ne hi]
    exact ⟨fun ha => ⟨ha, hi⟩, fun ha => ha.1⟩

/-! ## 3. A created owner -/

variable {capacity maxMemoryBytes : UInt64}

theorem ownerInv_fresh {total identity : UInt64} (hpos : capacity ≠ 0)
    (hmax : capacity ≤ HandleOwner.maxCapacity) :
    OwnerInv (HandleOwner.fresh capacity maxMemoryBytes total identity)
      ((List.range' 0 capacity.toNat).map UInt64.ofNat) := by
  have hcap : 0 < capacity.toNat := Nat.pos_of_ne_zero fun h => hpos (toNat_inj.mp h)
  have hone : (1 : UInt64) ≤ capacity := le_iff_toNat_le.mpr hcap
  have hlast : ∀ i : UInt64, i = capacity - 1 ↔ i.toNat + 1 = capacity.toNat := fun i => by
    rw [← toNat_inj, UInt64.toNat_sub_of_le _ _ hone, UInt64.toNat_one]
    omega
  exact ownerInv_iff.mpr ⟨Lib.freeList_fresh hcap (not_u64Max_lt capacity)
    (fun i hi => if_neg fun e => absurd ((hlast i).mp e) hi.ne)
    (fun i hi => if_pos ((hlast i).mpr hi)) fun _ => rfl, hmax⟩

variable {counter : UInt64} {memory : Bool}

theorem create_cases (e : (HandleOwner.create capacity maxMemoryBytes counter memory).1 = .ok o) :
    capacity ≠ 0 ∧ capacity ≤ HandleOwner.maxCapacity ∧
      ∃ total identity, o = HandleOwner.fresh capacity maxMemoryBytes total identity := by
  unfold HandleOwner.create at e
  split at e
  · cases e
  rename_i hpos
  split at e
  · cases e
  split at e
  · cases e
  split at e
  · cases e
  rename_i hrange
  split at e
  · cases e
  split at e
  · exact ⟨fun h => hpos (.inl h), UInt64.not_lt.mp fun h => hrange (.inl h), _, _, (Except.ok.inj e).symm⟩
  · cases e

theorem ownerInv_create (e : (HandleOwner.create capacity maxMemoryBytes counter memory).1 = .ok o) :
    (∃ free, OwnerInv o free) ∧ ∀ i, ¬ o.Active i := by
  obtain ⟨hpos, hmax, total, identity, rfl⟩ := create_cases e
  exact ⟨⟨_, ownerInv_fresh hpos hmax⟩, fun i ha => by cases ha.2⟩

/-! ## 4. The number of live identities -/

/-- The slots of the table, in order. -/
def HandleOwner.indices (o : HandleOwner) : List UInt64 :=
  (List.range o.capacity.toNat).map UInt64.ofNat

/-- The slots that carry an identity. -/
def HandleOwner.activeSlots (o : HandleOwner) : List UInt64 :=
  o.indices.filter fun i => (o.slots i).active

theorem mem_indices {i : UInt64} : i ∈ o.indices ↔ i < o.capacity := by
  unfold HandleOwner.indices
  rw [range_eq_range']
  exact Lib.mem_map_ofNat

theorem nodup_indices (o : HandleOwner) : o.indices.Nodup :=
  Lib.nodup_map_ofNat nodup_range fun _ => mem_range.mp

theorem mem_activeSlots {i : UInt64} : i ∈ o.activeSlots ↔ o.Active i := by
  unfold HandleOwner.activeSlots HandleOwner.Active
  rw [mem_filter, mem_indices]

theorem length_activeSlots_le (o : HandleOwner) : o.activeSlots.length ≤ o.capacity.toNat := by
  refine (length_filter_le _ _).trans ?_
  unfold HandleOwner.indices
  rw [length_map, length_range]

/-- `active_count` is the number of live identities. -/
def HandleOwner.Counted (o : HandleOwner) : Prop := o.activeCount.toNat = o.activeSlots.length

theorem counted_acquire
    (inv : OwnerInv o free) (hc : o.Counted) (e : o.acquire = .ok (h, o')) : o'.Counted := by
  obtain ⟨hnew, hlt, free', -, inv'⟩ := ownerInv_acquire inv e
  obtain ⟨-, -, hs, -, rfl⟩ := acquire_cases e
  rw [hs] at hnew hlt
  have hlen := Lib.length_filter_flip (p := fun i => (o.slots i).active)
    (q := fun i => ((o.taken h.generation).slots i).active) (nodup_indices o) (mem_indices.mpr hlt)
    (Bool.eq_false_iff.mpr fun ha => hnew ⟨hlt, ha⟩) (by rw [HandleOwner.taken_self])
    fun y _ hy => congrArg _ (update_of_ne hy _ _).symm
  have hle := length_activeSlots_le (o.taken h.generation)
  have hcap : o.capacity.toNat ≤ 65536 := le_iff_toNat_le.mp inv.capacity
  have hone : (o.activeCount + 1).toNat = o.activeCount.toNat + 1 := by
    have hle' : o.activeSlots.length + 1 ≤ o.capacity.toNat := hlen ▸ hle
    have hc' : o.activeCount.toNat = o.activeSlots.length := hc
    rw [toNat_add, toNat_one, Nat.mod_eq_of_lt]
    omega
  show (o.activeCount + 1).toNat = _
  rw [hone, show o.activeCount.toNat = _ from hc]
  exact hlen.symm

theorem counted_release (hc : o.Counted) (e : o.release h = .ok o') : o'.Counted := by
  obtain ⟨hv, rfl⟩ := release_cases e
  obtain ⟨-, -, hact, -⟩ := validate_ok_iff.mp hv
  have hlen := Lib.length_filter_flip (q := fun i => (o.slots i).active)
    (p := fun i => ((o.freed h.slotIndex).slots i).active) (nodup_indices o) (mem_indices.mpr hact.1)
    (by rw [HandleOwner.freed_self]) hact.2 fun y _ hy => congrArg _ (update_of_ne hy _ _)
  have hc' : o.activeCount.toNat = o.activeSlots.length := hc
  have hpos : (1 : UInt64) ≤ o.activeCount := by
    rw [le_iff_toNat_le, hc']
    exact length_pos_of_mem (mem_activeSlots.mpr hact)
  show (o.activeCount - 1).toNat = _
  rw [toNat_sub_of_le _ _ hpos, hc', toNat_one]
  exact Nat.sub_eq_of_eq_add hlen

theorem counted_create
    (e : (HandleOwner.create capacity maxMemoryBytes counter memory).1 = .ok o) : o.Counted := by
  obtain ⟨-, hno⟩ := ownerInv_create e
  obtain ⟨-, -, total, identity, rfl⟩ := create_cases e
  show 0 = _
  refine (length_eq_zero_iff.mpr (eq_nil_iff_forall_not_mem.mpr fun i hi => ?_)).symm
  exact hno i (mem_activeSlots.mp hi)

end Vireo.Timer
