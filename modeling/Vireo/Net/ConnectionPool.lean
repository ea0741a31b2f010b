/-
  File:      Vireo/Net/ConnectionPool.lean
  Subject:   THE CONNECTION POOL (`src/net/connection_pool.c`): the connections of the server, lent out
             under the leases of an object pool.

  What a connection says of itself and what its destruction comes to is passed in.
-/
import Vireo.Base.Pool
import Vireo.Net.Connection

namespace Vireo.Net

open Base Function List

/-! ## 1. The pool as the code computes it -/

/-- `vireo_connection_info_t`, as far as the pool and the server look at it. -/
structure ConnectionInfo where
  readCapacity : Nat
  writeCapacity : Nat
  bufferCapacityBytes : Nat
  loopAttached : Bool
  callbackActive : Bool
  closeState : CloseState

/-- `connection_index_entry_t`: the slot in the storage with the connection in it, its lease and the
    bytes that are counted for it. -/
structure IndexEntry (κ : Type) where
  slot : Option (Option κ)
  lease : Lease
  bufferBytes : Nat

def IndexEntry.empty {κ : Type} : IndexEntry κ := ⟨none, ⟨0, 0, 0⟩, 0⟩

/-- `struct vireo_connection_pool`; `poolId` is that of the storage it was created with, and the index is
    meaningful below the capacity. -/
structure ConnectionPool (κ : Type) where
  storage : ObjectPool
  index : UInt64 → IndexEntry κ
  poolId : UInt64
  capacity : UInt64
  leasedSlots : Nat
  availableSlots : Nat
  bufferCapacityBytes : Nat
  maxBufferBytes : Nat
  lastGeneration : UInt64

/-- `vireo_connection_pool_options_t`. -/
structure ConnectionPoolOptions where
  capacity : UInt64
  maxMemoryBytes : UInt64
  maxBufferBytes : Nat

/-- What a `destroy` of a connection comes to, and whether the owner is empty behind it. -/
structure Destroyed where
  result : Result
  consumed : Bool

namespace ConnectionPool

variable {κ : Type}

/-- `VIREO_CONNECTION_POOL_MAX_CAPACITY`, `VIREO_CONNECTION_POOL_MAX_MEMORY` and
    `VIREO_CONNECTION_POOL_MAX_BUFFER_MEMORY`. -/
def maxCapacity : UInt64 := 65536
def maxMemory : UInt64 := 67108864
def maxBufferMemory : Nat := 67108864

/-- `sizeof(struct vireo_connection_pool)`, `sizeof(connection_index_entry_t)` and
    `sizeof(connection_owner_slot_t)` on LP64. -/
def controlBytes : UInt64 := 272
def entryBytes : UInt64 := 40
def ownerBytes : UInt64 := 8

/-- The pool that `create_impl` publishes. -/
def fresh (storage : ObjectPool) (options : ConnectionPoolOptions) : ConnectionPool κ where
  storage := storage
  index _ := .empty
  poolId := storage.poolId
  capacity := options.capacity
  leasedSlots := 0
  availableSlots := options.capacity.toNat
  bufferCapacityBytes := 0
  maxBufferBytes := options.maxBufferBytes
  lastGeneration := 0

/-- `create_impl` over `vireo_pool_create`: `source` is the counter of identities, and the other three say
    whether the storage, the control block and the index find memory. The storage computes the layout that
    is computed here, and the snapshot of a storage just created is the one that is asked for. -/
def create (options : ConnectionPoolOptions) (source : UInt64) (storageMemory control index : Bool) :
    Except Result (ConnectionPool κ) :=
  if options.capacity = 0 ∨ options.maxMemoryBytes = 0 ∨ options.maxBufferBytes = 0 then
    .error .invalidArgument
  else
    match checkedU64Mul options.capacity entryBytes with
    | .error e => .error e
    | .ok indexBytes =>
      match checkedU64Add controlBytes indexBytes with
      | .error e => .error e
      | .ok containerBytes =>
        if options.capacity > maxCapacity ∨ options.maxMemoryBytes > maxMemory ∨
            options.maxBufferBytes > maxBufferMemory ∨ containerBytes ≥ options.maxMemoryBytes then
          .error .range
        else
          match (ObjectPool.createWithCounters ⟨ownerBytes, ownerBytes, options.capacity,
              options.maxMemoryBytes - containerBytes⟩ source 0 storageMemory).1 with
          | .error e => .error e
          | .ok storage =>
            match checkedU64Add containerBytes storage.allocationBytes with
            | .error _ => .error .internal
            | .ok totalBytes =>
              if totalBytes > options.maxMemoryBytes then .error .internal
              else if control = false ∨ index = false then .error .noMemory
              else .ok (fresh storage options)

theorem create_one : (create ⟨1, 65536, 8⟩ 0 true true true : Except Result (ConnectionPool κ)) =
    .ok (.fresh (.fresh ⟨8, 8, 1, 8, 8⟩ 168 65224 24 1 0) ⟨1, 65536, 8⟩) := rfl

variable (p : ConnectionPool κ)

/-- `find_entry`. -/
def findEntry (lease : Lease) : Except Failure (IndexEntry κ) :=
  if lease.poolId = 0 ∧ lease.slotIndex = 0 ∧ lease.generation = 0 then .error .notFound
  else if lease.poolId = 0 ∨ lease.generation = 0 ∨ lease.poolId ≠ p.poolId then .error .invalidArgument
  else if lease.slotIndex ≥ p.capacity then .error .range
  else
    let entry := p.index lease.slotIndex
    if entry.slot.isNone ∨ entry.lease.generation ≠ lease.generation then .error .notFound
    else if entry.lease.poolId ≠ lease.poolId ∨ entry.lease.slotIndex ≠ lease.slotIndex ∨
        entry.slot.join.isNone ∨ entry.bufferBytes = 0 ∨ p.leasedSlots = 0 ∨
        entry.bufferBytes > p.bufferCapacityBytes then .error .internal
    else .ok entry

/-- `vireo_connection_pool_lookup`. -/
def lookup (lease : Lease) : Except Failure κ :=
  match p.findEntry lease with
  | .error e => .error e
  | .ok entry =>
    match entry.slot.join with
    | none => .error .internal
    | some connection => .ok connection

/-- `vireo_connection_pool_adopt`; `inspect` is what the connection says of itself, `transport` what
    `inspect_transport` comes to. -/
def adopt (owner : κ) (inspect : Except Failure ConnectionInfo) (transport : Except Failure Unit) :
    Except Result Lease × ConnectionPool κ :=
  match inspect, transport with
  | .error e, _ => (.error e.val, p)
  | .ok _, .error e => (.error e.val, p)
  | .ok info, .ok _ =>
    match checkedSizeAdd info.readCapacity info.writeCapacity with
    | .error e => (.error e, p)
    | .ok bufferBytes =>
      if info.readCapacity = 0 ∨ info.writeCapacity = 0 ∨ bufferBytes ≠ info.bufferCapacityBytes then
        (.error .internal, p)
      else if info.loopAttached ∨ info.callbackActive ∨ info.closeState ≠ .open then (.error .busy, p)
      else
        match checkedSizeAdd p.bufferCapacityBytes bufferBytes with
        | .error e => (.error e, p)
        | .ok totalBufferBytes =>
          if bufferBytes > p.maxBufferBytes then (.error .range, p)
          else if totalBufferBytes > p.maxBufferBytes then (.error .busy, p)
          else
            match p.storage.acquire with
            | (.error e, storage) => (.error e, { p with storage := storage })
            | (.ok (lease, _), storage) =>
              let p := { p with storage := storage, lastGeneration := lease.generation }
              if lease.poolId ≠ p.poolId ∨ lease.slotIndex ≥ p.capacity ∨ lease.generation = 0 then
                (.error .internal, p)
              else if (p.index lease.slotIndex).slot.isSome then
                (.error .internal, { p with storage := (storage.release lease).2.2 })
              else
                (.ok lease, { p with
                  index := update p.index lease.slotIndex ⟨some (some owner), lease, bufferBytes⟩
                  leasedSlots := p.leasedSlots + 1
                  availableSlots := p.availableSlots - 1
                  bufferCapacityBytes := totalBufferBytes })

/-- `vireo_connection_pool_release`: the result, the caller's lease and the pool behind it. -/
def release (lease : Lease) (destroy : Destroyed) :
    Result × Lease × ConnectionPool κ :=
  match p.findEntry lease with
  | .error e => (e.val, lease, p)
  | .ok entry =>
    if destroy.result ≠ .ok ∧ destroy.result ≠ .io then (destroy.result, lease, p)
    else if destroy.consumed = false then (.internal, lease, p)
    else
      let p := { p with
        index := update p.index lease.slotIndex { entry with slot := some none } }
      let released := p.storage.release entry.lease
      let p := { p with storage := released.2.2 }
      if released.1 ≠ .ok then (.internal, lease, p)
      else
        (destroy.result, ⟨0, 0, 0⟩, { p with
          index := update p.index lease.slotIndex .empty
          leasedSlots := p.leasedSlots - 1
          availableSlots := p.availableSlots + 1
          bufferCapacityBytes := p.bufferCapacityBytes - entry.bufferBytes })

end ConnectionPool

/-! ## 2. The invariant -/

/-- A connection that is lent out. -/
structure Lent (κ : Type) where
  lease : Lease
  owner : κ
  bufferBytes : Nat

/-- What the pool keeps, with what it has lent out, the leases it ever issued and the free slots of its
    storage. -/
structure ConnectionPoolInv {κ : Type} (p : ConnectionPool κ) (lent : List (Lent κ)) (issued : List Lease)
    (free : List UInt64) : Prop where
  storage : PoolInv p.storage (lent.map (·.lease)) issued free
  poolId : p.poolId = p.storage.poolId
  capacity : p.capacity = p.storage.layout.capacity
  generation : p.lastGeneration = p.storage.lastGeneration
  leased : p.leasedSlots = lent.length
  available : p.availableSlots + lent.length = p.capacity.toNat
  buffers : p.bufferCapacityBytes = (lent.map (·.bufferBytes)).sum
  within : p.bufferCapacityBytes ≤ p.maxBufferBytes
  entry : ∀ l ∈ lent, p.index l.lease.slotIndex = ⟨some (some l.owner), l.lease, l.bufferBytes⟩
  positive : ∀ l ∈ lent, 0 < l.bufferBytes
  empty : ∀ i, i < p.capacity → (p.storage.slots i).inUse = false → p.index i = .empty

section Pool

variable {κ : Type} {p : ConnectionPool κ} {lent : List (Lent κ)} {issued : List Lease} {free : List UInt64}
  {lease : Lease} {l : Lent κ} {storage storage' : ObjectPool} {before after : List (Lent κ)} {object : UInt64}

theorem storage_fresh {options : PoolOptions} {source initialGeneration : UInt64} {memory : Bool}
    {storage : ObjectPool}
    (h : (ObjectPool.createWithCounters options source initialGeneration memory).1 = .ok storage) :
    (∃ free, PoolInv storage [] [] free) ∧ storage.layout.capacity = options.capacity ∧
      storage.lastGeneration = initialGeneration := by
  refine ⟨(create_ok (Prod.ext h rfl)).1, ?_⟩
  unfold ObjectPool.createWithCounters at h
  split at h
  · cases h
  split at h
  · cases h
  rename_i layout hlayout
  have hcapacity : layout.capacity = options.capacity := by
    unfold PoolLayout.compute at hlayout
    split at hlayout
    · cases hlayout
    split at hlayout
    · cases hlayout
    split at hlayout
    · cases hlayout
    split at hlayout
    · cases hlayout
    · cases hlayout
      rfl
  split at h
  · cases h
  split at h
  · cases h
  split at h
  · cases h
  split at h
  · cases h
  split at h
  · cases h
  split at h
  · cases h
  · cases h
    exact ⟨hcapacity, rfl⟩

theorem connectionPoolInv_create {options : ConnectionPoolOptions} {source : UInt64}
    {storageMemory control index : Bool}
    (h : ConnectionPool.create options source storageMemory control index = .ok p) :
    ∃ free, ConnectionPoolInv p [] [] free := by
  unfold ConnectionPool.create at h
  split at h
  · cases h
  split at h
  · cases h
  split at h
  · cases h
  split at h
  · cases h
  split at h
  · cases h
  rename_i storage hstorage
  split at h
  · cases h
  split at h
  · cases h
  split at h
  · cases h
  cases h
  obtain ⟨⟨free, hinv⟩, hcapacity, hgeneration⟩ := storage_fresh hstorage
  exact ⟨free, hinv, rfl, hcapacity.symm, hgeneration.symm, rfl, Nat.add_zero _, rfl,
    Nat.zero_le _, fun l hl => (not_mem_nil hl).elim,
    fun l hl => (not_mem_nil hl).elim, fun _ _ _ => rfl⟩

theorem ConnectionPoolInv.eq_of_lease (inv : ConnectionPoolInv p lent issued free) {l m : Lent κ}
    (hl : l ∈ lent) (hm : m ∈ lent) (h : l.lease = m.lease) : l = m := by
  have el := inv.entry l hl
  rw [h, inv.entry m hm] at el
  obtain ⟨lease, owner, bytes⟩ := l
  obtain ⟨lease', owner', bytes'⟩ := m
  obtain rfl : lease = lease' := h
  simp only [IndexEntry.mk.injEq, Option.some.injEq, true_and] at el
  rw [el.1, el.2]

theorem bufferBytes_le (hl : l ∈ lent) : l.bufferBytes ≤ (lent.map (·.bufferBytes)).sum := by
  obtain ⟨before, after, rfl⟩ := append_of_mem hl
  rw [map_append, map_cons, sum_append, sum_cons]
  omega

section

variable (inv : ConnectionPoolInv p lent issued free)
include inv

/-- **A lease finds its connection while it is lent**; any other lease that is well formed is not found. -/
theorem findEntry_cases (lease : Lease) : (∃ l ∈ lent, l.lease = lease ∧
        p.findEntry lease = .ok ⟨some (some l.owner), l.lease, l.bufferBytes⟩) ∨
      (lease ∉ lent.map (·.lease) ∧ ∃ e, p.findEntry lease = .error e ∧
        (lease.poolId = p.poolId → lease.generation ≠ 0 → lease.slotIndex < p.capacity → e = .notFound)) := by
  have hpool : p.poolId ≠ 0 := inv.poolId ▸ inv.storage.identity
  unfold ConnectionPool.findEntry
  by_cases hlent : lease ∈ lent.map (·.lease)
  · obtain ⟨l, hl, rfl⟩ := mem_map.mp hlent
    have current := (inv.storage.current l.lease).mp hlent
    have hid : l.lease.poolId = p.poolId := current.identity.trans inv.poolId.symm
    have hgen : l.lease.generation ≠ 0 := current.generation ▸ inv.storage.positive _ current.inUse
    have hindex : ¬ l.lease.slotIndex ≥ p.capacity := by
      rw [inv.capacity]
      exact UInt64.not_le.mpr current.index
    have hbytes : l.bufferBytes ≤ p.bufferCapacityBytes := by
      rw [inv.buffers]
      exact bufferBytes_le hl
    have hleased : p.leasedSlots ≠ 0 := by
      rw [inv.leased]
      exact Nat.ne_of_gt (length_pos_of_mem hl)
    have hpos := inv.positive l hl
    refine .inl ⟨l, hl, rfl, ?_⟩
    rw [if_neg (fun h => hgen h.2.2), if_neg (by rw [hid]; simp [hpool, hgen]), if_neg hindex]
    dsimp only
    rw [inv.entry l hl, if_neg (by simp), if_neg]
    simp only [ne_eq, not_true_eq_false, Option.join_some, Option.isNone_some, Bool.false_eq_true, false_or,
      not_or]
    omega
  · refine .inr ⟨hlent, ?_⟩
    split
    · exact ⟨_, rfl, fun _ hgen _ => rfl⟩
    split
    · rename_i hbad
      refine ⟨_, rfl, fun hid hgen _ => ?_⟩
      rw [hid] at hbad
      simp [hpool, hgen] at hbad
    · rename_i hshape
      split
      · rename_i hrange
        exact ⟨_, rfl, fun _ _ hindex => absurd hrange (UInt64.not_le.mpr hindex)⟩
      · rename_i hindex
        have hid : lease.poolId = p.poolId := by
          by_contra hne
          exact hshape (.inr (.inr hne))
        dsimp only
        rw [if_pos]
        · exact ⟨_, rfl, fun _ _ _ => rfl⟩
        -- the slot is free, or another lease has it
        have hlt := UInt64.not_le.mp hindex
        cases huse : (p.storage.slots lease.slotIndex).inUse with
        | false =>
          rw [inv.empty _ hlt huse]
          exact .inl rfl
        | true =>
          refine .inr fun hgen => hlent ?_
          let holder : Lease := ⟨p.storage.poolId, lease.slotIndex,
            (p.storage.slots lease.slotIndex).generation⟩
          have hholder : holder ∈ lent.map (·.lease) :=
            (inv.storage.current holder).mpr ⟨rfl, inv.capacity ▸ hlt, huse, rfl⟩
          obtain ⟨l, hl, hlease⟩ := mem_map.mp hholder
          have hentry := inv.entry l hl
          have hslot : l.lease.slotIndex = lease.slotIndex := by rw [hlease]
          rw [hslot] at hentry
          rw [hentry] at hgen
          have heq : l.lease = lease := by
            have hlid : l.lease.poolId = lease.poolId := by
              rw [hlease]
              exact inv.poolId.symm.trans hid.symm
            have hlgen : l.lease.generation = lease.generation := hgen
            cases hl' : l.lease
            cases lease
            simp_all
          exact heq ▸ mem_map_of_mem hl

theorem lookup_eq_ok_iff {connection : κ} :
    p.lookup lease = .ok connection ↔ ∃ l ∈ lent, l.lease = lease ∧ l.owner = connection := by
  unfold ConnectionPool.lookup
  rcases findEntry_cases inv lease with found | missing
  · obtain ⟨l, hl, hlease, heq⟩ := found
    rw [heq]
    constructor
    · intro h
      cases h
      exact ⟨l, hl, hlease, rfl⟩
    · intro ⟨m, hm, hmlease, howner⟩
      rw [inv.eq_of_lease hl hm (hlease.trans hmlease.symm), ← howner]
      rfl
  · obtain ⟨hno, e, heq, -⟩ := missing
    rw [heq]
    constructor
    · nofun
    · intro ⟨m, hm, hmlease, _⟩
      exact absurd (mem_map.mpr ⟨m, hm, hmlease⟩) hno

theorem lookup_stale (hpool : lease.poolId = p.poolId)
    (hgeneration : lease.generation ≠ 0) (hindex : lease.slotIndex < p.capacity)
    (hstale : lease ∉ lent.map (·.lease)) : p.lookup lease = .error .notFound := by
  unfold ConnectionPool.lookup
  rcases findEntry_cases inv lease with found | missing
  · obtain ⟨l, hl, hlease, -⟩ := found
    exact absurd (mem_map.mpr ⟨l, hl, hlease⟩) hstale
  · obtain ⟨-, e, heq, hwhy⟩ := missing
    rw [heq, hwhy hpool hgeneration hindex]

end

/-! ## 3. Adopting and releasing -/

theorem acquire_slot {outstanding : List Lease} (inv : PoolInv storage outstanding issued free)
    (h : storage.acquire = (.ok (lease, object), storage')) :
    lease.slotIndex < storage.layout.capacity ∧ (storage.slots lease.slotIndex).inUse = false ∧
      ∀ i, i ≠ lease.slotIndex → storage'.slots i = storage.slots i := by
  obtain ⟨hne, -, hslot, -, -, rfl⟩ := acquire_ok h
  obtain ⟨free', rfl⟩ := inv.list.chain.of_ne hne
  obtain ⟨hlt, hfree⟩ := (inv.list.mem _).mp mem_cons_self
  rw [hslot]
  exact ⟨hlt, hfree, fun i hi => update_of_ne hi _ _⟩

/-- **A connection that is adopted comes under a lease that was never issued before.** -/
theorem connectionPoolInv_adopt (inv : ConnectionPoolInv p lent issued free) {storage : ObjectPool}
    (h : p.storage.acquire = (.ok (lease, object), storage)) (owner : κ) {bufferBytes : Nat}
    (hpos : 0 < bufferBytes) (hwithin : p.bufferCapacityBytes + bufferBytes ≤ p.maxBufferBytes) :
    ∃ free', ConnectionPoolInv { p with
        storage := storage
        lastGeneration := lease.generation
        index := update p.index lease.slotIndex ⟨some (some owner), lease, bufferBytes⟩
        leasedSlots := p.leasedSlots + 1
        availableSlots := p.availableSlots - 1
        bufferCapacityBytes := p.bufferCapacityBytes + bufferBytes }
      (⟨lease, owner, bufferBytes⟩ :: lent) (lease :: issued) free' := by
  obtain ⟨-, hfree, hframe⟩ := acquire_slot inv.storage h
  have hstorage := (acquire_ok h).2.2.2.2.2
  obtain ⟨free', hinv⟩ := poolInv_acquire inv.storage h
  have hother : ∀ l ∈ lent, l.lease.slotIndex ≠ lease.slotIndex := by
    intro l hl heq
    have hin := ((inv.storage.current l.lease).mp (mem_map_of_mem hl)).inUse
    rw [heq, hfree] at hin
    cases hin
  have hcapacity : storage.layout.capacity = p.storage.layout.capacity := by rw [hstorage]
  have hroom := hinv.room
  rw [length_cons, length_map, hcapacity, ← inv.capacity] at hroom
  have havailable := inv.available
  refine ⟨free', hinv, ?_, ?_, ?_, congrArg (· + 1) inv.leased, ?_, ?_, hwithin, forall_mem_cons.mpr
    ⟨update_self .., fun l hl => ?_⟩, forall_mem_cons.mpr ⟨hpos, inv.positive⟩, fun i hi hunused => ?_⟩
  · rw [hstorage]
    exact inv.poolId
  · exact inv.capacity.trans hcapacity.symm
  · rw [hstorage]
  · show p.availableSlots - 1 + (lent.length + 1) = p.capacity.toNat
    omega
  · show p.bufferCapacityBytes + bufferBytes = ((lent.map (·.bufferBytes)).cons bufferBytes).sum
    rw [sum_cons, inv.buffers, Nat.add_comm]
  · show update p.index lease.slotIndex _ l.lease.slotIndex = _
    rw [update_of_ne (hother l hl), inv.entry l hl]
  · show update p.index lease.slotIndex _ i = _
    have hne : i ≠ lease.slotIndex := by
      intro heq
      have hnew := ((hinv.current lease).mp (mem_cons_self ..)).inUse
      rw [heq, hnew] at hunused
      cases hunused
    rw [update_of_ne hne]
    refine inv.empty i hi ?_
    rw [← hframe i hne]
    exact hunused

/-- What an adopt comes to: the connection stays with the caller, or it is the pool's, open and not attached.
    -/
inductive Adopted (p : ConnectionPool κ) (lent : List (Lent κ)) (issued : List Lease) (owner : κ)
    (inspect : Except Failure ConnectionInfo) : Except Result Lease × ConnectionPool κ → Prop
  | refused {e : Result} (why : e ≠ .ok) : Adopted p lent issued owner inspect (.error e, p)
  | taken {lease : Lease} {p' : ConnectionPool κ} {info : ConnectionInfo} {free' : List UInt64}
      (told : inspect = .ok info) (idle : info.loopAttached = false) (opened : info.closeState = .open)
      (new : lease ∉ issued) (shape : lease.poolId = p.poolId ∧ lease.generation ≠ 0 ∧
        lease.slotIndex < p.capacity)
      (same : p'.poolId = p.poolId ∧ p'.capacity = p.capacity)
      (inv : ConnectionPoolInv p' (⟨lease, owner, info.bufferCapacityBytes⟩ :: lent) (lease :: issued) free') :
      Adopted p lent issued owner inspect (.ok lease, p')

theorem acquire_error_ne {e : Result} (h : storage.acquire = (.error e, storage')) : e ≠ .ok := by
  unfold ObjectPool.acquire at h
  split at h
  · rename_i hadd
    cases (Prod.mk.inj h).1
    exact (checkedU64Add_error hadd).1 ▸ Result.overflow_ne_ok
  · split at h
    · cases (Prod.mk.inj h).1
      simp
    · dsimp only at h
      split at h
      · rename_i hmul
        cases (Prod.mk.inj h).1
        exact (checkedU64Mul_error hmul).1 ▸ Result.overflow_ne_ok
      · cases (Prod.mk.inj h).1

theorem adopt_cases (inv : ConnectionPoolInv p lent issued free) (owner : κ)
    (inspect : Except Failure ConnectionInfo) (transport : Except Failure Unit) :
    Adopted p lent issued owner inspect (p.adopt owner inspect transport) := by
  unfold ConnectionPool.adopt
  cases hinspect : inspect with
  | error e => exact .refused e.property
  | ok info =>
    cases transport with
    | error e => exact .refused e.property
    | ok _ =>
      dsimp only
      split
      · rename_i hadd
        exact .refused (by rw [checkedSizeAdd_ne_ok hadd]; simp)
      · rename_i bufferBytes hbytes
        split
        · exact .refused (by simp)
        rename_i hsizes
        split
        · exact .refused (by simp)
        rename_i hidle
        split
        · rename_i hadd
          exact .refused (by rw [checkedSizeAdd_ne_ok hadd]; simp)
        · rename_i total htotal
          split
          · exact .refused (by simp)
          split
          · exact .refused (by simp)
          rename_i hwithin
          split
          · rename_i e storage hacquire
            have hsame := acquire_error hacquire
            rw [hsame]
            exact .refused (acquire_error_ne hacquire)
          · rename_i lease object storage hacquire
            -- the storage hands out a free slot of its own
            simp only [not_or, ne_eq, not_not] at hsizes hidle
            have hsum := checkedSizeAdd_ok hbytes
            have htot := checkedSizeAdd_ok htotal
            have hpos : 0 < bufferBytes := by
              have := hsizes.1
              omega
            obtain ⟨hlt, hfree, -⟩ := acquire_slot inv.storage hacquire
            obtain ⟨free', hinv⟩ := connectionPoolInv_adopt inv hacquire owner hpos
              (by rw [← htot]; exact Nat.not_lt.mp hwithin)
            obtain ⟨-, hid, -, hgen, -, -⟩ := acquire_ok hacquire
            have hgeneration : lease.generation ≠ 0 := by
              intro hzero
              rw [hzero, UInt64.toNat_zero] at hgen
              omega
            have hlt' : lease.slotIndex < p.capacity := by
              rw [inv.capacity]
              exact hlt
            have hid' : lease.poolId = p.poolId := hid.trans inv.poolId.symm
            have hindex : p.index lease.slotIndex = .empty := inv.empty _ hlt' hfree
            have hnew : lease ∉ issued := by
              intro hmem
              have hle := inv.storage.issued lease hmem
              omega
            rw [if_neg, if_neg]
            · rw [htot]
              rw [hsizes.2.2] at hinv
              rw [hsizes.2.2]
              exact .taken rfl (by simpa using hidle.1) (by simpa using hidle.2.2) hnew
                ⟨hid', hgeneration, hlt'⟩ ⟨rfl, rfl⟩ hinv
            · rw [hindex]
              simp [IndexEntry.empty]
            · simp only [hid', hgeneration, ne_eq, not_true_eq_false, false_or, or_false]
              exact UInt64.not_le.mpr hlt'

theorem erase_lease (hnodup : ((before ++ l :: after).map (·.lease)).Nodup) :
    ((before ++ l :: after).map (·.lease)).erase l.lease = (before ++ after).map (·.lease) := by
  rw [map_append, map_cons] at hnodup ⊢
  have hbefore : l.lease ∉ before.map (·.lease) := fun hmem =>
    (nodup_append.mp hnodup).2.2 _ hmem _ (mem_cons_self ..) rfl
  rw [erase_append_right _ hbefore, erase_cons_head, map_append]

/-- **A connection that is released leaves its lease behind**: the slot is free, the lease is lent no
    more. -/
theorem connectionPoolInv_release (inv : ConnectionPoolInv p (before ++ l :: after) issued free)
    {released : ObjectPool} (h : p.storage.release l.lease = (.ok, ⟨0, 0, 0⟩, released)) :
    ∃ free', ConnectionPoolInv { p with
        storage := released
        index := update p.index l.lease.slotIndex .empty
        leasedSlots := p.leasedSlots - 1
        availableSlots := p.availableSlots + 1
        bufferCapacityBytes := p.bufferCapacityBytes - l.bufferBytes } (before ++ after) issued free' := by
  obtain ⟨free', hinv⟩ := poolInv_release inv.storage h
  rw [erase_lease inv.storage.nodup] at hinv
  have hmem : ∀ m ∈ before ++ after, m ∈ before ++ l :: after :=
    fun _ hm => ((sublist_cons_self l after).append_left before).subset hm
  have hl : l ∈ before ++ l :: after := mem_append_right _ (mem_cons_self ..)
  have hstorage : released = { p.storage with
      slots := update p.storage.slots l.lease.slotIndex
        { p.storage.slots l.lease.slotIndex with inUse := false, nextFree := p.storage.freeHead }
      freeHead := l.lease.slotIndex
      inUseCount := p.storage.inUseCount - 1 } := by
    rcases Base.release_cases (l := l.lease) inv.storage with current | stale
    · rw [current.2] at h
      exact (Prod.mk.inj (Prod.mk.inj h).2).2.symm
    · exact absurd ((inv.storage.current _).mp (mem_map_of_mem hl)) stale.1
  have hother : ∀ m ∈ before ++ after, m.lease.slotIndex ≠ l.lease.slotIndex := by
    intro m hm heq
    have hin := ((hinv.current m.lease).mp (mem_map_of_mem hm)).inUse
    rw [heq, hstorage] at hin
    dsimp only at hin
    rw [update_self] at hin
    cases hin
  have hbytes := inv.buffers
  rw [map_append, map_cons, sum_append, sum_cons] at hbytes
  have hleased := inv.leased
  have havailable := inv.available
  rw [length_append, length_cons] at hleased havailable
  have hwithin := inv.within
  refine ⟨free', hinv, ?_, ?_, ?_, ?_, ?_, ?_, ?_, fun m hm => ?_, fun m hm => inv.positive m (hmem m hm),
    fun i hi hunused => ?_⟩
  · rw [hstorage]
    exact inv.poolId
  · rw [hstorage]
    exact inv.capacity
  · rw [hstorage]
    exact inv.generation
  · show p.leasedSlots - 1 = (before ++ after).length
    rw [length_append]
    omega
  · show p.availableSlots + 1 + (before ++ after).length = p.capacity.toNat
    rw [length_append]
    omega
  · show p.bufferCapacityBytes - l.bufferBytes = ((before ++ after).map (·.bufferBytes)).sum
    rw [map_append, sum_append]
    omega
  · show p.bufferCapacityBytes - l.bufferBytes ≤ p.maxBufferBytes
    omega
  · show update p.index l.lease.slotIndex .empty m.lease.slotIndex = _
    rw [update_of_ne (hother m hm), inv.entry m (hmem m hm)]
  · show update p.index l.lease.slotIndex .empty i = .empty
    by_cases heq : i = l.lease.slotIndex
    · rw [heq, update_self]
    rw [update_of_ne heq]
    refine inv.empty i hi ?_
    rw [hstorage] at hunused
    dsimp only at hunused
    rwa [update_of_ne heq] at hunused

/-- What a release comes to: the pool keeps its connection, or the connection is gone and its lease with
    it. -/
inductive Returned (p : ConnectionPool κ) (lent : List (Lent κ)) (issued : List Lease) (lease : Lease)
    (destroy : Destroyed) : Result × Lease × ConnectionPool κ → Prop
  | kept {e : Result} (failed : e ≠ .ok ∧ e ≠ .io)
      (why : lease ∈ lent.map (·.lease) → (destroy.result = .ok ∨ destroy.result = .io) →
        destroy.consumed = false) :
      Returned p lent issued lease destroy (e, lease, p)
  | gone {l : Lent κ} {before after : List (Lent κ)} {p' : ConnectionPool κ} {free' : List UInt64}
      (split : lent = before ++ l :: after) (held : l.lease = lease)
      (told : destroy.result = .ok ∨ destroy.result = .io)
      (same : p'.poolId = p.poolId ∧ p'.capacity = p.capacity) (consumed : destroy.consumed = true)
      (inv : ConnectionPoolInv p' (before ++ after) issued free') :
      Returned p lent issued lease destroy (destroy.result, ⟨0, 0, 0⟩, p')

theorem findEntry_error_ne_io {e : Failure} (h : p.findEntry lease = .error e) : e.val ≠ .io := by
  unfold ConnectionPool.findEntry at h
  split at h
  · cases h
    simp [Failure.notFound]
  · split at h
    · cases h
      simp [Failure.invalidArgument]
    · split at h
      · cases h
        simp [Failure.range]
      · dsimp only at h
        split at h
        · cases h
          simp [Failure.notFound]
        · split at h
          · cases h
            simp [Failure.internal]
          · cases h

theorem release_returned (inv : ConnectionPoolInv p lent issued free) (lease : Lease) (destroy : Destroyed) :
    Returned p lent issued lease destroy (p.release lease destroy) := by
  unfold ConnectionPool.release
  cases findEntry_cases inv lease with
  | inr missing =>
    obtain ⟨hno, e, heq, -⟩ := missing
    rw [heq]
    exact .kept ⟨e.property, findEntry_error_ne_io heq⟩ fun hmem => absurd hmem hno
  | inl found =>
    obtain ⟨l, hl, rfl, heq⟩ := found
    rw [heq]
    dsimp only
    by_cases hfailed : destroy.result ≠ .ok ∧ destroy.result ≠ .io
    · rw [if_pos hfailed]
      exact .kept hfailed fun _ hdone => absurd hdone (not_or.mpr hfailed)
    · rw [if_neg hfailed]
      by_cases hconsumed : destroy.consumed = false
      · rw [if_pos hconsumed]
        exact .kept (by simp) fun _ _ => hconsumed
      · rw [if_neg hconsumed]
        obtain ⟨before, after, hsplit⟩ := append_of_mem hl
        have hcurrent := (inv.storage.current _).mp (mem_map_of_mem hl)
        cases Base.release_cases (l := l.lease) inv.storage with
        | inr stale => exact absurd hcurrent stale.1
        | inl current =>
          rw [hsplit] at inv
          obtain ⟨free', hinv⟩ := connectionPoolInv_release inv current.2
          rw [current.2, if_neg (by simp), update_idem]
          refine .gone hsplit rfl ?_ ⟨rfl, rfl⟩ (by simpa using hconsumed) hinv
          by_contra hno
          exact hfailed (not_or.mp hno)

end Pool

end Vireo.Net
