/-
  File:      Vireo/Net/Clients.lean
  Subject:   THE CLIENTS OF THE SERVER (`src/net/tcp_server.c`): who has a lease, from its admission to
             its release.

  The queue of the server and the flags of its entries in progress are left out: an entry that finds
  another in progress does nothing. What the loop says to an attach and a detach is passed in, and so is
  whether a close of a descriptor fails.
-/
import Vireo.Net.ConnectionPool

namespace Vireo.Net

open Base Function List

/-! ## 1. The table -/

/-- `client_slot_t`. -/
structure ClientSlot where
  lease : Lease
  bufferBytes : Nat
  live : Bool
  bound : Bool
deriving DecidableEq

def ClientSlot.empty : ClientSlot := ⟨⟨0, 0, 0⟩, 0, false, false⟩

/-- `struct vireo_tcp_server`, as far as its clients go; `connections` is what each connection says of
    itself. -/
structure ClientTable (κ : Type) where
  pool : ConnectionPool κ
  connections : κ → ConnectionInfo
  clients : UInt64 → ClientSlot
  connectionCapacity : UInt64
  maxBufferBytes : Nat
  clientCount : Nat
  registeredClients : Nat
  bufferBytes : Nat
  stopRequested : Bool

/-- `lease_empty`. -/
def leaseEmpty (l : Lease) : Bool := l.poolId = 0 && l.slotIndex = 0 && l.generation = 0

/-- `vireo_connection_destroy` on a connection that says this of itself. -/
def destroyConnection (info : ConnectionInfo) (closeFails : Bool) : Destroyed :=
  if info.loopAttached ∨ info.callbackActive then ⟨.busy, false⟩
  else ⟨if closeFails then .io else .ok, true⟩

namespace ClientTable

variable {κ : Type}

variable (t : ClientTable κ)

/-- `find_client`. -/
def findClient (lease : Lease) : Except Failure κ :=
  match t.pool.lookup lease with
  | .error e => .error e
  | .ok connection =>
    if lease.slotIndex ≥ t.connectionCapacity then .error .internal
    else
      let slot := t.clients lease.slotIndex
      if slot.live ∧ slot.lease = lease then .ok connection else .error .internal

/-- `vireo_tcp_server_client_inspect`, of which the close state is used. -/
def clientInspect (lease : Lease) : Except Failure CloseState :=
  match t.findClient lease with
  | .error e => .error e
  | .ok connection =>
    let info := t.connections connection
    let slot := t.clients lease.slotIndex
    if info.loopAttached ≠ slot.bound ∨ info.bufferCapacityBytes ≠ slot.bufferBytes then .error .internal
    else .ok info.closeState

variable [DecidableEq κ]

variable (connection : κ)

/-- `clean_pending` of a client that has a lease, and the slot behind it. The slot is reset also where the
    code has none yet: after an adoption that succeeded those branches are never taken. -/
def cleanPending (lease : Lease) (closeFails : Bool) : ClientTable κ :=
  let released := t.pool.release lease (destroyConnection (t.connections connection) closeFails)
  let t := { t with pool := released.2.2 }
  if leaseEmpty released.2.1 then { t with clients := update t.clients lease.slotIndex .empty } else t

/-- `admit_clients` for one accepted connection: it is created, adopted, attached to the loop and published.
    The bounds of the options themselves (`VIREO_BUFFER_MAX_CAPACITY`, their `max_buffer_bytes`) are not
    checked: the table admits all that the code admits, and more. -/
def admitClients (readCapacity writeCapacity : Nat) (attach : Result) (closeFails : Bool) :
    Result × Option Lease × ClientTable κ :=
  match checkedSizeAdd readCapacity writeCapacity with
  | .error e => (e, none, t)
  | .ok pairBytes =>
    if readCapacity = 0 ∨ writeCapacity = 0 ∨ pairBytes > t.maxBufferBytes then (.range, none, t)
    else if t.clientCount = t.connectionCapacity.toNat then (.ok, none, t)
    else if pairBytes > t.maxBufferBytes - t.bufferBytes then (.ok, none, t)
    else
      let created : ConnectionInfo := ⟨readCapacity, writeCapacity, pairBytes, false, false, .open⟩
      let t := { t with connections := update t.connections connection created }
      match t.pool.adopt connection (.ok (t.connections connection)) (.ok ()) with
      | (.error e, pool) => (e, none, { t with pool := pool })
      | (.ok lease, pool) =>
        let t := { t with pool := pool }
        if lease.slotIndex ≥ t.connectionCapacity ∨ leaseEmpty lease then
          (.internal, none, t.cleanPending connection lease closeFails)
        else
          match t.pool.lookup lease with
          | .error e => (e.val, none, t.cleanPending connection lease closeFails)
          | .ok _ =>
            if (t.clients lease.slotIndex).live then
              (.internal, none, t.cleanPending connection lease closeFails)
            else
              let slot : ClientSlot := ⟨lease, pairBytes, false, false⟩
              let t := { t with clients := update t.clients lease.slotIndex slot }
              if attach ≠ .ok then (attach, none, t.cleanPending connection lease closeFails)
              else
                (.ok, some lease, { t with
                  connections := update t.connections connection
                    { t.connections connection with loopAttached := true }
                  clients := update t.clients lease.slotIndex ⟨lease, pairBytes, true, true⟩
                  clientCount := t.clientCount + 1
                  registeredClients := t.registeredClients + 1
                  bufferBytes := t.bufferBytes + pairBytes })

/-- The detach of `release_client`. -/
def detach (lease : Lease) : ClientTable κ :=
  { t with
    connections := update t.connections connection
      { t.connections connection with loopAttached := false }
    clients := update t.clients lease.slotIndex { t.clients lease.slotIndex with bound := false }
    registeredClients := t.registeredClients - 1 }

/-- The end of `release_client`, behind the detach. -/
def giveUp (lease : Lease) (closeFails : Bool) :
    Result × ClientTable κ :=
  let slot := t.clients lease.slotIndex
  let released := t.pool.release lease (destroyConnection (t.connections connection) closeFails)
  let t := { t with pool := released.2.2 }
  if released.1 = .ok ∨ released.1 = .io then
    if leaseEmpty released.2.1 = false then (.internal, t)
    else
      (released.1, { t with
        clients := update t.clients lease.slotIndex .empty
        clientCount := t.clientCount - 1
        bufferBytes := t.bufferBytes - slot.bufferBytes })
  else (released.1, t)

/-- `release_client`; `detached` is what the loop says to the detach. -/
def releaseClient (lease : Lease) (detached : Result) (closeFails : Bool) :
    Result × ClientTable κ :=
  match t.findClient lease with
  | .error e => (e.val, t)
  | .ok connection =>
    if (t.connections connection).callbackActive then (.busy, t)
    else if (t.clients lease.slotIndex).bound then
      if detached ≠ .ok then (detached, t) else (t.detach connection lease).giveUp connection lease closeFails
    else t.giveUp connection lease closeFails

/-- As `create_with_dependencies` publishes it over its pool, which it created with its own options. -/
def opened (pool : ConnectionPool κ) : ClientTable κ where
  pool := pool
  connections _ := ⟨0, 0, 0, false, false, .open⟩
  clients _ := .empty
  connectionCapacity := pool.capacity
  maxBufferBytes := pool.maxBufferBytes
  clientCount := 0
  registeredClients := 0
  bufferBytes := 0
  stopRequested := false

/-- `vireo_tcp_server_request_stop`. -/
def requestStop : ClientTable κ := { t with stopRequested := true }

/-- A connection goes on: its close state, and whether it is in its callback. -/
def proceed (closeState : CloseState) (callbackActive : Bool) :
    ClientTable κ :=
  let info := { t.connections connection with closeState := closeState, callbackActive := callbackActive }
  { t with connections := update t.connections connection info }

end ClientTable

/-! ## 2. The invariant -/

/-- A client that is lent out is live in its slot, which says what its connection says; no other slot is live. -/
structure ClientSlotsInv {κ : Type} (t : ClientTable κ) (lent : List (Lent κ)) (issued : List Lease) :
    Prop where
  capacity : t.pool.capacity = t.connectionCapacity
  live : ∀ l ∈ lent, (t.clients l.lease.slotIndex).live = true ∧ (t.clients l.lease.slotIndex).lease = l.lease
  attached : ∀ l ∈ lent, (t.connections l.owner).loopAttached = (t.clients l.lease.slotIndex).bound
  bytes : ∀ l ∈ lent, (t.connections l.owner).bufferCapacityBytes = (t.clients l.lease.slotIndex).bufferBytes
  owners : (lent.map (·.owner)).Nodup
  shape : ∀ l ∈ issued, l.poolId = t.pool.poolId ∧ l.generation ≠ 0 ∧ l.slotIndex < t.pool.capacity
  idle : ∀ i, i < t.connectionCapacity → (∀ l ∈ lent, l.lease.slotIndex ≠ i) → (t.clients i).live = false

/-- What the table keeps: the pool is in order, and the slots agree with it. -/
structure ClientTableInv {κ : Type} (t : ClientTable κ) (lent : List (Lent κ)) (issued : List Lease) : Prop
    extends ClientSlotsInv t lent issued where
  pool : ∃ free, ConnectionPoolInv t.pool lent issued free

section Table

variable {κ : Type} {t : ClientTable κ} {lent : List (Lent κ)} {issued : List Lease} {lease : Lease}

theorem clientTableInv_opened {pool : ConnectionPool κ} {free : List UInt64}
    (hpool : ConnectionPoolInv pool [] [] free) : ClientTableInv (.opened pool) [] [] :=
  ⟨⟨rfl, fun _ hl => (not_mem_nil hl).elim, fun _ hl => (not_mem_nil hl).elim,
    fun _ hl => (not_mem_nil hl).elim, nodup_nil, fun _ hl => (not_mem_nil hl).elim,
    fun _ _ _ => rfl⟩, free, hpool⟩

section

variable (inv : ClientTableInv t lent issued)
include inv

theorem clientTableInv_requestStop : ClientTableInv t.requestStop lent issued :=
  ⟨{ inv with }, inv.pool⟩

theorem findClient_eq_ok_iff {connection : κ} :
    t.findClient lease = .ok connection ↔ ∃ l ∈ lent, l.lease = lease ∧ l.owner = connection := by
  obtain ⟨free, hpool⟩ := inv.pool
  unfold ClientTable.findClient
  constructor
  · intro h
    split at h
    · cases h
    rename_i found hlookup
    split at h
    · cases h
    dsimp only at h
    split at h
    · cases h
      exact (lookup_eq_ok_iff hpool).mp hlookup
    · cases h
  · intro hmem
    rw [(lookup_eq_ok_iff hpool).mpr hmem]
    obtain ⟨l, hl, rfl, -⟩ := hmem
    have hindex : l.lease.slotIndex < t.connectionCapacity := by
      rw [← inv.capacity, hpool.capacity]
      exact ((hpool.storage.current _).mp (mem_map_of_mem hl)).index
    dsimp only
    rw [if_neg (UInt64.not_le.mpr hindex), if_pos (inv.live l hl)]

theorem clientInspect_eq_ok_iff {state : CloseState} : t.clientInspect lease = .ok state ↔
      ∃ l ∈ lent, l.lease = lease ∧ state = (t.connections l.owner).closeState := by
  unfold ClientTable.clientInspect
  constructor
  · intro h
    split at h
    · cases h
    rename_i connection hfound
    obtain ⟨l, hl, hlease, rfl⟩ := (findClient_eq_ok_iff inv).mp hfound
    dsimp only at h
    split at h
    · cases h
    · cases h
      exact ⟨l, hl, hlease, rfl⟩
  · intro ⟨l, hl, hlease, hstate⟩
    rw [(findClient_eq_ok_iff inv).mpr ⟨l, hl, hlease, rfl⟩]
    dsimp only
    rw [← hlease, if_neg (by simp [inv.attached l hl, inv.bytes l hl]), hstate]

/-- **A lease that was issued and is lent no more is not found.** -/
theorem clientInspect_stale (hissued : lease ∈ issued)
    (hstale : lease ∉ lent.map (·.lease)) : t.clientInspect lease = .error .notFound := by
  obtain ⟨free, hpool⟩ := inv.pool
  obtain ⟨hid, hgeneration, hindex⟩ := inv.shape lease hissued
  unfold ClientTable.clientInspect ClientTable.findClient
  rw [lookup_stale hpool hid hgeneration hindex hstale]

theorem ClientTableInv.eq_of_owner {l m : Lent κ} (hl : l ∈ lent)
    (hm : m ∈ lent) (h : l.owner = m.owner) : l = m :=
  inj_on_of_nodup_map inv.owners hl hm h

theorem ClientTableInv.eq_of_slot {l m : Lent κ} (hl : l ∈ lent)
    (hm : m ∈ lent) (h : l.lease.slotIndex = m.lease.slotIndex) : l = m := by
  obtain ⟨free, hpool⟩ := inv.pool
  exact hpool.eq_of_lease hl hm (hpool.storage.eq_of_slot (mem_map_of_mem hl) (mem_map_of_mem hm) h)

end

end Table

/-! ## 3. Who comes and who goes -/

section Slots

variable {κ : Type} {t : ClientTable κ} {lent : List (Lent κ)} {issued : List Lease} {lease : Lease}
  {pool : ConnectionPool κ} {connection : κ} {bufferBytes : Nat} {free : List UInt64} {l : Lent κ}

section

variable (inv : ClientSlotsInv t lent issued)
include inv

theorem ClientSlotsInv.setClient {i : UInt64} (slot : ClientSlot)
    (hfree : ∀ l ∈ lent, l.lease.slotIndex ≠ i) (hlive : slot.live = false) :
    ClientSlotsInv { t with clients := update t.clients i slot } lent issued := by
  have hsame : ∀ l ∈ lent, update t.clients i slot l.lease.slotIndex = t.clients l.lease.slotIndex :=
    fun l hl => update_of_ne (hfree l hl) _ _
  refine ⟨inv.capacity, fun l hl => ?_, fun l hl => ?_, fun l hl => ?_, inv.owners, inv.shape,
    fun j hj hnone => ?_⟩
  · show (update t.clients i slot l.lease.slotIndex).live = true ∧
      (update t.clients i slot l.lease.slotIndex).lease = l.lease
    rw [hsame l hl]
    exact inv.live l hl
  · show _ = (update t.clients i slot l.lease.slotIndex).bound
    rw [hsame l hl]
    exact inv.attached l hl
  · show _ = (update t.clients i slot l.lease.slotIndex).bufferBytes
    rw [hsame l hl]
    exact inv.bytes l hl
  · show (update t.clients i slot j).live = false
    by_cases hi : j = i
    · rw [hi, update_self]
      exact hlive
    · rw [update_of_ne hi]
      exact inv.idle j hj hnone

theorem ClientSlotsInv.setPool (same : pool.poolId = t.pool.poolId ∧ pool.capacity = t.pool.capacity) :
    ClientSlotsInv { t with pool := pool } lent issued := by
  refine { inv with capacity := same.2.trans inv.capacity, shape := fun l hl => ?_ }
  show l.poolId = pool.poolId ∧ _ ∧ l.slotIndex < pool.capacity
  rw [same.1, same.2]
  exact inv.shape l hl

theorem ClientSlotsInv.issue (lease : Lease)
    (shape : lease.poolId = t.pool.poolId ∧ lease.generation ≠ 0 ∧ lease.slotIndex < t.pool.capacity) :
    ClientSlotsInv t lent (lease :: issued) :=
  { inv with shape := forall_mem_cons.mpr ⟨shape, inv.shape⟩ }

end

theorem slot_unused
    (hpool : ConnectionPoolInv t.pool (⟨lease, connection, bufferBytes⟩ :: lent) (lease :: issued) free) :
    ∀ l ∈ lent, l.lease.slotIndex ≠ lease.slotIndex := by
  intro l hl heq
  have hnodup := hpool.storage.nodup
  rw [map_cons, nodup_cons] at hnodup
  have hsame : l.lease = lease :=
    hpool.storage.eq_of_slot (mem_cons_of_mem _ (mem_map_of_mem hl)) (mem_cons_self ..) heq
  exact hnodup.1 (mem_map.mpr ⟨l, hl, hsame⟩)

theorem clientTableInv_gone {before after : List (Lent κ)}
    (inv : ClientTableInv t (before ++ l :: after) issued)
    (same : pool.poolId = t.pool.poolId ∧ pool.capacity = t.pool.capacity)
    (hpool : ConnectionPoolInv pool (before ++ after) issued free) (clientCount total : Nat) :
    ClientTableInv { t with
        pool := pool
        clients := update t.clients l.lease.slotIndex .empty
        clientCount := clientCount
        bufferBytes := total } (before ++ after) issued := by
  have hmem : ∀ m ∈ before ++ after, m ∈ before ++ l :: after :=
    fun _ hm => ((sublist_cons_self l after).append_left before).subset hm
  have hsub : (before ++ after).Sublist (before ++ l :: after) :=
    (List.Sublist.refl before).append (sublist_cons_self l after)
  have hother : ∀ m ∈ before ++ after, m.lease.slotIndex ≠ l.lease.slotIndex := by
    intro m hm heq
    have hsame := inv.eq_of_slot (hmem m hm) (mem_append_right _ (mem_cons_self ..)) heq
    have hnodup := inv.owners
    rw [map_append, map_cons] at hnodup
    have hnot := (nodup_middle.mp hnodup)
    rw [← map_append] at hnot
    exact (nodup_cons.mp hnot).1 (hsame ▸ mem_map_of_mem hm)
  have hslot : ∀ m ∈ before ++ after, update t.clients l.lease.slotIndex .empty m.lease.slotIndex =
      t.clients m.lease.slotIndex := fun m hm => update_of_ne (hother m hm) _ _
  refine ⟨⟨same.2.trans inv.capacity, fun m hm => ?_, fun m hm => ?_, fun m hm => ?_,
    inv.owners.sublist (hsub.map _), fun m hm => ?_, fun i hi hnone => ?_⟩, free, hpool⟩
  · show (update t.clients l.lease.slotIndex .empty m.lease.slotIndex).live = true ∧
      (update t.clients l.lease.slotIndex .empty m.lease.slotIndex).lease = m.lease
    rw [hslot m hm]
    exact inv.live m (hmem m hm)
  · show _ = (update t.clients l.lease.slotIndex .empty m.lease.slotIndex).bound
    rw [hslot m hm]
    exact inv.attached m (hmem m hm)
  · show _ = (update t.clients l.lease.slotIndex .empty m.lease.slotIndex).bufferBytes
    rw [hslot m hm]
    exact inv.bytes m (hmem m hm)
  · show m.poolId = pool.poolId ∧ _ ∧ m.slotIndex < pool.capacity
    rw [same.1, same.2]
    exact inv.shape m hm
  · show (update t.clients l.lease.slotIndex .empty i).live = false
    by_cases heq : i = l.lease.slotIndex
    · rw [heq, update_self]
      rfl
    · rw [update_of_ne heq]
      exact inv.idle i hi (forall_mem_append.mpr ⟨fun m hm => hnone m (mem_append_left _ hm),
        forall_mem_cons.mpr ⟨fun h => heq h.symm, fun m hm => hnone m (mem_append_right _ hm)⟩⟩)

/-- A client that could not be published gives its connection back, and what is left of it is its lease. -/
theorem cleanPending_eq (connection : κ)
    (hpool : ConnectionPoolInv t.pool (⟨lease, connection, bufferBytes⟩ :: lent) (lease :: issued) free)
    (hidle : (t.connections connection).loopAttached = false ∧
      (t.connections connection).callbackActive = false) (closeFails : Bool) :
    ∃ p' free', t.cleanPending connection lease closeFails =
        { t with pool := p', clients := update t.clients lease.slotIndex .empty } ∧
      (p'.poolId = t.pool.poolId ∧ p'.capacity = t.pool.capacity) ∧
      ConnectionPoolInv p' lent (lease :: issued) free' := by
  have hdestroy : destroyConnection (t.connections connection) closeFails =
      ⟨if closeFails then .io else .ok, true⟩ := by
    unfold destroyConnection
    rw [hidle.1, hidle.2]
    rfl
  have hresult : (destroyConnection (t.connections connection) closeFails).result = .ok ∨
      (destroyConnection (t.connections connection) closeFails).result = .io := by
    rw [hdestroy]
    cases closeFails with
    | true => exact .inr rfl
    | false => exact .inl rfl
  unfold ClientTable.cleanPending
  have hreturned := release_returned hpool lease (destroyConnection (t.connections connection) closeFails)
  generalize t.pool.release lease (destroyConnection (t.connections connection) closeFails) = o at hreturned ⊢
  cases hreturned with
  | kept _ why =>
    have hno := why (mem_cons_self ..) hresult
    rw [hdestroy] at hno
    cases hno
  | @gone l before after p' free' split held told same _ inv =>
    have hrest : before ++ after = lent := by
      cases before with
      | nil => exact (List.cons.inj split).2.symm
      | cons first before =>
        have hnodup := hpool.storage.nodup
        rw [split, cons_append, map_cons, nodup_cons] at hnodup
        refine absurd ?_ hnodup.1
        rw [← (List.cons.inj split).1]
        exact mem_map.mpr ⟨l, mem_append_right _ (mem_cons_self ..), held⟩
    rw [hrest] at inv
    exact ⟨p', free', rfl, same, inv⟩

/-- **A client that could not be published is gone**: its lease was issued and is nobody's. -/
theorem clientTableInv_cleanPending (slots : ClientSlotsInv t lent (lease :: issued)) (connection : κ)
    (hpool : ConnectionPoolInv t.pool (⟨lease, connection, bufferBytes⟩ :: lent) (lease :: issued) free)
    (hidle : (t.connections connection).loopAttached = false ∧
      (t.connections connection).callbackActive = false) (closeFails : Bool) :
    ClientTableInv (t.cleanPending connection lease closeFails) lent (lease :: issued) := by
  obtain ⟨p', free', heq, same, inv⟩ := cleanPending_eq connection hpool hidle closeFails
  rw [heq]
  exact ⟨(slots.setPool same).setClient .empty (slot_unused hpool) rfl, free', inv⟩

theorem slot_taken (inv : ClientTableInv t lent issued)
    (shape : lease.poolId = t.pool.poolId ∧ lease.generation ≠ 0 ∧ lease.slotIndex < t.pool.capacity)
    (hpool : ConnectionPoolInv pool (⟨lease, connection, bufferBytes⟩ :: lent) (lease :: issued) free) :
    lease.slotIndex < t.connectionCapacity ∧ leaseEmpty lease = false ∧ pool.lookup lease = .ok connection ∧
      (t.clients lease.slotIndex).live = false ∧ ∀ l ∈ lent, l.lease.slotIndex ≠ lease.slotIndex := by
  have hunused := slot_unused (t := { t with pool := pool }) hpool
  have hindex : lease.slotIndex < t.connectionCapacity := inv.capacity ▸ shape.2.2
  refine ⟨hindex, ?_, (lookup_eq_ok_iff hpool).mpr ⟨_, mem_cons_self .., rfl, rfl⟩, inv.idle _ hindex hunused,
    hunused⟩
  unfold leaseEmpty
  simp [shape.2.1]

variable [DecidableEq κ]

theorem ClientSlotsInv.setConnection (inv : ClientSlotsInv t lent issued)
    (hnew : connection ∉ lent.map (·.owner)) (info : ConnectionInfo) :
    ClientSlotsInv { t with connections := update t.connections connection info } lent issued := by
  have hsame : ∀ l ∈ lent, update t.connections connection info l.owner = t.connections l.owner := by
    intro l hl
    refine update_of_ne (fun heq => hnew ?_) _ _
    rw [← heq]
    exact mem_map_of_mem hl
  refine { inv with attached := fun l hl => ?_, bytes := fun l hl => ?_ }
  · show (update t.connections connection info l.owner).loopAttached = _
    rw [hsame l hl]
    exact inv.attached l hl
  · show (update t.connections connection info l.owner).bufferCapacityBytes = _
    rw [hsame l hl]
    exact inv.bytes l hl

/-- **A client is published**: its slot is live, and its connection is attached. -/
theorem clientTableInv_publish (slots : ClientSlotsInv t lent (lease :: issued))
    (hpool : ConnectionPoolInv t.pool (⟨lease, connection, bufferBytes⟩ :: lent) (lease :: issued) free)
    (hnew : connection ∉ lent.map (·.owner)) (info : ConnectionInfo) (hattached : info.loopAttached = true)
    (hbytes : info.bufferCapacityBytes = bufferBytes) (clientCount registeredClients total : Nat) :
    ClientTableInv { t with
        connections := update t.connections connection info
        clients := update t.clients lease.slotIndex ⟨lease, bufferBytes, true, true⟩
        clientCount := clientCount
        registeredClients := registeredClients
        bufferBytes := total } (⟨lease, connection, bufferBytes⟩ :: lent) (lease :: issued) := by
  have hslot : ∀ l ∈ lent, update t.clients lease.slotIndex ⟨lease, bufferBytes, true, true⟩
      l.lease.slotIndex = t.clients l.lease.slotIndex :=
    fun l hl => update_of_ne (slot_unused hpool l hl) _ _
  have hconnection : ∀ l ∈ lent, update t.connections connection info l.owner = t.connections l.owner := by
    intro l hl
    refine update_of_ne (fun heq => hnew ?_) _ _
    rw [← heq]
    exact mem_map_of_mem hl
  refine ⟨⟨slots.capacity, forall_mem_cons.mpr ⟨?_, fun l hl => ?_⟩, forall_mem_cons.mpr ⟨?_, fun l hl => ?_⟩,
    forall_mem_cons.mpr ⟨?_, fun l hl => ?_⟩, nodup_cons.mpr ⟨hnew, slots.owners⟩, slots.shape,
    fun i hi hnone => ?_⟩, free, hpool⟩
  · dsimp only
    rw [update_self]
    exact ⟨rfl, rfl⟩
  · dsimp only
    rw [hslot l hl]
    exact slots.live l hl
  · dsimp only
    rw [update_self, update_self]
    exact hattached
  · dsimp only
    rw [hslot l hl, hconnection l hl]
    exact slots.attached l hl
  · dsimp only
    rw [update_self, update_self]
    exact hbytes
  · dsimp only
    rw [hslot l hl, hconnection l hl]
    exact slots.bytes l hl
  · show (update t.clients lease.slotIndex _ i).live = false
    have hne : i ≠ lease.slotIndex := fun heq => hnone _ (mem_cons_self ..) heq.symm
    rw [update_of_ne hne]
    exact slots.idle i hi fun l hl => hnone l (mem_cons_of_mem _ hl)

/-- What an admission comes to: nobody came, or a client under a lease that was never issued before. -/
inductive Admitted (lent : List (Lent κ)) (issued : List Lease) (connection : κ) :
    Result × Option Lease × ClientTable κ → Prop
  | nobody {r : Result} {t' : ClientTable κ} {issued' : List Lease} (inv : ClientTableInv t' lent issued')
      (grown : ∀ l ∈ issued, l ∈ issued') : Admitted lent issued connection (r, none, t')
  | client {lease : Lease} {t' : ClientTable κ} (bufferBytes : Nat) (new : lease ∉ issued)
      (inv : ClientTableInv t' (⟨lease, connection, bufferBytes⟩ :: lent) (lease :: issued)) :
      Admitted lent issued connection (.ok, some lease, t')

theorem fresh_owner {lent : List (Lent Nat)} {created : Nat} (h : ∀ l ∈ lent, l.owner < created) :
    created ∉ lent.map (·.owner) := by
  rintro hmem
  obtain ⟨l, hl, rfl⟩ := mem_map.mp hmem
  exact Nat.lt_irrefl _ (h l hl)

section

variable (inv : ClientTableInv t lent issued)
include inv

theorem admitClients_cases (hnew : connection ∉ lent.map (·.owner)) (readCapacity writeCapacity : Nat)
    (attach : Result) (closeFails : Bool) :
    Admitted lent issued connection (t.admitClients connection readCapacity writeCapacity attach closeFails) := by
  have nobody : ∀ {r : Result}, Admitted lent issued connection (r, none, t) :=
    .nobody inv fun l hl => hl
  obtain ⟨free, hpool⟩ := inv.pool
  unfold ClientTable.admitClients
  split
  · exact nobody
  rename_i pairBytes _
  split
  · exact nobody
  split
  · exact nobody
  split
  · exact nobody
  dsimp only
  rw [update_self]
  have hadopt := adopt_cases hpool connection
    (.ok ⟨readCapacity, writeCapacity, pairBytes, false, false, .open⟩) (.ok ())
  have hslots := inv.toClientSlotsInv.setConnection hnew
    ⟨readCapacity, writeCapacity, pairBytes, false, false, .open⟩
  generalize t.pool.adopt connection (.ok ⟨readCapacity, writeCapacity, pairBytes, false, false, .open⟩)
    (.ok ()) = o at hadopt ⊢
  cases hadopt with
  | refused _ => exact .nobody ⟨hslots, free, hpool⟩ fun l hl => hl
  | @taken lease p' info free' told _ _ new shape same inv' =>
    obtain rfl := Except.ok.inj told
    have hpending := (hslots.setPool same).issue lease (by rw [same.1, same.2]; exact shape)
    obtain ⟨hindex, hempty, hlookup, hlive, hunused⟩ := slot_taken inv shape inv'
    dsimp only
    rw [if_neg (by simp [hempty, hindex]), hlookup]
    dsimp only
    rw [hlive, if_neg (by simp)]
    have hwritten := hpending.setClient ⟨lease, pairBytes, false, false⟩ hunused rfl
    split
    · refine .nobody (clientTableInv_cleanPending hwritten connection inv' ?_ closeFails)
        fun l hl => mem_cons_of_mem _ hl
      show (update t.connections connection _ connection).loopAttached = false ∧
        (update t.connections connection _ connection).callbackActive = false
      rw [update_self]
      exact ⟨rfl, rfl⟩
    · refine .client pairBytes new ?_
      have hpublished := clientTableInv_publish hwritten inv' hnew
        ⟨readCapacity, writeCapacity, pairBytes, true, false, .open⟩ rfl rfl (t.clientCount + 1)
        (t.registeredClients + 1) (t.bufferBytes + pairBytes)
      exact hpublished

/-! ## 4. Releasing -/

/-- What a release comes to: every client is there as before, or the client of the lease is gone. -/
inductive Left (lent : List (Lent κ)) (issued : List Lease) (lease : Lease) :
    Result × ClientTable κ → Prop
  | nobody {r : Result} {t' : ClientTable κ} (inv : ClientTableInv t' lent issued) :
      Left lent issued lease (r, t')
  | client {r : Result} {t' : ClientTable κ} {l : Lent κ} {before after : List (Lent κ)}
      (split : lent = before ++ l :: after) (held : l.lease = lease)
      (inv : ClientTableInv t' (before ++ after) issued) : Left lent issued lease (r, t')

theorem clientTableInv_detach (hl : l ∈ lent) : ClientTableInv (t.detach l.owner l.lease) lent issued := by
  have hslot : ∀ m ∈ lent, m ≠ l → update t.clients l.lease.slotIndex
      { t.clients l.lease.slotIndex with bound := false } m.lease.slotIndex = t.clients m.lease.slotIndex :=
    fun m hm hne => update_of_ne (fun heq => hne (inv.eq_of_slot hm hl heq)) _ _
  have hconnection : ∀ m ∈ lent, m ≠ l → update t.connections l.owner
      { t.connections l.owner with loopAttached := false } m.owner = t.connections m.owner :=
    fun m hm hne => update_of_ne (fun heq => hne (inv.eq_of_owner hm hl heq)) _ _
  refine ⟨⟨inv.capacity, fun m hm => ?_, fun m hm => ?_, fun m hm => ?_, inv.owners, inv.shape,
    fun i hi hnone => ?_⟩, inv.pool⟩
  · show (update t.clients l.lease.slotIndex _ m.lease.slotIndex).live = true ∧
      (update t.clients l.lease.slotIndex _ m.lease.slotIndex).lease = m.lease
    by_cases heq : m = l
    · rw [heq, update_self]
      exact inv.live l hl
    · rw [hslot m hm heq]
      exact inv.live m hm
  · show (update t.connections l.owner _ m.owner).loopAttached =
      (update t.clients l.lease.slotIndex _ m.lease.slotIndex).bound
    by_cases heq : m = l
    · rw [heq, update_self, update_self]
    · rw [hslot m hm heq, hconnection m hm heq]
      exact inv.attached m hm
  · show (update t.connections l.owner _ m.owner).bufferCapacityBytes =
      (update t.clients l.lease.slotIndex _ m.lease.slotIndex).bufferBytes
    by_cases heq : m = l
    · rw [heq, update_self, update_self]
      exact inv.bytes l hl
    · rw [hslot m hm heq, hconnection m hm heq]
      exact inv.bytes m hm
  · show (update t.clients l.lease.slotIndex _ i).live = false
    rw [update_of_ne fun heq => hnone l hl heq.symm]
    exact inv.idle i hi hnone

omit [DecidableEq κ] in
theorem giveUp_cases (closeFails : Bool) :
    Left lent issued l.lease (t.giveUp l.owner l.lease closeFails) := by
  obtain ⟨free, hpool⟩ := inv.pool
  unfold ClientTable.giveUp
  have hreturned := release_returned hpool l.lease (destroyConnection (t.connections l.owner) closeFails)
  generalize t.pool.release l.lease (destroyConnection (t.connections l.owner) closeFails) = o
    at hreturned ⊢
  cases hreturned with
  | kept failed _ =>
    rw [if_neg (by simp [failed])]
    exact .nobody inv
  | @gone m before after p' free' split held told same _ inv' =>
    dsimp only
    rw [if_pos told, if_neg (by decide)]
    rw [split] at inv
    have hgone := clientTableInv_gone inv same inv' (t.clientCount - 1)
      (t.bufferBytes - (t.clients l.lease.slotIndex).bufferBytes)
    rw [held] at hgone
    exact .client split held hgone

theorem releaseClient_cases (lease : Lease) (detached : Result) (closeFails : Bool) :
    Left lent issued lease (t.releaseClient lease detached closeFails) := by
  unfold ClientTable.releaseClient
  cases hfind : t.findClient lease with
  | error e => exact .nobody inv
  | ok connection =>
    obtain ⟨l, hl, rfl, rfl⟩ := (findClient_eq_ok_iff inv).mp hfind
    dsimp only
    split
    · exact .nobody inv
    split
    · split
      · exact .nobody inv
      · exact giveUp_cases (clientTableInv_detach inv hl) closeFails
    · exact giveUp_cases inv closeFails

theorem clientTableInv_proceed (connection : κ) (closeState : CloseState) (callbackActive : Bool) :
    ClientTableInv (t.proceed connection closeState callbackActive) lent issued := by
  have hsame : ∀ l : Lent κ, ((t.proceed connection closeState callbackActive).connections l.owner).loopAttached =
        (t.connections l.owner).loopAttached ∧
      ((t.proceed connection closeState callbackActive).connections l.owner).bufferCapacityBytes =
        (t.connections l.owner).bufferCapacityBytes := by
    intro l
    unfold ClientTable.proceed
    dsimp only
    by_cases h : l.owner = connection
    · rw [h, update_self]
      exact ⟨rfl, rfl⟩
    · rw [update_of_ne h]
      exact ⟨rfl, rfl⟩
  exact ⟨{ inv with
      attached := fun l hl => (hsame l).1.trans (inv.attached l hl),
      bytes := fun l hl => (hsame l).2.trans (inv.bytes l hl) }, inv.pool⟩

end

end Slots

end Vireo.Net
