/-
  File:      Vireo/Net/PoolAccounts.lean
  Subject:   THE ACCOUNTS OF THE CONNECTION POOL, over every run of adopts and releases.

  A lookup changes nothing and is no step. Besides the destructor's outcomes in the source one that
  returns OK or IO without taking the connection is allowed for: the pool answers INTERNAL and keeps it.
-/
import Vireo.Net.ConnectionPool

namespace Vireo.Net

open Base List

/-! ## 1. The pool in its caller's hands -/

/-- What the destructor of a connection comes to: the connection is gone, with OK or an I/O error, or it
    is still there. -/
inductive Destruction where
  | gone (io : Bool)
  | kept (e : Result)

/-- What the pool sees of it. -/
def Destruction.destroyed : Destruction → Destroyed
  | .gone io => ⟨if io then .io else .ok, true⟩
  | .kept e => ⟨e, false⟩

/-- A pool with its caller. `caller` are the connections in the caller's hands; the adoptions are logged
    newest first. -/
structure PoolCustody (κ : Type) where
  pool : ConnectionPool κ
  caller : List κ
  adopted : List (Lent κ)
  released : List Lease
  destroyed : List κ

/-- What the caller can do. -/
inductive PoolStep (κ : Type) where
  | bring (owner : κ)
  | adopt (owner : κ) (inspect : Except Failure ConnectionInfo) (transport : Except Failure Unit)
  | release (lease : Lease) (destruction : Destruction)

namespace PoolCustody

variable {κ : Type} [DecidableEq κ]

/-- The adoptions that no release has ended. -/
def current {κ : Type} (s : PoolCustody κ) : List (Lent κ) := s.adopted.filter (·.lease ∉ s.released)

variable (s : PoolCustody κ)

/-- A new connection comes into the caller's hands. -/
def bring (owner : κ) : PoolCustody κ :=
  if owner ∈ s.caller ∨ owner ∈ s.adopted.map (·.owner) then s else { s with caller := owner :: s.caller }

/-- The caller has the pool adopt a connection of its own. -/
def adopt (owner : κ) (inspect : Except Failure ConnectionInfo) (transport : Except Failure Unit) :
    PoolCustody κ :=
  if owner ∈ s.caller then
    match s.pool.adopt owner inspect transport, inspect with
    | (.ok lease, pool), .ok info =>
      { s with
        pool := pool
        caller := s.caller.erase owner
        adopted := ⟨lease, owner, info.bufferCapacityBytes⟩ :: s.adopted }
    | (_, pool), _ => { s with pool := pool }
  else s

/-- What the destructor takes: it is called on the connection that the lease finds. -/
def taken {κ : Type} (s : PoolCustody κ) (lease : Lease) : Destruction → List κ
  | .kept _ => []
  | .gone _ => match s.pool.lookup lease with
    | .ok connection => [connection]
    | .error _ => []

/-- The caller has the pool release a lease, whatever lease that is. -/
def release (lease : Lease) (destruction : Destruction) : PoolCustody κ :=
  let released := s.pool.release lease destruction.destroyed
  { s with
    pool := released.2.2
    released := if released.1 = .ok ∨ released.1 = .io then lease :: s.released else s.released
    destroyed := s.taken lease destruction ++ s.destroyed }

def exec : PoolStep κ → PoolCustody κ
  | .bring owner => s.bring owner
  | .adopt owner inspect transport => s.adopt owner inspect transport
  | .release lease destruction => s.release lease destruction

end PoolCustody

/-- The states that are reached from a pool just created. -/
inductive PoolHistory (κ : Type) [DecidableEq κ] : PoolCustody κ → Prop
  | start {options : ConnectionPoolOptions} {source : UInt64} {storageMemory control index : Bool}
      {pool : ConnectionPool κ}
      (h : ConnectionPool.create options source storageMemory control index = .ok pool) :
      PoolHistory κ ⟨pool, [], [], [], []⟩
  | step {s : PoolCustody κ} (h : PoolHistory κ s) (e : PoolStep κ) : PoolHistory κ (s.exec e)

/-! ## 2. The invariant -/

/-- What every run keeps: the pool lends out what is current, and what was adopted is in one pair of hands or
    was destroyed. -/
structure CustodyInv {κ : Type} (s : PoolCustody κ) : Prop where
  pool : ∃ free, ConnectionPoolInv s.pool s.current (s.adopted.map (·.lease)) free
  leases : (s.adopted.map (·.lease)).Nodup
  released : ∀ l ∈ s.released, l ∈ s.adopted.map (·.lease)
  hands : (s.caller ++ s.adopted.map (·.owner)).Nodup
  destroyed : (s.adopted.map (·.owner)).Perm (s.current.map (·.owner) ++ s.destroyed)

section Steps

variable {κ : Type} [DecidableEq κ] {s : PoolCustody κ} {l : Lent κ}

section

variable (inv : CustodyInv s)
include inv

theorem custodyInv_bring (owner : κ) : CustodyInv (s.bring owner) := by
  unfold PoolCustody.bring
  split
  · exact inv
  rename_i hnew
  refine { inv with hands := ?_ }
  show ((owner :: s.caller) ++ s.adopted.map (·.owner)).Nodup
  rw [cons_append, nodup_cons, mem_append]
  exact ⟨hnew, inv.hands⟩

omit inv in
omit [DecidableEq κ] in
theorem current_adopt (hnew : l.lease ∉ s.released) (pool : ConnectionPool κ) (caller : List κ) :
    PoolCustody.current { s with pool := pool, caller := caller, adopted := l :: s.adopted } = l :: s.current :=
  filter_cons_of_pos (by simpa using hnew)

/-- **A connection that is adopted changes hands**, and one that is not stays with the caller. -/
theorem custodyInv_adopt (owner : κ) (inspect : Except Failure ConnectionInfo) (transport : Except Failure Unit) :
    CustodyInv (s.adopt owner inspect transport) := by
  unfold PoolCustody.adopt
  split
  · rename_i howner
    obtain ⟨free, hpool⟩ := inv.pool
    have hadopted := adopt_cases hpool owner inspect transport
    generalize s.pool.adopt owner inspect transport = o at hadopted ⊢
    cases hadopted with
    | refused why => exact inv
    | @taken lease p' info free' told _ _ new _ _ inv' =>
      rw [told]
      dsimp only
      have hcurrent := current_adopt (l := ⟨lease, owner, info.bufferCapacityBytes⟩)
        (fun hmem => new (inv.released lease hmem)) p' (s.caller.erase owner)
      have hhands : (s.caller.erase owner ++ owner :: s.adopted.map (·.owner)).Perm
          (s.caller ++ s.adopted.map (·.owner)) := by
        refine perm_middle.trans ?_
        rw [← cons_append]
        exact (perm_cons_erase howner).symm.append_right _
      refine ⟨⟨free', ?_⟩, nodup_cons.mpr ⟨new, inv.leases⟩,
        fun l hl => mem_cons_of_mem _ (inv.released l hl), hhands.nodup_iff.mpr inv.hands, ?_⟩
      · rw [hcurrent]
        exact inv'
      · rw [hcurrent]
        exact inv.destroyed.cons owner
  · exact inv

omit [DecidableEq κ] in
theorem current_release {before after : List (Lent κ)} (hsplit : s.current = before ++ l :: after)
    (pool : ConnectionPool κ) (destroyed : List κ) :
    PoolCustody.current { s with pool := pool, released := l.lease :: s.released, destroyed := destroyed } =
      before ++ after := by
  have hsub : (s.current.map (·.lease)).Sublist (s.adopted.map (·.lease)) := filter_sublist.map _
  have hnodup := inv.leases.sublist hsub
  rw [hsplit, map_append, map_cons, nodup_middle, nodup_cons, ← map_append] at hnodup
  have hkeep : ∀ m ∈ before ++ after, decide (m.lease ≠ l.lease) = true := by
    intro m hm
    refine decide_eq_true fun heq => hnodup.1 ?_
    rw [← heq]
    exact mem_map_of_mem hm
  have hboth : PoolCustody.current { s with
      pool := pool, released := l.lease :: s.released, destroyed := destroyed } =
      s.current.filter (fun m => m.lease ≠ l.lease) := by
    unfold PoolCustody.current
    rw [filter_filter]
    refine filter_congr fun m _ => ?_
    simp [not_or]
  rw [hboth, hsplit, filter_append, filter_cons_of_neg (by simp), ← filter_append]
  exact filter_eq_self.mpr hkeep

omit [DecidableEq κ] in
/-- **A release destroys the connection of a current lease**, and nothing else. -/
theorem custodyInv_release (lease : Lease) (destruction : Destruction) :
    CustodyInv (s.release lease destruction) := by
  obtain ⟨free, hpool⟩ := inv.pool
  unfold PoolCustody.release
  have hreturned := release_returned hpool lease destruction.destroyed
  generalize s.pool.release lease destruction.destroyed = o at hreturned ⊢
  cases hreturned with
  | @kept e failed why =>
    have hgone : s.taken lease destruction = [] := by
      cases destruction with
      | kept e => rfl
      | gone io =>
        unfold PoolCustody.taken
        cases hlookup : s.pool.lookup lease with
        | error e => rfl
        | ok connection =>
          -- the pool does not keep a connection that is gone
          obtain ⟨l, hl, rfl, -⟩ := (lookup_eq_ok_iff hpool).mp hlookup
          have hno := why (mem_map_of_mem hl)
          cases io with
          | true => exact absurd (hno (.inr rfl)) (by simp [Destruction.destroyed])
          | false => exact absurd (hno (.inl rfl)) (by simp [Destruction.destroyed])
    dsimp only
    rw [hgone, if_neg (by simp [failed])]
    exact { inv with }
  | @gone l before after p' free' split held told same consumed inv' =>
    have hl : l ∈ s.current := by
      rw [split]
      exact mem_append_right _ (mem_cons_self ..)
    have hlookup : s.pool.lookup lease = .ok l.owner := (lookup_eq_ok_iff hpool).mpr ⟨l, hl, held, rfl⟩
    cases destruction with
    | kept e => cases consumed
    | gone io =>
      have htaken : s.taken lease (.gone io) = [l.owner] := by
        simp only [PoolCustody.taken, hlookup]
      dsimp only
      rw [htaken, if_pos told, ← held]
      have hcurrent := current_release inv split p' (l.owner :: s.destroyed)
      refine ⟨⟨free', ?_⟩, inv.leases, fun m hm => ?_, inv.hands, ?_⟩
      · show ConnectionPoolInv p' (PoolCustody.current { s with
          pool := p', released := l.lease :: s.released, destroyed := l.owner :: s.destroyed }) _ free'
        rw [hcurrent]
        exact inv'
      · exact forall_mem_cons.mpr ⟨mem_map_of_mem (mem_of_mem_filter hl), inv.released⟩ m hm
      · show (s.adopted.map (·.owner)).Perm ((PoolCustody.current { s with
          pool := p', released := l.lease :: s.released, destroyed := l.owner :: s.destroyed }).map (·.owner) ++
            l.owner :: s.destroyed)
        have hdestroyed := inv.destroyed
        rw [split, map_append, map_cons, append_assoc] at hdestroyed
        rw [hcurrent, map_append, append_assoc]
        exact hdestroyed.trans ((perm_middle.symm).append_left _)

theorem custodyInv_exec (e : PoolStep κ) : CustodyInv (s.exec e) := by
  cases e with
  | bring owner => exact custodyInv_bring inv owner
  | adopt owner inspect transport => exact custodyInv_adopt inv owner inspect transport
  | release lease destruction => exact custodyInv_release inv lease destruction

omit inv in
theorem custodyInv_of_history (history : PoolHistory κ s) : CustodyInv s := by
  induction history with
  | start h =>
    obtain ⟨free, hpool⟩ := connectionPoolInv_create h
    exact ⟨⟨free, hpool⟩, nodup_nil, fun l hl => (not_mem_nil hl).elim, nodup_nil, List.Perm.refl _⟩
  | step _ e ih => exact custodyInv_exec ih e

theorem adopt_refused (owner : κ) {inspect : Except Failure ConnectionInfo} {transport : Except Failure Unit}
    {e : Result} (h : (s.pool.adopt owner inspect transport).1 = .error e) :
    s.adopt owner inspect transport = s := by
  obtain ⟨free, hpool⟩ := inv.pool
  have hadopted := adopt_cases hpool owner inspect transport
  unfold PoolCustody.adopt
  generalize s.pool.adopt owner inspect transport = o at hadopted h ⊢
  cases hadopted with
  | refused why => exact ite_self _
  | taken => cases h

omit [DecidableEq κ] in
theorem release_ok_iff (lease : Lease) (destruction : Destruction) :
    ((s.pool.release lease destruction.destroyed).1 = .ok ∨
        (s.pool.release lease destruction.destroyed).1 = .io) ↔
      lease ∈ s.current.map (·.lease) ∧ ∃ io, destruction = .gone io := by
  obtain ⟨free, hpool⟩ := inv.pool
  have hreturned := release_returned hpool lease destruction.destroyed
  generalize s.pool.release lease destruction.destroyed = o at hreturned ⊢
  cases hreturned with
  | kept failed why =>
    constructor
    · intro h
      exact absurd h (not_or.mpr failed)
    · intro ⟨hmem, io, hgone⟩
      have hno := why hmem
      rw [hgone] at hno
      cases io with
      | true => exact absurd (hno (.inr rfl)) (by simp [Destruction.destroyed])
      | false => exact absurd (hno (.inl rfl)) (by simp [Destruction.destroyed])
  | @gone l before after p' free' split held told same consumed inv' =>
    refine ⟨fun _ => ⟨?_, ?_⟩, fun _ => told⟩
    · rw [split, ← held]
      exact mem_map_of_mem (mem_append_right _ (mem_cons_self ..))
    · cases destruction with
      | kept e => cases consumed
      | gone io => exact ⟨io, rfl⟩

end

end Steps

/-- **The accounts of the connection pool.** In every state of every run slots, bytes and leases are those of
    the current adoptions; lookup and release succeed for current leases only; and every adopted connection is
    the pool's or was destroyed, once. -/
theorem pool_accounting {κ : Type} [DecidableEq κ] {s : PoolCustody κ} (history : PoolHistory κ s) :
    s.pool.leasedSlots + s.pool.availableSlots = s.pool.capacity.toNat ∧
    s.pool.leasedSlots = s.current.length ∧
    s.pool.storage.inUseCount.toNat = s.pool.leasedSlots ∧
    s.pool.bufferCapacityBytes = (s.current.map (·.bufferBytes)).sum ∧
    s.pool.bufferCapacityBytes ≤ s.pool.maxBufferBytes ∧
    (s.adopted.map (·.lease)).Nodup ∧
    (∀ lease connection, s.pool.lookup lease = .ok connection ↔
      ∃ l ∈ s.current, l.lease = lease ∧ l.owner = connection) ∧
    (∀ lease destruction, ((s.pool.release lease (Destruction.destroyed destruction)).1 = .ok ∨
        (s.pool.release lease destruction.destroyed).1 = .io) ↔
      lease ∈ s.current.map (·.lease) ∧ ∃ io, destruction = .gone io) ∧
    (s.adopted.map (·.owner)).Nodup ∧
    (s.adopted.map (·.owner)).Perm (s.current.map (·.owner) ++ s.destroyed) ∧
    (∀ owner ∈ s.caller, owner ∉ s.current.map (·.owner)) ∧
    ∀ owner inspect transport e, (s.pool.adopt owner inspect transport).1 = .error e →
      s.adopt owner inspect transport = s := by
  have inv := custodyInv_of_history history
  obtain ⟨free, hpool⟩ := inv.pool
  have hhands := nodup_append.mp inv.hands
  have hleased := hpool.leased
  have havailable := hpool.available
  have hcount := hpool.storage.count
  rw [length_map] at hcount
  refine ⟨by omega, hleased, hcount.trans hleased.symm, hpool.buffers, hpool.within, inv.leases,
    fun lease connection => lookup_eq_ok_iff hpool, release_ok_iff inv, hhands.2.1, inv.destroyed,
    fun owner howner hmem => ?_, fun owner inspect transport e h => adopt_refused inv owner h⟩
  obtain ⟨l, hl, rfl⟩ := mem_map.mp hmem
  exact hhands.2.2 _ howner _ (mem_map_of_mem (mem_of_mem_filter hl)) rfl

/-- One connection is adopted, is in use at first, and is then destroyed with an I/O error. -/
theorem pool_accounting_one :
    let options : ConnectionPoolOptions := ⟨1, 65536, 8⟩
    let start : PoolCustody Nat := ⟨.fresh (.fresh ⟨8, 8, 1, 8, 8⟩ 168 65224 24 1 0) options, [], [], [], []⟩
    let s := ((start.exec (.bring 7)).exec (.adopt 7 (.ok ⟨1, 1, 2, false, false, .open⟩) (.ok ()))).exec
      (.release ⟨1, 0, 1⟩ (.kept .busy))
    s.pool.bufferCapacityBytes = 2 ∧ s.pool.lookup ⟨1, 0, 1⟩ = .ok 7 ∧
      (s.exec (.release ⟨1, 0, 1⟩ (.gone true))).destroyed = [7] := by
  intro options start s
  have history : PoolHistory Nat s := .step (.step (.step (.start ConnectionPool.create_one) _) _) _
  have hcurrent : s.current = [⟨⟨1, 0, 1⟩, 7, 2⟩] := rfl
  have accounts := pool_accounting history
  rw [hcurrent] at accounts
  exact ⟨accounts.2.2.2.1,
    (accounts.2.2.2.2.2.2.1 ⟨1, 0, 1⟩ 7).mpr ⟨⟨⟨1, 0, 1⟩, 7, 2⟩, mem_cons_self .., rfl, rfl⟩, by decide⟩

end Vireo.Net
