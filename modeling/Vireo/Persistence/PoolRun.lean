/-
  File:      Vireo/Persistence/PoolRun.lean
  Subject:   THE CONNECTION POOL UNDER ANY NUMBER OF THREADS.

  A system is the pool, a program counter for every thread, and the history: which connections
  were opened and disposed, which leases were issued. A step is one critical section, or one
  database call made while the pool is unlocked; wake-ups need no signal, so they may be spurious.

  Per the pool's contract a destruction is exclusive with another one, and nothing touches a pool
  after its memory was released; other calls may overlap with the destruction, and they are
  allowed to have read `destroying` before it was set.
-/
import Vireo.Lib.Custody
import Vireo.Persistence.Pool
import Mathlib.Logic.Relation

namespace Vireo.Persistence

open Vireo.Lib Function

/-! ## 1. The system -/

/-- Where a thread is between two critical sections. -/
inductive Pc where
  | outside
  | waiting (timeoutMs : Nat) (deadline : Timespec)
  /-- A release after its first critical section, about to restore or to dispose. -/
  | returning (slot : Nat) (connection : Option Nat) (recycle : Bool)
  /-- A release that has restored or disposed its connection. -/
  | returned (slot : Nat) (connection : Option Nat)
  | refilling (slot : Nat)
  | refilled (slot : Nat) (connection : Option Nat)
  /-- A refill that found the pool closed and disposes its new connection. -/
  | refillClosing (slot : Nat) (connection : Option Nat)
  /-- A destruction with this many slots left to clear. -/
  | destroying (left : Nat)

/-- The connection a thread has in its hands. -/
def Pc.hand : Pc → Option Nat
  | .returning _ c _ | .returned _ c | .refilled _ c | .refillClosing _ c => c
  | _ => none

/-- The slot a thread has reserved, with the state it left the slot in. -/
def Pc.station : Pc → Option (Nat × SlotState)
  | .returning i _ _ | .returned i _ => some (i, .returning)
  | .refilling i | .refilled i _ | .refillClosing i _ => some (i, .refilling)
  | _ => none

/-- The slot a release will make idle again if nothing goes wrong. -/
def Pc.reusable : Pc → Option Nat
  | .returning i _ true => some i
  | .returned i (some _) => some i
  | _ => none

def Pc.isWaiting : Pc → Bool
  | .waiting _ _ => true
  | _ => false

/-- The pool, its threads, and the history: the connections opened so far are
    `0 .. opened - 1`. -/
structure System (T : Type*) where
  pool : Pool T
  pc : T → Pc
  opened : Nat
  disposed : List Nat
  issued : List (Nat × UInt64)
  freed : Bool

/-- A connection that was opened and not disposed. -/
def System.Open {T : Type*} (s : System T) (c : Nat) : Prop := c < s.opened ∧ c ∉ s.disposed

/-- The connection of a slot; that of a RETURNING slot is in the hands of the returning thread. -/
def PoolSlot.held {T : Type*} (slot : PoolSlot T) : Option Nat :=
  if slot.state = .idle ∨ slot.state = .leased then slot.connection else none

/-- Who holds which connection: slots and threads. -/
def System.holds {T : Type*} (s : System T) : Nat ⊕ T → Option Nat :=
  Sum.elim (PoolSlot.held ∘ s.pool.slots) (Pc.hand ∘ s.pc)

variable {T : Type*} [DecidableEq T]

def System.goto (s : System T) (t : T) (q : Pc) : System T :=
  { s with pc := update s.pc t q }

/-- The end of a turn of the acquire loop. -/
def System.turned (s : System T) (t : T) (timeoutMs : Nat) : Pool.Turn × Pool T → System T
  | (.finish _ lease, p) =>
    { s.goto t .outside with
      pool := p
      issued := (lease.toList.map fun l => (l.slot, l.generation)) ++ s.issued }
  | (.sleep d, p) => { s.goto t (.waiting timeoutMs d) with pool := p }

/-- The end of the first critical section of a release. -/
def System.released (s : System T) (t : T) :
    Except Result (Option Pool.Return) × Pool T → System T
  | (.ok (some r), p) => { s.goto t (.returning r.slot r.connection r.recycle) with pool := p }
  | (_, p) => { s with pool := p }

/-- The end of the first critical section of a refill. -/
def System.reserved (s : System T) (t : T) : Except Result Nat × Pool T → System T
  | (.ok i, p) => { s.goto t (.refilling i) with pool := p }
  | (.error _, p) => { s with pool := p }

/-- One critical section, or one database call outside of the lock. -/
inductive PoolStep : System T → System T → Prop
  | acquire (s : System T) (t : T) (guard outEmpty : Bool) (timeoutMs : Nat) (clock : Timespec)
      (hpc : s.pc t = .outside) :
      PoolStep s (s.turned t timeoutMs (s.pool.acquire t guard outEmpty timeoutMs clock))
  | wake (s : System T) (t : T) (timeoutMs : Nat) (deadline clock : Timespec)
      (hpc : s.pc t = .waiting timeoutMs deadline) :
      PoolStep s (s.turned t timeoutMs (s.pool.acquireTurn t timeoutMs (some deadline) clock))
  | borrow (s : System T) : PoolStep s s
  | release (s : System T) (t : T) (guard : Bool) (lease : Option Lease)
      (disposition : Disposition) (statements : Nat) (unusable : Bool)
      (hpc : s.pc t = .outside) :
      PoolStep s (s.released t (s.pool.release t guard lease disposition statements unusable))
  | restore (s : System T) (t : T) (i : Nat) (c : Option Nat) (ok : Bool)
      (hpc : s.pc t = .returning i c true) :
      PoolStep s (s.goto t (if ok then .returned i c else .returning i c false))
  | disposeReturn (s : System T) (t : T) (i : Nat) (c : Option Nat)
      (hpc : s.pc t = .returning i c false) :
      PoolStep s { s.goto t (.returned i none) with disposed := c.toList ++ s.disposed }
  | publishReturn (s : System T) (t : T) (i : Nat) (c : Option Nat)
      (hpc : s.pc t = .returned i c) :
      PoolStep s (match s.pool.publishReturn i c with
        | none => s.goto t (.returning i c false)
        | some p => { s.goto t .outside with pool := p })
  | refill (s : System T) (t : T) (guard : Bool) (hpc : s.pc t = .outside) :
      PoolStep s (s.reserved t (s.pool.refill guard))
  | openOk (s : System T) (t : T) (i : Nat) (hpc : s.pc t = .refilling i) :
      PoolStep s { s.goto t (.refilled i (some s.opened)) with opened := s.opened + 1 }
  | openFail (s : System T) (t : T) (i : Nat) (hpc : s.pc t = .refilling i) :
      PoolStep s (s.goto t (.refilled i none))
  | publishRefill (s : System T) (t : T) (i : Nat) (c : Option Nat)
      (hpc : s.pc t = .refilled i c) :
      PoolStep s (match s.pool.publishRefill i c with
        | none => s.goto t (.refillClosing i c)
        | some p => { s.goto t .outside with pool := p })
  | disposeRefill (s : System T) (t : T) (i : Nat) (c : Option Nat)
      (hpc : s.pc t = .refillClosing i c) :
      PoolStep s { s.goto t (.refilled i none) with disposed := c.toList ++ s.disposed }
  | close (s : System T) : PoolStep s { s with pool := s.pool.close }
  | destroyBusy (s : System T) (hbusy : s.pool.destroy.1 = .busy) : PoolStep s s
  | destroy (s : System T) (t : T) (hpc : s.pc t = .outside) (hfirst : s.pool.destroying = false)
      (hok : s.pool.destroy.1 = .ok) :
      PoolStep s { s.goto t (.destroying s.pool.capacity) with pool := s.pool.destroy.2 }
  | clear (s : System T) (t : T) (k : Nat) (hpc : s.pc t = .destroying (k + 1)) :
      PoolStep s { s.goto t (.destroying k) with
        pool := s.pool.clearSlot k
        disposed := (s.pool.slots k).connection.toList ++ s.disposed }
  | free (s : System T) (t : T) (hpc : s.pc t = .destroying 0) :
      PoolStep s { s.goto t .outside with freed := true }

/-- A system right after a successful creation. -/
def System.start (p : Pool T) : System T where
  pool := p
  pc _ := .outside
  opened := p.capacity
  disposed := []
  issued := []
  freed := false

/-- Every system reached from a creation, by any interleaving, while the pool exists. -/
inductive PoolRun : System T → Prop
  | start {id capacity maxWaiters : Nat} {opens : Nat → Bool} {p : Pool T}
      (h : Pool.create id capacity maxWaiters opens = .ok p) : PoolRun (.start p)
  | step {s s' : System T} (run : PoolRun s) (hf : s.freed = false) (h : PoolStep s s') :
      PoolRun s'

/-! ## 2. What a step can do -/

/-- The effects a step is made of. -/
inductive Move : System T → System T → Prop
  /-- A thread becomes a waiter. -/
  | sleep (s : System T) (t : T) (ms : Nat) (d : Timespec) (hpc : s.pc t = .outside)
      (hopen : s.pool.state = .opened) (hq : s.pool.waiters ≠ s.pool.maxWaiters) :
      Move s { s.goto t (.waiting ms d) with
        pool := { s.pool with waiters := s.pool.waiters + 1 } }
  /-- A waiter stops waiting. -/
  | leave (s : System T) (t : T) (ms : Nat) (d : Timespec) (hpc : s.pc t = .waiting ms d) :
      Move s { s.goto t .outside with pool := { s.pool with waiters := s.pool.waiters - 1 } }
  /-- An idle slot is leased. -/
  | grant (s : System T) (t : T) (i : Nat) (hpc : s.pc t = .outside)
      (hopen : s.pool.state = .opened) (hi : i < s.pool.capacity)
      (hidle : (s.pool.slots i).state = .idle) :
      Move s { s with
        pool := s.pool.grant t i
        issued := (i, (s.pool.slots i).generation + 1) :: s.issued }
  /-- A leased slot gives its connection to the returning thread. -/
  | detach (s : System T) (t : T) (i : Nat) (recycle : Bool) (hpc : s.pc t = .outside)
      (hi : i < s.pool.capacity) (hl : (s.pool.slots i).state = .leased)
      (hgen : recycle = true → (s.pool.slots i).generation ≠ u64Max) :
      Move s { s.goto t (.returning i (s.pool.slots i).connection recycle) with
        pool := { s.pool.setSlot i { s.pool.slots i with state := .returning } with
          leased := s.pool.leased - 1 } }
  /-- A thread goes on with the same connection and reservation. -/
  | turn (s : System T) (t : T) (q : Pc) (hand : q.hand = (s.pc t).hand)
      (station : q.station = (s.pc t).station) (hsome : q.station.isSome)
      (reusable : ∀ i, q.reusable = some i → (s.pc t).reusable = some i) : Move s (s.goto t q)
  /-- A thread disposes the connection in its hands. -/
  | dispose (s : System T) (t : T) (q : Pc) (hand : q.hand = none)
      (station : q.station = (s.pc t).station) (hsome : q.station.isSome)
      (reusable : q.reusable = none) :
      Move s { s.goto t q with disposed := (s.pc t).hand.toList ++ s.disposed }
  /-- A thread gives its reservation up and leaves the slot with what it has in its hands. -/
  | publish (s : System T) (t : T) (i : Nat) (st st' : SlotState)
      (station : (s.pc t).station = some (i, st))
      (hst : (st' = .idle ∧ s.pool.state = .opened ∧ (s.pc t).hand ≠ none ∧
          (s.pool.slots i).generation ≠ u64Max) ∨
        (st' = .vacant ∧ (s.pc t).hand = none ∧ (s.pool.slots i).generation ≠ u64Max) ∨
        (st' = .retired ∧ (s.pc t).hand = none)) :
      Move s { s.goto t .outside with
        pool := s.pool.setSlot i { s.pool.slots i with
          connection := (s.pc t).hand, state := st' } }
  /-- A vacant slot is reserved. -/
  | reserve (s : System T) (t : T) (i : Nat) (hpc : s.pc t = .outside)
      (hopen : s.pool.state = .opened) (hi : i < s.pool.capacity)
      (hv : (s.pool.slots i).state = .vacant) :
      Move s { s.goto t (.refilling i) with
        pool := s.pool.setSlot i { s.pool.slots i with state := .refilling } }
  /-- A new connection is opened. -/
  | connect (s : System T) (t : T) (i : Nat) (hpc : s.pc t = .refilling i) :
      Move s { s.goto t (.refilled i (some s.opened)) with opened := s.opened + 1 }
  | close (s : System T) : Move s { s with pool := s.pool.close }
  /-- The destruction starts. -/
  | destroy (s : System T) (t : T) (hpc : s.pc t = .outside) (hbusy : s.pool.busy = false) :
      Move s { s.goto t (.destroying s.pool.capacity) with
        pool := { s.pool with destroying := true } }
  | clear (s : System T) (t : T) (k : Nat) (hpc : s.pc t = .destroying (k + 1)) :
      Move s { s.goto t (.destroying k) with
        pool := s.pool.clearSlot k
        disposed := (s.pool.slots k).connection.toList ++ s.disposed }
  | free (s : System T) (t : T) (hpc : s.pc t = .destroying 0) :
      Move s { s.goto t .outside with freed := true }

/-- A connection where the state promises one, and a generation that the next lease can still increase. -/
structure PoolSlot.Ok (slot : PoolSlot T) (destroying : Bool) : Prop where
  full : destroying = false → slot.state = .idle ∨ slot.state = .leased → slot.connection ≠ none
  empty : slot.state = .vacant ∨ slot.state = .retired → slot.connection = none
  fresh : slot.state = .idle ∨ slot.state = .vacant ∨ slot.state = .refilling → slot.generation ≠ u64Max
  started : slot.state = .leased → slot.generation ≠ 0

/-- What every reached system keeps. -/
structure PoolInv (s : System T) : Prop where
  custody : Custody s.holds s.Open
  disposedNodup : s.disposed.Nodup
  disposedOpened : ∀ c ∈ s.disposed, c < s.opened
  station : ∀ t i st, (s.pc t).station = some (i, st) → i < s.pool.capacity ∧ (s.pool.slots i).state = st
  apart : ∀ t t' i st st', (s.pc t).station = some (i, st) → (s.pc t').station = some (i, st') → t = t'
  reusable : ∀ t i, (s.pc t).reusable = some i → (s.pool.slots i).generation ≠ u64Max
  slots : ∀ i, (s.pool.slots i).Ok s.pool.destroying
  beyond : ∀ i, s.pool.capacity ≤ i → (s.pool.slots i).state = .vacant
  leased : s.pool.leased = s.pool.leasedSlots
  waiting : ∃ ws : Finset T, (∀ t, t ∈ ws ↔ (s.pc t).isWaiting = true) ∧ ws.card = s.pool.waiters
  quota : s.pool.waiters ≤ s.pool.maxWaiters
  issuedNodup : s.issued.Nodup
  issuedBound : ∀ i g, (i, g) ∈ s.issued → g ≤ (s.pool.slots i).generation
  quiet : s.pool.destroying = true → s.pool.state = .closed ∧ s.pool.waiters = 0 ∧
    ∀ i, (s.pool.slots i).state ≠ .leased ∧ (s.pool.slots i).state ≠ .returning ∧
      (s.pool.slots i).state ≠ .refilling
  clearing : ∀ t k, s.pc t = .destroying k →
    s.pool.destroying = true ∧ ∀ i, k ≤ i → (s.pool.slots i).connection = none
  done : s.freed = true → s.pool.destroying = true ∧ ∀ i, (s.pool.slots i).connection = none

theorem goto_self {s : System T} {t : T} {q : Pc} (h : s.pc t = q) : s.goto t q = s := by
  unfold System.goto
  rw [← h, update_eq_self]

omit [DecidableEq T] in
theorem firstIdle_some {p : Pool T} {i : Nat} (h : p.firstIdle = some i) :
    i < p.capacity ∧ (p.slots i).state = .idle := by
  unfold Pool.firstIdle at h
  have h1 := List.find?_some h
  have h2 := List.mem_of_find?_eq_some h
  exact ⟨List.mem_range.mp h2, by simpa using h1⟩

omit [DecidableEq T] in
theorem acquireTurn_enter (p : Pool T) (t : T) (ms : Nat) (clock : Timespec) :
    (∃ r, p.acquireTurn t ms none clock = (.finish r none, p)) ∨
    (∃ i, p.state = .opened ∧ p.firstIdle = some i ∧ p.acquireTurn t ms none clock =
      (.finish .ok (some ⟨p.id, i, (p.slots i).generation + 1⟩), p.grant t i)) ∨
    (∃ d, p.state = .opened ∧ p.waiters ≠ p.maxWaiters ∧ p.acquireTurn t ms none clock =
      (.sleep d, { p with waiters := p.waiters + 1 })) := by
  have hopen : ¬ p.state = .closed → p.state = .opened := by
    cases p.state <;> simp
  simp only [Pool.acquireTurn, Option.isSome_none, Option.any_none, Bool.false_eq_true, if_false]
  split
  · exact .inl ⟨_, rfl⟩
  rename_i hs
  split
  · rename_i i hi
    exact .inr (.inl ⟨i, hopen hs, hi, rfl⟩)
  · split
    · exact .inl ⟨_, rfl⟩
    · split
      · exact .inl ⟨_, rfl⟩
      · rename_i hq
        split
        · exact .inl ⟨_, rfl⟩
        · exact .inr (.inr ⟨_, hopen hs, fun e => hq (.inr e), rfl⟩)

omit [DecidableEq T] in
theorem acquireTurn_wake (p : Pool T) (t : T) (ms : Nat) (d clock : Timespec) :
    (∃ r, p.acquireTurn t ms (some d) clock = (.finish r none, { p with waiters := p.waiters - 1 })) ∨
    (∃ i, p.state = .opened ∧ p.firstIdle = some i ∧ p.acquireTurn t ms (some d) clock =
      (.finish .ok (some ⟨p.id, i, (p.slots i).generation + 1⟩),
        Pool.grant { p with waiters := p.waiters - 1 } t i)) ∨
    p.acquireTurn t ms (some d) clock = (.sleep d, p) := by
  have hopen : ¬ p.state = .closed → p.state = .opened := by
    cases p.state <;> simp
  simp only [Pool.acquireTurn, Option.isSome_some, if_true]
  split
  · exact .inl ⟨_, rfl⟩
  rename_i hs
  split
  · exact .inl ⟨_, rfl⟩
  split
  · rename_i i hi
    exact .inr (.inl ⟨i, hopen hs, hi, rfl⟩)
  · split
    · exact .inl ⟨_, rfl⟩
    · exact .inr (.inr rfl)

theorem identity_ok {p : Pool T} {t : T} {guard : Bool} {l : Lease} (h : p.identity t guard l = .ok) :
    l.owner = p.id ∧ l.slot < p.capacity ∧ (p.slots l.slot).state = .leased ∧
      (p.slots l.slot).generation = l.generation ∧ (p.slots l.slot).borrower = some t := by
  unfold Pool.identity at h
  split at h
  · cases h
  rename_i h1
  split at h
  · cases h
  rename_i h2
  split at h
  · cases h
  rename_i h3
  simp only [not_or, not_not, Bool.not_eq_false, Nat.not_le, ge_iff_le] at h1 h2 h3
  exact ⟨h1.1, h1.2.2, h2.1, h2.2, h3.2⟩

theorem release_turn (p : Pool T) (t : T) (guard : Bool) (lease : Option Lease) (dis : Disposition)
    (statements : Nat) (unusable : Bool) :
    (∃ r, (∀ x, r ≠ .ok (some x)) ∧ p.release t guard lease dis statements unusable = (r, p)) ∨
    ∃ l recycle, lease = some l ∧ p.identity t guard l = .ok ∧
      (recycle = true → (p.slots l.slot).generation ≠ u64Max) ∧
      p.release t guard lease dis statements unusable =
        (.ok (some ⟨l.slot, (p.slots l.slot).connection, recycle⟩),
          { p.setSlot l.slot { p.slots l.slot with state := .returning } with
            leased := p.leased - 1 }) := by
  unfold Pool.release
  split
  · exact .inl ⟨_, (fun x e => by cases e), rfl⟩
  rename_i l
  split
  · rename_i hid
    split
    · exact .inl ⟨_, (fun x e => by cases e), rfl⟩
    · refine .inr ⟨l, _, rfl, hid, fun e => ?_, rfl⟩
      exact (of_decide_eq_true e).2.2.2
  · exact .inl ⟨_, (fun x e => by cases e), rfl⟩

omit [DecidableEq T] in
theorem refill_turn (p : Pool T) (guard : Bool) : (∃ r, p.refill guard = (.error r, p)) ∨
    ∃ i, p.state = .opened ∧ i < p.capacity ∧ (p.slots i).state = .vacant ∧
      p.refill guard = (.ok i, p.setSlot i { p.slots i with state := .refilling }) := by
  unfold Pool.refill
  split
  · exact .inl ⟨_, rfl⟩
  split
  · exact .inl ⟨_, rfl⟩
  rename_i hs
  split
  · exact .inl ⟨_, rfl⟩
  rename_i i hi
  have h1 := List.find?_some hi
  have h2 := List.mem_of_find?_eq_some hi
  refine .inr ⟨i, ?_, List.mem_range.mp h2, by simpa using h1, rfl⟩
  cases hst : p.state with
  | opened => rfl
  | closed => exact absurd hst hs

theorem opened_of_ne {state : PoolState} (h : state ≠ .closed) : state = .opened := by
  cases state with
  | opened => rfl
  | closed => exact absurd rfl h

theorem turn_from {s : System T} {t : T} {p q : Pc} (hpc : s.pc t = p) (hand : q.hand = p.hand)
    (station : q.station = p.station) (hsome : q.station.isSome)
    (reusable : ∀ i, q.reusable = some i → p.reusable = some i) : Move s (s.goto t q) := by
  subst hpc
  exact .turn s t q hand station hsome reusable

theorem move_of_step {s s' : System T} (inv : PoolInv s) (h : PoolStep s s') :
    Relation.ReflTransGen Move s s' := by
  cases h with
  | acquire t guard outEmpty ms clock hpc =>
      have key : ∀ r, s.turned t ms (.finish r none, s.pool) = s := by
        intro r
        show { s.goto t .outside with pool := s.pool, issued := s.issued } = s
        rw [goto_self hpc]
      unfold Pool.acquire
      split
      · rw [key]
      split
      · rw [key]
      rcases acquireTurn_enter s.pool t ms clock with
        ⟨r, e⟩ | ⟨i, ho, hi, e⟩ | ⟨d, ho, hq, e⟩
      · rw [e, key]
      · obtain ⟨hlt, hidle⟩ := firstIdle_some hi
        have m := Move.grant s t i hpc ho hlt hidle
        have es : s.turned t ms (s.pool.acquireTurn t ms none clock) = { s with
            pool := s.pool.grant t i
            issued := (i, (s.pool.slots i).generation + 1) :: s.issued } := by
          rw [e]
          simp only [System.turned, goto_self hpc]
          rfl
        rw [es]
        exact .single m
      · rw [e]
        exact .single (.sleep s t ms d hpc ho hq)
  | wake t ms d clock hpc =>
      rcases acquireTurn_wake s.pool t ms d clock with ⟨r, e⟩ | ⟨i, ho, hi, e⟩ | e
      · rw [e]
        exact .single (.leave s t ms d hpc)
      · obtain ⟨hlt, hidle⟩ := firstIdle_some hi
        rw [e]
        refine (Relation.ReflTransGen.single (.leave s t ms d hpc)).tail ?_
        exact .grant { s.goto t .outside with
          pool := { s.pool with waiters := s.pool.waiters - 1 } } t i
          (update_self _ _ _) ho hlt hidle
      · have es : s.turned t ms (s.pool.acquireTurn t ms (some d) clock) = s := by
          rw [e]
          show { s.goto t (.waiting ms d) with pool := s.pool } = s
          rw [goto_self hpc]
        rw [es]
  | borrow => exact .refl
  | release t guard lease dis statements unusable hpc =>
      rcases release_turn s.pool t guard lease dis statements unusable with
        ⟨r, hr, e⟩ | ⟨l, recycle, rfl, hid, hgen, e⟩
      · have es : s.released t (r, s.pool) = s := by
          unfold System.released
          split
          · rename_i x p heq
            exact absurd (Prod.mk.inj heq).1 (hr x)
          · rename_i heq
            obtain ⟨-, rfl⟩ := Prod.mk.inj heq
            rfl
        rw [e, es]
      · obtain ⟨-, hlt, hl, -⟩ := identity_ok hid
        rw [e]
        exact .single (.detach s t l.slot recycle hpc hlt hl hgen)
  | restore t i c ok hpc =>
      cases ok with
      | true =>
          refine .single (turn_from hpc rfl rfl rfl fun j hj => ?_)
          cases c with
          | none => cases hj
          | some c => exact hj
      | false => exact .single (turn_from hpc rfl rfl rfl nofun)
  | disposeReturn t i c hpc =>
      have m := Move.dispose s t (.returned i none) rfl (by rw [hpc]; rfl) rfl rfl
      rw [hpc] at m
      exact .single m
  | publishReturn t i c hpc =>
      refine .single ?_
      have hst : (s.pc t).station = some (i, .returning) := by rw [hpc]; rfl
      have hhand : (s.pc t).hand = c := by rw [hpc]; rfl
      unfold Pool.publishReturn
      split
      · exact turn_from hpc rfl rfl rfl nofun
      · rename_i p heq
        split at heq
        · cases heq
        rename_i hnot
        obtain rfl := Option.some.inj heq
        have m := Move.publish s t i .returning (if c.isSome then .idle
            else if (s.pool.slots i).generation = u64Max then .retired else .vacant) hst ?_
        · rw [hhand] at m
          exact m
        · rw [hhand]
          cases c with
          | some c =>
              exact .inl ⟨rfl, opened_of_ne fun hs => hnot ⟨rfl, hs⟩, by simp, inv.reusable t i (by rw [hpc]; rfl)⟩
          | none =>
              by_cases hg : (s.pool.slots i).generation = u64Max
              · exact .inr (.inr ⟨by simp [hg], rfl⟩)
              · exact .inr (.inl ⟨by simp [hg], rfl, hg⟩)
  | refill t guard hpc =>
      rcases refill_turn s.pool guard with ⟨r, e⟩ | ⟨i, ho, hi, hv, e⟩
      · rw [e]
        exact .refl
      · rw [e]
        exact .single (.reserve s t i hpc ho hi hv)
  | openOk t i hpc => exact .single (.connect s t i hpc)
  | openFail t i hpc =>
      exact .single (turn_from hpc rfl rfl rfl nofun)
  | publishRefill t i c hpc =>
      refine .single ?_
      have hst : (s.pc t).station = some (i, .refilling) := by rw [hpc]; rfl
      have hhand : (s.pc t).hand = c := by rw [hpc]; rfl
      have hgen := (inv.slots i).fresh (.inr (.inr (inv.station t i _ hst).2))
      unfold Pool.publishRefill
      split
      · exact turn_from hpc rfl rfl rfl nofun
      · rename_i p heq
        split at heq
        · cases heq
        rename_i hnot
        obtain rfl := Option.some.inj heq
        have m := Move.publish s t i .refilling (if c.isSome then .idle else .vacant) hst ?_
        · rw [hhand] at m
          exact m
        · rw [hhand]
          cases c with
          | some c =>
              exact .inl ⟨rfl, opened_of_ne fun hs => hnot ⟨rfl, hs⟩, by simp, hgen⟩
          | none => exact .inr (.inl ⟨rfl, rfl, hgen⟩)
  | disposeRefill t i c hpc =>
      have m := Move.dispose s t (.refilled i none) rfl (by rw [hpc]; rfl) rfl rfl
      rw [hpc] at m
      exact .single m
  | close => exact .single (.close s)
  | destroyBusy hbusy => exact .refl
  | destroy t hpc hfirst hok =>
      have hb : s.pool.busy = false := by
        unfold Pool.destroy at hok
        split at hok
        · cases hok
        · rename_i hb
          exact Bool.eq_false_iff.mpr hb
      have e : s.pool.destroy.2 = { s.pool with destroying := true } := by
        unfold Pool.destroy
        rw [if_neg (by rw [hb]; simp)]
      rw [e]
      exact .single (.destroy s t hpc hb)
  | clear t k hpc => exact .single (.clear s t k hpc)
  | free t hpc => exact .single (.free s t hpc)

end Vireo.Persistence
