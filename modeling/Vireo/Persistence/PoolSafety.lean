/-
  File:      Vireo/Persistence/PoolSafety.lean
  Subject:   THE CONNECTION POOL IS SAFE UNDER EVERY INTERLEAVING.
-/
import Vireo.Persistence.PoolInvariant

namespace Vireo.Persistence

open Vireo.Lib Function List

variable {T : Type*} [DecidableEq T] {s : System T}

/-! ## 1. The invariant on runs -/

variable {opens : Nat → Bool}

omit [DecidableEq T] in
theorem poolInv_start {id capacity maxWaiters : Nat} {p : Pool T}
    (h : Pool.create id capacity maxWaiters opens = .ok p) : PoolInv (.start p) := by
  obtain rfl : Pool.created id capacity maxWaiters = p := by
    unfold Pool.create at h
    split at h
    · exact Except.ok.inj h
    · cases h
  have hslot : ∀ i, ((.created id capacity maxWaiters : Pool T).slots i =
        ⟨.idle, 0, none, some i⟩ ∧ i < capacity) ∨
      ((.created id capacity maxWaiters : Pool T).slots i = ⟨.vacant, 0, none, none⟩ ∧ capacity ≤ i) := by
    intro i
    by_cases hi : i < capacity
    · exact .inl ⟨if_pos hi, hi⟩
    · exact .inr ⟨if_neg hi, Nat.not_lt.mp hi⟩
  have hheld : ∀ i c, ((.created id capacity maxWaiters : Pool T).slots i).held = some c ↔
      i = c ∧ i < capacity := by
    intro i c
    rcases hslot i with ⟨e, hi⟩ | ⟨e, hi⟩
    · rw [e]
      simp [PoolSlot.held, hi]
    · rw [e]
      simp only [PoolSlot.held, reduceCtorEq, or_self, if_false, false_iff, not_and]
      omega
  refine
    { custody := ⟨?_, ?_, ?_⟩
      disposedNodup := nodup_nil
      disposedOpened := fun c hc => absurd hc not_mem_nil
      station := fun t i st h => by cases h
      apart := fun t t' i st st' h => by cases h
      reusable := fun t i h => by cases h
      slots := fun i => ?_
      beyond := fun i hi => ?_
      leased := ?_
      waiting := ⟨∅, fun t => ⟨fun h => absurd h (Finset.notMem_empty t), fun h => by cases h⟩, rfl⟩
      quota := Nat.zero_le _
      issuedNodup := nodup_nil
      issuedBound := fun i g h => absurd h not_mem_nil
      quiet := fun h => by cases h
      clearing := fun t k h => by cases h
      done := fun h => by cases h }
  · rintro (i | t) c e
    · obtain ⟨rfl, hi⟩ := (hheld i c).mp e
      exact ⟨hi, not_mem_nil⟩
    · cases e
  · rintro (i | t) (j | t') c e e'
    · rw [((hheld i c).mp e).1, ((hheld j c).mp e').1]
    · cases e'
    · cases e
    · cases e
  · rintro c ⟨hc, -⟩
    exact ⟨.inl c, (hheld c c).mpr ⟨rfl, hc⟩⟩
  · rcases hslot i with ⟨e, -⟩ | ⟨e, -⟩
    · show PoolSlot.Ok ((.created id capacity maxWaiters : Pool T).slots i) _
      rw [e]
      refine ⟨fun _ _ => by simp, ?_, fun _ => by simp [u64Max], fun h => by cases h⟩
      rintro (h | h) <;> cases h
    · show PoolSlot.Ok ((.created id capacity maxWaiters : Pool T).slots i) _
      rw [e]
      refine ⟨?_, fun _ => rfl, fun _ => by simp [u64Max], fun h => by cases h⟩
      rintro - (h | h) <;> cases h
  · rcases hslot i with ⟨-, h⟩ | ⟨e, -⟩
    · exact absurd h (Nat.not_lt.mpr hi)
    · show ((.created id capacity maxWaiters : Pool T).slots i).state = .vacant
      rw [e]
  · show 0 = Finset.card _
    symm
    rw [Finset.card_eq_zero, Finset.filter_eq_empty_iff]
    intro i hi hl
    rcases hslot i with ⟨e, -⟩ | ⟨e, -⟩
    · change ((.created id capacity maxWaiters : Pool T).slots i).state = .leased at hl
      rw [e] at hl
      cases hl
    · change ((.created id capacity maxWaiters : Pool T).slots i).state = .leased at hl
      rw [e] at hl
      cases hl

theorem poolInv_of_run (run : PoolRun s) : PoolInv s := by
  induction run with
  | start h => exact poolInv_start h
  | step _ _ h ih => exact poolInv_moves ih (move_of_step ih h)

/-- The slot of the lease is leased to the thread, with the lease's generation. -/
structure System.Current (s : System T) (t : T) (l : Lease) : Prop where
  owner : l.owner = s.pool.id
  slot : l.slot < s.pool.capacity
  leased : (s.pool.slots l.slot).state = .leased
  generation : (s.pool.slots l.slot).generation = l.generation
  borrower : (s.pool.slots l.slot).borrower = some t

theorem identity_iff (inv : PoolInv s) (t : T) (l : Lease) :
    s.pool.identity t true l = .ok ↔ s.Current t l := by
  constructor
  · intro h
    obtain ⟨h1, h3, h4, h5, h7⟩ := identity_ok h
    exact ⟨h1, h3, h4, h5, h7⟩
  · intro h
    have hgen := (inv.slots l.slot).started h.leased
    rw [h.generation] at hgen
    unfold Pool.identity
    rw [if_neg, if_neg, if_neg]
    · simp [h.borrower]
    · simp [h.leased, h.generation]
    · simp only [h.owner, hgen, ne_eq, not_true_eq_false, ge_iff_le, false_or, Nat.not_le]
      exact h.slot

/-! ## 2. A closed pool -/

variable {s' : System T}

/-- What a move does to a closed pool: it stays closed, issues no lease, makes no slot idle. -/
theorem move_closed (h : Move s s') (hc : s.pool.state = .closed) :
    s'.pool.state = .closed ∧ s'.issued = s.issued ∧
      ∀ i, (s'.pool.slots i).state = .idle → (s.pool.slots i).state = .idle := by
  have hno : ¬ s.pool.state = .opened := by rw [hc]; simp
  have hset : ∀ (i : Nat) (v : PoolSlot T), v.state ≠ .idle → ∀ j,
      (update s.pool.slots i v j).state = .idle → (s.pool.slots j).state = .idle := by
    intro i v hv j hj
    rcases update_cases s.pool.slots i v j with ⟨-, e⟩ | ⟨-, e⟩
    · rw [e] at hj
      exact absurd hj hv
    · rwa [e] at hj
  cases h with
  | sleep t ms d hpc hopen hq => exact absurd hopen hno
  | leave t ms d hpc => exact ⟨hc, rfl, fun i h => h⟩
  | grant t i hpc hopen hi hidle => exact absurd hopen hno
  | detach t i recycle hpc hi hl hgen => exact ⟨hc, rfl, hset i _ (by simp)⟩
  | turn t q hand station hsome reusable => exact ⟨hc, rfl, fun i h => h⟩
  | dispose t q hand station hsome reusable => exact ⟨hc, rfl, fun i h => h⟩
  | publish t i st st' station hst =>
      refine ⟨hc, rfl, hset i _ ?_⟩
      rcases hst with h | h | h
      · exact absurd h.2.1 hno
      · rw [h.1]
        simp
      · rw [h.1]
        simp
  | reserve t i hpc hopen hi hv => exact absurd hopen hno
  | connect t i hpc => exact ⟨hc, rfl, fun i h => h⟩
  | close => exact ⟨rfl, rfl, fun i h => h⟩
  | destroy t hpc hbusy => exact ⟨hc, rfl, fun i h => h⟩
  | clear t k hpc =>
      refine ⟨hc, rfl, fun i h => ?_⟩
      rcases update_cases s.pool.slots k { s.pool.slots k with connection := none } i with
        ⟨rfl, e⟩ | ⟨-, e⟩
      · change (update s.pool.slots i _ i).state = _ at h
        rw [e] at h
        exact h
      · change (update s.pool.slots k _ i).state = _ at h
        rw [e] at h
        exact h
  | free t hpc => exact ⟨hc, rfl, fun i h => h⟩

theorem moves_closed (h : Relation.ReflTransGen Move s s') (hc : s.pool.state = .closed) :
    s'.pool.state = .closed ∧ s'.issued = s.issued ∧
      ∀ i, (s'.pool.slots i).state = .idle → (s.pool.slots i).state = .idle := by
  induction h with
  | refl => exact ⟨hc, rfl, fun i h => h⟩
  | tail _ hm ih =>
      obtain ⟨h1, h2, h3⟩ := ih
      obtain ⟨k1, k2, k3⟩ := move_closed hm h1
      exact ⟨k1, k2.trans h2, fun i h => h3 i (k3 i h)⟩

/-- A step while the pool exists. -/
def PoolNext (s s' : System T) : Prop := s.freed = false ∧ PoolStep s s'

theorem moves_of_future (inv : PoolInv s) (h : Relation.ReflTransGen PoolNext s s') :
    Relation.ReflTransGen Move s s' := by
  induction h with
  | refl => exact .refl
  | tail _ hm ih => exact ih.trans (move_of_step (poolInv_moves inv ih) hm.2)

/-! ## 3. Safety -/

theorem station_of_hand {q : Pc} {c : Nat} (h : q.hand = some c) : ∃ i st, q.station = some (i, st) := by
  cases q with
  | outside | waiting | refilling | destroying => cases h
  | _ => exact ⟨_, _, rfl⟩

/-- The safety of a pool in one of its states. -/
structure PoolSafety (s : System T) : Prop where
  /-- Every open connection is in one slot or in the hands of one thread. -/
  holder : ∀ c, s.Open c → ∃! h, s.holds h = some c
  /-- A thread with a connection in its hands is inside a release or a refill. -/
  hand : ∀ t c, s.holds (.inr t) = some c → ∃ i st, (s.pc t).station = some (i, st) ∧
    (s.pool.slots i).state = st ∧ (st = .returning ∨ st = .refilling)
  /-- A lease can be borrowed exactly when it is current; it then gives an open connection. -/
  borrow : ∀ t l, (∃ c, s.pool.borrow t true l = .ok (some c) ∧ s.Open c) ↔ s.Current t l
  borrowOnly : ∀ t l, (∃ c, s.pool.borrow t true l = .ok c) → s.Current t l
  /-- A lease can be released exactly when it is current, once its statements are closed. -/
  release : ∀ t l disposition unusable, (∃ r, (s.pool.release t true (some l) disposition 0
    unusable).1 = .ok (some r)) ↔ s.Current t l
  /-- No generation of a slot is issued twice. -/
  generations : s.issued.Nodup
  leased : s.pool.leased = s.pool.leasedSlots
  waiters : s.pool.waiters ≤ s.pool.maxWaiters
  /-- A closed pool stays closed, grants nothing and makes no slot idle. -/
  closed : s.pool.state = .closed → ∀ s', Relation.ReflTransGen PoolNext s s' →
    s'.pool.state = .closed ∧ s'.issued = s.issued ∧
      ∀ i, (s'.pool.slots i).state = .idle → (s.pool.slots i).state = .idle
  /-- Nothing is disposed twice, and only what was opened. -/
  disposedOnce : s.disposed.Nodup ∧ ∀ c ∈ s.disposed, c < s.opened
  /-- The destruction starts only when nobody uses the pool. -/
  destroyQuiet : s.pool.destroying = true → s.pool.state = .closed ∧
    (∀ i, (s.pool.slots i).state ≠ .leased ∧ (s.pool.slots i).state ≠ .returning ∧
      (s.pool.slots i).state ≠ .refilling) ∧ ∀ t, (s.pc t).isWaiting = false
  /-- Once the pool is gone every connection ever opened has been disposed. -/
  destroyed : s.freed = true → ∀ c, c < s.opened → c ∈ s.disposed

/-- **The pool is safe on every run**: for any number of threads, any interleaving, spurious
    wake-ups and failing restores and opens. -/
theorem pool_safe {s : System T} (run : PoolRun s) : PoolSafety s := by
  have inv := poolInv_of_run run
  have hcurrent : ∀ t l, s.Current t l → s.pool.destroying = false :=
    fun t l h => inv.not_destroying_of_state (.inl h.leased)
  refine
    { holder := fun c hc => inv.custody.existsUnique hc
      hand := fun t c h => ?_
      borrow := fun t l => ⟨?_, fun h => ?_⟩
      borrowOnly := ?_
      release := fun t l disposition unusable => ⟨?_, fun h => ?_⟩
      generations := inv.issuedNodup
      leased := inv.leased
      waiters := inv.quota
      closed := fun hc s' hs => moves_closed (moves_of_future inv hs) hc
      disposedOnce := ⟨inv.disposedNodup, inv.disposedOpened⟩
      destroyQuiet := fun hd => ?_
      destroyed := fun hf c hc => ?_ }
  · obtain ⟨i, st, hst⟩ := station_of_hand (show (s.pc t).hand = some c from h)
    exact ⟨i, st, hst, (inv.station t i st hst).2, station_state hst⟩
  · rintro ⟨c, h, -⟩
    unfold Pool.borrow at h
    split at h
    · cases h
    split at h
    · rename_i hid
      exact (identity_iff inv t l).mp hid
    · cases h
  · obtain ⟨c, hc⟩ : ∃ c, (s.pool.slots l.slot).connection = some c :=
      Option.ne_none_iff_exists'.mp
        ((inv.slots l.slot).full (hcurrent t l h) (.inr h.leased))
    refine ⟨c, ?_, inv.custody.sound (.inl l.slot) c ?_⟩
    · unfold Pool.borrow
      rw [if_neg (by rw [hcurrent t l h]; simp), (identity_iff inv t l).mpr h, ← hc]
    · show (s.pool.slots l.slot).held = some c
      simp [PoolSlot.held, h.leased, hc]
  · rintro t l ⟨c, h⟩
    unfold Pool.borrow at h
    split at h
    · cases h
    split at h
    · rename_i hid
      exact (identity_iff inv t l).mp hid
    · cases h
  · rintro ⟨r, h⟩
    rcases release_turn s.pool t true (some l) disposition 0 unusable with
      ⟨r', hr', e⟩ | ⟨l', recycle, e', hid, -, -⟩
    · rw [e] at h
      exact absurd h (hr' r)
    · obtain rfl := Option.some.inj e'
      exact (identity_iff inv t l).mp hid
  · unfold Pool.release
    simp only [(identity_iff inv t l).mpr h, ne_eq, not_true_eq_false, if_false]
    exact ⟨_, rfl⟩
  · obtain ⟨h1, h2, h3⟩ := inv.quiet hd
    refine ⟨h1, h3, fun t => ?_⟩
    obtain ⟨ws, hws, hcard⟩ := inv.waiting
    rw [h2, Finset.card_eq_zero] at hcard
    cases hw : (s.pc t).isWaiting with
    | false => rfl
    | true =>
        have := (hws t).mpr hw
        rw [hcard] at this
        exact absurd this (Finset.notMem_empty t)
  · obtain ⟨hd, hnone⟩ := inv.done hf
    refine Classical.byContradiction fun hnot => ?_
    obtain ⟨h, hh⟩ := inv.custody.total c ⟨hc, hnot⟩
    rcases h with i | t
    · change (s.pool.slots i).held = some c at hh
      unfold PoolSlot.held at hh
      rw [hnone i] at hh
      split at hh <;> cases hh
    · -- a thread with a connection has reserved a slot, which the destruction excludes
      obtain ⟨i, st, hst⟩ := station_of_hand (show (s.pc t).hand = some c from hh)
      have hstate := (inv.station t i st hst).2
      obtain ⟨-, hne1, hne2⟩ := (inv.quiet hd).2.2 i
      rcases station_state hst with rfl | rfl
      · exact hne1 hstate
      · exact hne2 hstate

/-- One thread acquires the only connection and discards it, the pool is closed and destroyed. -/
theorem pool_safe_sample : ∃ s : System Nat, s.freed = true ∧ s.disposed = [0] ∧ PoolSafety s := by
  have hcreate : (Pool.create 7 1 1 fun _ => true : Except (List Nat) (Pool Nat)) = .ok (.created 7 1 1) := rfl
  have r0 := PoolRun.start hcreate
  have r1 := r0.step rfl (.acquire _ 0 true true 0 ⟨0, 0⟩ rfl)
  have r2 := r1.step rfl (.release _ 0 true (some ⟨7, 0, 1⟩) .discard 0 false rfl)
  have r3 := r2.step rfl (.disposeReturn _ 0 0 (some 0) rfl)
  have r4 := r3.step rfl (.publishReturn _ 0 0 none rfl)
  have r5 := r4.step rfl (.close _)
  have r6 := r5.step rfl (.destroy _ 0 rfl rfl rfl)
  have r7 := r6.step rfl (.clear _ 0 0 rfl)
  have r8 := r7.step rfl (.free _ 0 rfl)
  exact ⟨_, rfl, rfl, pool_safe r8⟩

end Vireo.Persistence
