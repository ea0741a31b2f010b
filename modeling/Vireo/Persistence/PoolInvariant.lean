/-
  File:      Vireo/Persistence/PoolInvariant.lean
  Subject:   THE MOVES OF THE CONNECTION POOL KEEP ITS INVARIANT.
-/
import Vireo.Persistence.PoolRun
import Mathlib.Data.Sum.Basic
import Mathlib.Algebra.BigOperators.Group.Finset.Piecewise

namespace Vireo.Persistence

open Vireo.Lib Function List
open PoolSlot (held)

variable {T : Type*} [DecidableEq T] {s : System T} {t : T} {q : Pc}

/-! ## 1. What a change leaves alone -/

theorem update_cases {α β : Type*} [DecidableEq α] (f : α → β) (a : α) (b : β) (x : α) :
    (x = a ∧ update f a b x = b) ∨ (x ≠ a ∧ update f a b x = f x) := by
  by_cases h : x = a
  · exact .inl ⟨h, by rw [h, update_self]⟩
  · exact .inr ⟨h, update_of_ne h _ _⟩

theorem holds_pc (slots : Nat → PoolSlot T) (pc : T → Pc) (t : T) (q : Pc) :
    Sum.elim (held ∘ slots) (Pc.hand ∘ update pc t q) =
      update (Sum.elim (held ∘ slots) (Pc.hand ∘ pc)) (.inr t) q.hand := by
  rw [comp_update, Sum.update_elim_inr]

theorem holds_slots (slots : Nat → PoolSlot T) (pc : T → Pc) (i : Nat) (v : PoolSlot T) :
    Sum.elim (held ∘ update slots i v) (Pc.hand ∘ pc) =
      update (Sum.elim (held ∘ slots) (Pc.hand ∘ pc)) (.inl i) v.held := by
  rw [comp_update, Sum.update_elim_inl]

theorem custody_goto (inv : PoolInv s) (h : q.hand = (s.pc t).hand) :
    Custody (Sum.elim (held ∘ s.pool.slots) (Pc.hand ∘ update s.pc t q)) s.Open := by
  rw [holds_pc, h]
  have : update s.holds (.inr t) (s.pc t).hand = s.holds :=
    update_eq_self (.inr t : Nat ⊕ T) s.holds
  show Custody (update s.holds _ _) _
  rw [this]
  exact inv.custody

theorem custody_setSlot (inv : PoolInv s) {i : Nat} {v : PoolSlot T} (h : v.held = (s.pool.slots i).held) :
    Custody (Sum.elim (held ∘ update s.pool.slots i v) (Pc.hand ∘ s.pc)) s.Open := by
  rw [holds_slots, h]
  have : update s.holds (.inl i) (s.pool.slots i).held = s.holds :=
    update_eq_self (.inl i : Nat ⊕ T) s.holds
  show Custody (update s.holds _ _) _
  rw [this]
  exact inv.custody

omit [DecidableEq T] in
theorem leasedSlots_setSlot (p : Pool T) {i : Nat} (hi : i < p.capacity) (v : PoolSlot T) :
    (p.setSlot i v).leasedSlots + (if (p.slots i).state = .leased then 1 else 0) =
      p.leasedSlots + (if v.state = .leased then 1 else 0) := by
  have hm : i ∈ Finset.range p.capacity := Finset.mem_range.mpr hi
  have key : ∀ j, (if ((p.setSlot i v).slots j).state = .leased then 1 else 0) =
      update (fun j => if (p.slots j).state = .leased then 1 else 0) i
        (if v.state = .leased then 1 else 0) j := by
    intro j
    rcases update_cases p.slots i v j with ⟨rfl, e⟩ | ⟨hj, e⟩
    · rw [update_self]
      show (if (update p.slots j v j).state = _ then _ else _) = _
      rw [e]
    · rw [update_of_ne hj]
      show (if (update p.slots i v j).state = _ then _ else _) = _
      rw [e]
  unfold Pool.leasedSlots
  rw [Finset.card_filter, Finset.card_filter]
  show (∑ j ∈ Finset.range p.capacity, _) + _ = _
  rw [Finset.sum_congr rfl fun j _ => key j, Finset.sum_update_of_mem hm,
    Finset.sum_eq_add_sum_sdiff_singleton_of_mem hm
      (fun j => if (p.slots j).state = .leased then 1 else 0)]
  omega

theorem waiting_goto (inv : PoolInv s) (hq : q.isWaiting = (s.pc t).isWaiting) :
    ∃ ws : Finset T, (∀ t', t' ∈ ws ↔ (update s.pc t q t').isWaiting = true) ∧ ws.card = s.pool.waiters := by
  obtain ⟨ws, hws, hcard⟩ := inv.waiting
  refine ⟨ws, fun t' => ?_, hcard⟩
  rcases update_cases s.pc t q t' with ⟨rfl, e⟩ | ⟨-, e⟩
  · rw [e, hq, hws]
  · rw [e, hws]

/-! ## 2. The moves -/

section Moves

variable {s s' : System T} {t : T} {i : Nat} {v : PoolSlot T}

theorem station_state {q : Pc} {st : SlotState} (h : q.station = some (i, st)) :
    st = .returning ∨ st = .refilling := by
  cases q with
  | returning | returned => exact .inl (Prod.mk.inj (Option.some.inj h)).2.symm
  | refilling | refilled | refillClosing => exact .inr (Prod.mk.inj (Option.some.inj h)).2.symm
  | outside | waiting | destroying => cases h

theorem reusable_station {q : Pc} (h : q.reusable = some i) : q.station = some (i, .returning) := by
  unfold Pc.reusable at h
  split at h
  · obtain rfl := Option.some.inj h
    rfl
  · obtain rfl := Option.some.inj h
    rfl
  · cases h

section

variable (inv : PoolInv s)
include inv

/-- A thread without a reservation goes on, and so may the count of the waiting threads. -/
theorem poolInv_goto {q : Pc} {n : Nat} (hand : q.hand = (s.pc t).hand) (free : q.station = none)
    (clear : ∀ k, q = .destroying k → s.pool.destroying = true ∧ ∀ i, k ≤ i → (s.pool.slots i).connection = none)
    (waiting : ∃ ws : Finset T, (∀ t', t' ∈ ws ↔ (update s.pc t q t').isWaiting = true) ∧ ws.card = n)
    (quota : n ≤ s.pool.maxWaiters) (quiet : s.pool.destroying = true → n = 0) :
    PoolInv { s.goto t q with pool := { s.pool with waiters := n } } := by
  have hthread : ∀ t', update s.pc t q t' = q ∨ update s.pc t q t' = s.pc t' := fun t' =>
    (update_cases s.pc t q t').imp And.right And.right
  have station : ∀ {t' p}, (update s.pc t q t').station = some p → (s.pc t').station = some p := by
    intro t' p h
    rcases hthread t' with e | e <;> rw [e] at h
    · rw [free] at h
      cases h
    · exact h
  refine { inv with
    custody := custody_goto inv hand
    station := fun t' i st h => inv.station t' i st (station h)
    apart := fun t₁ t₂ i st st' h₁ h₂ => inv.apart t₁ t₂ i st st' (station h₁) (station h₂)
    reusable := fun t' i h => ?_
    waiting := waiting
    quota := quota
    quiet := fun hd => ⟨(inv.quiet hd).1, quiet hd, (inv.quiet hd).2.2⟩
    clearing := fun t' k h => ?_ }
  · change (update s.pc t q t').reusable = some i at h
    rcases hthread t' with e | e <;> rw [e] at h
    · have hs := reusable_station h
      rw [free] at hs
      cases hs
    · exact inv.reusable t' i h
  · change update s.pc t q t' = _ at h
    rcases hthread t' with e | e <;> rw [e] at h
    · exact clear k h
    · exact inv.clearing t' k h

theorem poolInv_sleep (ms : Nat) (d : Timespec) (hpc : s.pc t = .outside) (hopen : s.pool.state = .opened)
    (hq : s.pool.waiters ≠ s.pool.maxWaiters) :
    PoolInv { s.goto t (.waiting ms d) with
      pool := { s.pool with waiters := s.pool.waiters + 1 } } := by
  refine poolInv_goto inv (by rw [hpc]; rfl) rfl (fun k e => by cases e) ?_ (Nat.lt_of_le_of_ne inv.quota hq)
    fun hd => ?_
  · obtain ⟨ws, hws, hcard⟩ := inv.waiting
    have hnot : t ∉ ws := fun h => by
      have := (hws t).mp h
      rw [hpc] at this
      cases this
    refine ⟨insert t ws, fun t' => ?_, by rw [Finset.card_insert_of_notMem hnot, hcard]⟩
    rw [Finset.mem_insert]
    rcases update_cases s.pc t (.waiting ms d) t' with ⟨rfl, e⟩ | ⟨hne, e⟩
    · rw [e]
      exact ⟨fun _ => rfl, fun _ => .inl rfl⟩
    · rw [e, ← hws]
      exact ⟨fun h => h.resolve_left hne, .inr⟩
  · have := (inv.quiet hd).1
    rw [hopen] at this
    cases this

theorem poolInv_leave {ms : Nat} {d : Timespec} (hpc : s.pc t = .waiting ms d) :
    PoolInv { s.goto t .outside with
      pool := { s.pool with waiters := s.pool.waiters - 1 } } := by
  refine poolInv_goto inv (by rw [hpc]; rfl) rfl (fun k e => by cases e) ?_
    (Nat.le_trans (Nat.sub_le _ _) inv.quota) fun hd => by rw [(inv.quiet hd).2.1]
  obtain ⟨ws, hws, hcard⟩ := inv.waiting
  have hmem : t ∈ ws := (hws t).mpr (by rw [hpc]; rfl)
  refine ⟨ws.erase t, fun t' => ?_, by rw [Finset.card_erase_of_mem hmem, hcard]⟩
  rw [Finset.mem_erase]
  rcases update_cases s.pc t .outside t' with ⟨rfl, e⟩ | ⟨hne, e⟩
  · rw [e]
    exact ⟨fun h => absurd rfl h.1, fun h => by cases h⟩
  · rw [e, ← hws]
    exact ⟨fun h => h.2, fun h => ⟨hne, h⟩⟩

omit [DecidableEq T] in
theorem PoolInv.unreserved (h1 : (s.pool.slots i).state ≠ .returning) (h2 : (s.pool.slots i).state ≠ .refilling)
    :
    ∀ t st, (s.pc t).station ≠ some (i, st) := by
  intro t st h
  have e := (inv.station t i st h).2
  rcases station_state h with rfl | rfl
  · exact h1 e
  · exact h2 e

omit [DecidableEq T] in
theorem PoolInv.not_destroying_of_opened (h : s.pool.state = .opened) : s.pool.destroying = false := by
  cases hd : s.pool.destroying with
  | false => rfl
  | true =>
      have := (inv.quiet hd).1
      rw [h] at this
      cases this

omit [DecidableEq T] in
theorem PoolInv.not_destroying_of_state
    (h : (s.pool.slots i).state = .leased ∨ (s.pool.slots i).state = .returning ∨ (s.pool.slots i).state = .refilling) :
    s.pool.destroying = false := by
  cases hd : s.pool.destroying with
  | false => rfl
  | true =>
      obtain ⟨h1, h2, h3⟩ := (inv.quiet hd).2.2 i
      rcases h with h | h | h
      · exact absurd h h1
      · exact absurd h h2
      · exact absurd h h3

/-- One slot is rewritten and one thread moves on: what must hold of the two for the invariant
    to survive. -/
theorem poolInv_setSlot {q : Pc} {n m : Nat} {l : List (Nat × UInt64)} (hi : i < s.pool.capacity)
    (hnd : s.pool.destroying = false) (hother : ∀ t', t' ≠ t → ∀ st, (s.pc t').station ≠ some (i, st))
    (hq : q.station = none ∨ q.station = some (i, v.state))
    (hre : ∀ j, q.reusable = some j → v.generation ≠ u64Max) (hwait : q.isWaiting = (s.pc t).isWaiting)
    (hdes : ∀ k, q ≠ .destroying k) (hok : v.Ok false)
    (hcust : Custody (Sum.elim (held ∘ update s.pool.slots i v) (Pc.hand ∘ update s.pc t q)) s.Open)
    (hleased : n + (if (s.pool.slots i).state = .leased then 1 else 0) = s.pool.leased + (if v.state = .leased then 1 else 0))
    (hissued : l.Nodup) (hbound : ∀ j g, (j, g) ∈ l → g ≤ (update s.pool.slots i v j).generation) :
    PoolInv { s.goto t q with
      pool := { s.pool.setSlot i v with leased := n, highWatermark := m }
      issued := l } := by
  have hslot : ∀ j, (j = i ∧ update s.pool.slots i v j = v) ∨
      (j ≠ i ∧ update s.pool.slots i v j = s.pool.slots j) :=
    update_cases s.pool.slots i v
  have hthread : ∀ t', (t' = t ∧ update s.pc t q t' = q) ∨
      (t' ≠ t ∧ update s.pc t q t' = s.pc t') := update_cases s.pc t q
  refine
    { custody := hcust
      disposedNodup := inv.disposedNodup
      disposedOpened := inv.disposedOpened
      station := ?_
      apart := ?_
      reusable := ?_
      slots := fun j => ?_
      beyond := fun j hj => ?_
      leased := ?_
      waiting := waiting_goto inv hwait
      quota := inv.quota
      issuedNodup := hissued
      issuedBound := hbound
      quiet := fun hd => by rw [show s.pool.destroying = true from hd] at hnd; cases hnd
      clearing := ?_
      done := ?_ }
  · intro t' j st h
    show j < s.pool.capacity ∧ (update s.pool.slots i v j).state = st
    change (update s.pc t q t').station = _ at h
    rcases hthread t' with ⟨-, e⟩ | ⟨hne, e⟩
    · rw [e] at h
      rcases hq with hq | hq
      · rw [hq] at h
        cases h
      · rw [hq] at h
        obtain ⟨rfl, rfl⟩ := Prod.mk.inj (Option.some.inj h)
        exact ⟨hi, by rw [update_self]⟩
    · rw [e] at h
      obtain ⟨h1, h2⟩ := inv.station t' j st h
      rcases hslot j with ⟨rfl, -⟩ | ⟨-, ej⟩
      · exact absurd h (hother t' hne st)
      · exact ⟨h1, by rw [ej]; exact h2⟩
  · intro t₁ t₂ j st st' h₁ h₂
    change (update s.pc t q t₁).station = _ at h₁
    change (update s.pc t q t₂).station = _ at h₂
    -- a reservation of the moving thread is for slot `i`, which nobody else has reserved
    have mine : ∀ st, q.station = some (j, st) → j = i := by
      intro st h
      rcases hq with hq | hq
      · rw [hq] at h
        cases h
      · rw [hq] at h
        exact (Prod.mk.inj (Option.some.inj h)).1.symm
    rcases hthread t₁ with ⟨e1, f1⟩ | ⟨n1, f1⟩ <;> rcases hthread t₂ with ⟨e2, f2⟩ | ⟨n2, f2⟩ <;>
      rw [f1] at h₁ <;> rw [f2] at h₂
    · rw [e1, e2]
    · exact absurd (mine st h₁ ▸ h₂) (hother t₂ n2 st')
    · exact absurd (mine st' h₂ ▸ h₁) (hother t₁ n1 st)
    · exact inv.apart t₁ t₂ j st st' h₁ h₂
  · intro t' j h
    show (update s.pool.slots i v j).generation ≠ u64Max
    change (update s.pc t q t').reusable = _ at h
    rcases hthread t' with ⟨-, e⟩ | ⟨hne, e⟩
    · rw [e] at h
      have hji : j = i := by
        have hs := reusable_station h
        rcases hq with hq | hq
        · rw [hq] at hs
          cases hs
        · rw [hq] at hs
          exact (Prod.mk.inj (Option.some.inj hs)).1.symm
      rw [hji, update_self]
      exact hre j h
    · rw [e] at h
      rcases hslot j with ⟨rfl, -⟩ | ⟨-, ej⟩
      · exact absurd (reusable_station h) (hother t' hne _)
      · rw [ej]
        exact inv.reusable t' j h
  · show (update s.pool.slots i v j).Ok s.pool.destroying
    rcases hslot j with ⟨-, ej⟩ | ⟨-, ej⟩
    · rw [ej, hnd]
      exact hok
    · rw [ej]
      exact inv.slots j
  · show (update s.pool.slots i v j).state = .vacant
    rcases hslot j with ⟨rfl, -⟩ | ⟨-, ej⟩
    · exact absurd hi (Nat.not_lt.mpr hj)
    · rw [ej]
      exact inv.beyond j hj
  · show n = (s.pool.setSlot i v).leasedSlots
    have h := leasedSlots_setSlot s.pool hi v
    rw [inv.leased] at hleased
    omega
  · intro t' k h
    rcases hthread t' with ⟨-, e⟩ | ⟨-, e⟩
    · exact absurd (e.symm.trans h) (hdes k)
    have := (inv.clearing t' k (e.symm.trans h)).1
    rw [hnd] at this
    cases this
  · intro hf
    have := (inv.done hf).1
    rw [hnd] at this
    cases this

omit [DecidableEq T] in
theorem PoolInv.bound_setSlot (h : (s.pool.slots i).generation ≤ v.generation) :
    ∀ j g, (j, g) ∈ s.issued → g ≤ (update s.pool.slots i v j).generation := by
  intro j g hm
  rcases update_cases s.pool.slots i v j with ⟨rfl, e⟩ | ⟨-, e⟩
  · rw [e]
    exact UInt64.le_trans (inv.issuedBound _ _ hm) h
  · rw [e]
    exact inv.issuedBound _ _ hm

end

section

variable (inv : PoolInv s) {t : T} {i : Nat}
include inv

theorem poolInv_grant (hpc : s.pc t = .outside) (hopen : s.pool.state = .opened) (hi : i < s.pool.capacity)
    (hidle : (s.pool.slots i).state = .idle) :
    PoolInv { s with
      pool := s.pool.grant t i
      issued := (i, (s.pool.slots i).generation + 1) :: s.issued } := by
  have hnd := inv.not_destroying_of_opened hopen
  have hgen := (inv.slots i).fresh (.inl hidle)
  have hlt : (s.pool.slots i).generation.toNat + 1 < 2 ^ 64 := by
    have h1 := (s.pool.slots i).generation.toNat_lt
    have h2 : (s.pool.slots i).generation.toNat ≠ 2 ^ 64 - 1 := fun e =>
      hgen (UInt64.toNat_inj.mp (e.trans u64Max_toNat.symm))
    omega
  have hsucc : ((s.pool.slots i).generation + 1).toNat = (s.pool.slots i).generation.toNat + 1 := by
    rw [UInt64.toNat_add, UInt64.toNat_one, Nat.mod_eq_of_lt hlt]
  have hle : (s.pool.slots i).generation ≤ (s.pool.slots i).generation + 1 := by
    rw [UInt64.le_iff_toNat_le]
    omega
  have hfree := inv.unreserved (i := i) (by rw [hidle]; simp) (by rw [hidle]; simp)
  have key := poolInv_setSlot inv (t := t) (i := i) (q := .outside) (v := { s.pool.slots i with
      generation := (s.pool.slots i).generation + 1, state := .leased, borrower := some t })
    (n := s.pool.leased + 1) (m := (s.pool.grant t i).highWatermark)
    (l := (i, (s.pool.slots i).generation + 1) :: s.issued)
    hi hnd (fun t' _ => hfree t') (.inl rfl) (fun j h => by cases h) (by rw [hpc])
    (fun k e => by cases e) ?_ ?_ ?_ ?_ ?_
  · rw [goto_self hpc] at key
    exact key
  · refine ⟨fun _ _ => (inv.slots i).full hnd (.inl hidle), ?_, ?_, fun _ h0 => ?_⟩
    · rintro (h | h) <;> cases h
    · rintro (h | h | h) <;> cases h
    · have := congrArg UInt64.toNat h0
      simp only at this
      rw [hsucc, UInt64.toNat_zero] at this
      omega
  · rw [← hpc, update_eq_self]
    exact custody_setSlot inv (by simp [held, hidle])
  · rw [hidle]
    rfl
  · refine nodup_cons.mpr ⟨fun hm => ?_, inv.issuedNodup⟩
    have := UInt64.le_iff_toNat_le.mp (inv.issuedBound _ _ hm)
    omega
  · intro j g hm
    rcases mem_cons.mp hm with h | h
    · obtain ⟨rfl, rfl⟩ := Prod.mk.inj h
      rw [update_self]
      exact UInt64.le_refl _
    · exact inv.bound_setSlot hle j g h

theorem poolInv_detach {recycle : Bool} (hpc : s.pc t = .outside) (hi : i < s.pool.capacity)
    (hl : (s.pool.slots i).state = .leased) (hgen : recycle = true → (s.pool.slots i).generation ≠ u64Max) :
    PoolInv { s.goto t (.returning i (s.pool.slots i).connection recycle) with
      pool := { s.pool.setSlot i { s.pool.slots i with state := .returning } with
        leased := s.pool.leased - 1 } } := by
  have hnd := inv.not_destroying_of_state (i := i) (.inl hl)
  have hfree := inv.unreserved (i := i) (by rw [hl]; simp) (by rw [hl]; simp)
  have hpos : 0 < s.pool.leased := by
    have hc := leasedSlots_setSlot s.pool hi { s.pool.slots i with state := .idle }
    rw [inv.leased]
    simp only [hl, if_true, reduceCtorEq, if_false] at hc
    omega
  obtain ⟨c, hc⟩ : ∃ c, (s.pool.slots i).connection = some c :=
    Option.ne_none_iff_exists'.mp ((inv.slots i).full hnd (.inr hl))
  refine poolInv_setSlot inv hi hnd (fun t' _ => hfree t') (.inr rfl) ?_ (by rw [hpc]; rfl)
    (fun k e => by cases e) ?_ ?_ ?_ inv.issuedNodup (inv.bound_setSlot (UInt64.le_refl _))
  · intro j h
    cases recycle with
    | true => exact hgen rfl
    | false => cases h
  · refine ⟨?_, ?_, ?_, ?_⟩
    · rintro - (h | h) <;> cases h
    · rintro (h | h) <;> cases h
    · rintro (h | h | h) <;> cases h
    · nofun
  · -- the connection goes from the slot to the thread
    have h1 : s.holds (.inl i) = some c := by
      show (s.pool.slots i).held = some c
      simp [held, hl, hc]
    have h2 : s.holds (.inr t) = none := by
      show (s.pc t).hand = none
      rw [hpc]
      rfl
    have hh := inv.custody.hand h1 h2
    rw [holds_pc, holds_slots]
    have e1 : held { s.pool.slots i with state := .returning } = none := by
      simp [held]
    rw [e1]
    show Custody (update _ _ (s.pool.slots i).connection) _
    rw [hc]
    exact hh
  · simp only [hl, if_true, reduceCtorEq, if_false]
    omega

theorem poolInv_reserve (hpc : s.pc t = .outside) (hopen : s.pool.state = .opened) (hi : i < s.pool.capacity)
    (hv : (s.pool.slots i).state = .vacant) :
    PoolInv { s.goto t (.refilling i) with
      pool := s.pool.setSlot i { s.pool.slots i with state := .refilling } } := by
  have hnd := inv.not_destroying_of_opened hopen
  have hfree := inv.unreserved (i := i) (by rw [hv]; simp) (by rw [hv]; simp)
  refine poolInv_setSlot (n := s.pool.leased) (m := s.pool.highWatermark) inv hi hnd
    (fun t' _ => hfree t') (.inr rfl) (fun j h => by cases h) (by rw [hpc]; rfl)
    (fun k e => by cases e) ?_ ?_ ?_ inv.issuedNodup (inv.bound_setSlot (UInt64.le_refl _))
  · refine ⟨?_, ?_, fun _ => (inv.slots i).fresh (.inr (.inl hv)), ?_⟩
    · rintro - (h | h) <;> cases h
    · rintro (h | h) <;> cases h
    · nofun
  · rw [holds_pc]
    have hh := custody_setSlot inv (i := i)
      (v := { s.pool.slots i with state := .refilling }) (by simp [held, hv])
    have e : (Sum.elim (held ∘ update s.pool.slots i
        { s.pool.slots i with state := .refilling }) (Pc.hand ∘ s.pc)) (.inr t) =
        (Pc.refilling i).hand := by
      show (s.pc t).hand = _
      rw [hpc]
      rfl
    rw [← e, update_eq_self]
    exact hh
  · simp only [hv, reduceCtorEq, if_false]

theorem poolInv_publish {st st' : SlotState} (station : (s.pc t).station = some (i, st))
    (hst : (st' = .idle ∧ s.pool.state = .opened ∧ (s.pc t).hand ≠ none ∧
        (s.pool.slots i).generation ≠ u64Max) ∨
      (st' = .vacant ∧ (s.pc t).hand = none ∧ (s.pool.slots i).generation ≠ u64Max) ∨
      (st' = .retired ∧ (s.pc t).hand = none)) :
    PoolInv { s.goto t .outside with
      pool := s.pool.setSlot i { s.pool.slots i with
        connection := (s.pc t).hand, state := st' } } := by
  obtain ⟨hi, hstate⟩ := inv.station t i st station
  have hnot : (s.pool.slots i).state ≠ .leased ∧ (s.pool.slots i).state ≠ .idle := by
    rw [hstate]
    rcases station_state station with rfl | rfl <;> simp
  have hnd : s.pool.destroying = false := by
    refine inv.not_destroying_of_state (i := i) (.inr ?_)
    rw [hstate]
    exact station_state station
  have hleased : st' ≠ .leased := by
    rcases hst with h | h | h <;> (rw [h.1]; simp)
  refine poolInv_setSlot (n := s.pool.leased) (m := s.pool.highWatermark) inv hi hnd ?_
    (.inl rfl) (fun j h => by cases h) ?_ (fun k e => by cases e) ?_ ?_ ?_ inv.issuedNodup
    (inv.bound_setSlot (UInt64.le_refl _))
  · exact fun t' hne st'' h => hne (inv.apart t' t i st'' st h station)
  · cases hpc : s.pc t with
    | waiting => rw [hpc] at station; cases station
    | _ => rfl
  · refine ⟨?_, ?_, ?_, fun h => absurd h hleased⟩
    · rintro - (h | h)
      · rcases hst with hs | hs | hs
        · exact hs.2.2.1
        · rw [show st' = .idle from h] at hs
          cases hs.1
        · rw [show st' = .idle from h] at hs
          cases hs.1
      · exact absurd h hleased
    · intro h
      rcases hst with hs | hs | hs
      · rcases h with h | h
        · rw [show st' = .vacant from h] at hs
          cases hs.1
        · rw [show st' = .retired from h] at hs
          cases hs.1
      · exact hs.2.1
      · exact hs.2
    · intro h
      rcases hst with hs | hs | hs
      · exact hs.2.2.2
      · exact hs.2.2
      · rcases h with h | h | h <;> (rw [show st' = _ from h] at hs; cases hs.1)
  · have hold : (s.pool.slots i).held = none := by
      unfold held
      rw [if_neg]
      rintro (h | h)
      · exact hnot.2 h
      · exact hnot.1 h
    rw [holds_slots, holds_pc]
    rcases hst with ⟨rfl, -, hne, -⟩ | hs
    · obtain ⟨c, hc⟩ := Option.ne_none_iff_exists'.mp hne
      have h1 : s.holds (.inr t) = some c := hc
      have h2 : s.holds (.inl i) = none := hold
      have e : held { s.pool.slots i with
          connection := (s.pc t).hand, state := .idle } = some c := by
        simp [held, hc]
      rw [e]
      exact inv.custody.hand h1 h2
    · have hnone : (s.pc t).hand = none := by
        rcases hs with hs | hs
        · exact hs.2.1
        · exact hs.2
      have e : held { s.pool.slots i with
          connection := (s.pc t).hand, state := st' } = s.holds (.inl i) := by
        show _ = (s.pool.slots i).held
        rw [hold]
        unfold held
        rw [hnone]
        split <;> rfl
      have e2 : Pc.outside.hand = s.holds (.inr t) := hnone.symm
      rw [e, e2]
      show Custody (update (update s.holds _ _) _ _) _
      rw [update_eq_self, update_eq_self]
      exact inv.custody
  · rw [if_neg hnot.1, if_neg hleased]

/-- A thread that keeps its reservation: everything but custody and the history. -/
theorem poolInv_keep {q : Pc} {n : Nat} {l : List Nat} (station : q.station = (s.pc t).station)
    (hsome : q.station.isSome) (reusable : ∀ i, q.reusable = some i → (s.pc t).reusable = some i)
    (hcust : Custody (Sum.elim (held ∘ s.pool.slots)
      (Pc.hand ∘ update s.pc t q)) fun c => c < n ∧ c ∉ l) (hnodup : l.Nodup) (hopened : ∀ c ∈ l, c < n) :
    PoolInv { s.goto t q with opened := n, disposed := l } := by
  have hst : ∀ t', (update s.pc t q t').station = (s.pc t').station := by
    intro t'
    rcases update_cases s.pc t q t' with ⟨rfl, e⟩ | ⟨-, e⟩
    · rw [e, station]
    · rw [e]
  have hnowait : ∀ p : Pc, p.station.isSome → p.isWaiting = false ∧ ∀ k, p ≠ .destroying k := by
    intro p hp
    refine ⟨?_, fun k e => ?_⟩
    · cases p with
      | waiting => cases hp
      | _ => rfl
    · rw [e] at hp
      cases hp
  refine { inv with
    custody := hcust
    disposedNodup := hnodup
    disposedOpened := hopened
    station := fun t' i st h => inv.station t' i st ((hst t').symm.trans h)
    apart := fun t₁ t₂ i st st' h₁ h₂ =>
      inv.apart t₁ t₂ i st st' ((hst t₁).symm.trans h₁) ((hst t₂).symm.trans h₂)
    reusable := ?_
    waiting := waiting_goto inv ?_
    clearing := fun t' k h => ?_ }
  · intro t' i h
    change (update s.pc t q t').reusable = _ at h
    rcases update_cases s.pc t q t' with ⟨rfl, e⟩ | ⟨-, e⟩
    · rw [e] at h
      exact inv.reusable t' i (reusable i h)
    · rw [e] at h
      exact inv.reusable t' i h
  · rw [(hnowait q hsome).1, (hnowait (s.pc t) (station ▸ hsome)).1]
  · change update s.pc t q t' = _ at h
    rcases update_cases s.pc t q t' with ⟨-, e⟩ | ⟨-, e⟩ <;> rw [e] at h
    · exact absurd h ((hnowait q hsome).2 k)
    · exact inv.clearing t' k h

theorem poolInv_dispose {q : Pc} (hand : q.hand = none) (station : q.station = (s.pc t).station)
    (hsome : q.station.isSome) (reusable : q.reusable = none) :
    PoolInv { s.goto t q with disposed := (s.pc t).hand.toList ++ s.disposed } := by
  have hre : ∀ i, q.reusable = some i → (s.pc t).reusable = some i := by
    intro i h
    rw [reusable] at h
    cases h
  cases hc : (s.pc t).hand with
  | none =>
      exact poolInv_keep inv station hsome hre (custody_goto inv (hand.trans hc.symm))
        inv.disposedNodup inv.disposedOpened
  | some c =>
      have hlive := inv.custody.sound (.inr t) c hc
      refine poolInv_keep (n := s.opened) (l := c :: s.disposed) inv station hsome hre ?_
        (nodup_cons.mpr ⟨hlive.2, inv.disposedNodup⟩) ?_
      · rw [holds_pc, hand]
        refine inv.custody.drop (show s.holds (.inr t) = some c from hc) fun x => ?_
        simp only [System.Open, mem_cons, not_or]
        tauto
      · intro x hx
        rcases mem_cons.mp hx with rfl | hx
        · exact hlive.1
        · exact inv.disposedOpened x hx

theorem poolInv_connect (hpc : s.pc t = .refilling i) :
    PoolInv { s.goto t (.refilled i (some s.opened)) with opened := s.opened + 1 } := by
  refine poolInv_keep inv (by rw [hpc]; rfl) rfl (fun j h => by cases h) ?_ inv.disposedNodup
    fun c hc => Nat.lt_succ_of_lt (inv.disposedOpened c hc)
  rw [holds_pc]
  refine inv.custody.take (fun h => Nat.lt_irrefl _ h.1) ?_ fun x => ?_
  · show (s.pc t).hand = none
    rw [hpc]
    rfl
  · constructor
    · intro h
      by_cases e : x = s.opened
      · exact .inr e
      · exact .inl ⟨by omega, h.2⟩
    · rintro (h | rfl)
      · exact ⟨Nat.lt_succ_of_lt h.1, h.2⟩
      · exact ⟨Nat.lt_succ_self _, fun hm => Nat.lt_irrefl _ (inv.disposedOpened _ hm)⟩

end

omit [DecidableEq T] in
theorem not_busy {p : Pool T} (h : p.busy = false) :
    p.state = .closed ∧ p.waiters = 0 ∧ ∀ i, i < p.capacity →
      (p.slots i).state ≠ .leased ∧ (p.slots i).state ≠ .returning ∧ (p.slots i).state ≠ .refilling := by
  unfold Pool.busy at h
  simp only [Bool.or_eq_false_iff, decide_eq_false_iff_not, not_not, any_eq_false,
    mem_range, decide_eq_true_eq, not_or] at h
  exact ⟨h.1.1, h.1.2, h.2⟩

section

variable (inv : PoolInv s)
include inv

theorem poolInv_destroy (hpc : s.pc t = .outside) (hbusy : s.pool.busy = false) :
    PoolInv { s.goto t (.destroying s.pool.capacity) with
      pool := { s.pool with destroying := true } } := by
  obtain ⟨hclosed, hwait, hstates⟩ := not_busy hbusy
  have marked : PoolInv { s with pool := { s.pool with destroying := true } } := { inv with
    slots := fun i => ⟨(fun h => by cases h), (inv.slots i).empty, (inv.slots i).fresh, (inv.slots i).started⟩
    quiet := fun _ => ⟨hclosed, hwait, fun i => by
      by_cases hi : i < s.pool.capacity
      · exact hstates i hi
      · simp [inv.beyond i (Nat.not_lt.mp hi)]⟩
    clearing := fun t' k h => ⟨rfl, (inv.clearing t' k h).2⟩
    done := fun hf => ⟨rfl, (inv.done hf).2⟩ }
  refine poolInv_goto marked (by rw [hpc]; rfl) rfl (fun k e => ⟨rfl, fun i hk => ?_⟩)
    (waiting_goto marked (by rw [hpc]; rfl)) inv.quota fun _ => hwait
  obtain rfl := Pc.destroying.inj e
  exact (inv.slots i).empty (.inl (inv.beyond i hk))

theorem poolInv_clear {k : Nat} (hpc : s.pc t = .destroying (k + 1)) :
    PoolInv { s.goto t (.destroying k) with
      pool := s.pool.clearSlot k
      disposed := (s.pool.slots k).connection.toList ++ s.disposed } := by
  obtain ⟨hd, hcleared⟩ := inv.clearing t _ hpc
  obtain ⟨-, hwait, hstates⟩ := inv.quiet hd
  -- the connection a slot still has is one it is responsible for
  have hheld : (s.pool.slots k).held = (s.pool.slots k).connection := by
    unfold held
    split
    · rfl
    rename_i hno
    rw [(inv.slots k).empty]
    cases hs : (s.pool.slots k).state with
    | vacant => exact .inl rfl
    | retired => exact .inr rfl
    | idle => exact absurd (.inl hs) hno
    | leased => exact absurd (.inr hs) hno
    | returning => exact absurd hs (hstates k).2.1
    | refilling => exact absurd hs (hstates k).2.2
  have hlive : ∀ c, (s.pool.slots k).connection = some c → s.Open c := fun c hc =>
    inv.custody.sound (.inl k) c (hheld.trans hc)
  have hcust : Custody (Sum.elim (held ∘ update s.pool.slots k
      { s.pool.slots k with connection := none }) (Pc.hand ∘ s.pc))
      fun c => c < s.opened ∧ c ∉ (s.pool.slots k).connection.toList ++ s.disposed := by
    have hheld' : held { s.pool.slots k with connection := none } = none := by
      unfold held
      split <;> rfl
    rw [holds_slots, hheld']
    show Custody (update s.holds _ _) _
    cases hc : (s.pool.slots k).connection with
    | none =>
        have h0 : update s.holds (.inl k) none = s.holds := by
          rw [update_eq_self_iff]
          exact (hheld.trans hc).symm
        rw [h0]
        exact inv.custody
    | some c =>
        refine inv.custody.drop (show s.holds (.inl k) = some c from hheld.trans hc) fun x => ?_
        simp only [System.Open, Option.toList_some, singleton_append, mem_cons, not_or]
        tauto
  -- the slots keep all but the one connection
  have hpool : s.pool.clearSlot k = { s.pool with slots := fun j => { s.pool.slots j with
      connection := if j = k then none else (s.pool.slots j).connection } } := by
    unfold Pool.clearSlot Pool.setSlot
    congr 1
    funext j
    rcases update_cases s.pool.slots k { s.pool.slots k with connection := none } j with ⟨rfl, e⟩ | ⟨hj, e⟩
    · rw [e, if_pos rfl]
    · rw [e, if_neg hj]
  have hnone : ∀ {j}, (s.pool.slots j).connection = none →
      (if j = k then none else (s.pool.slots j).connection) = none := fun h => by rw [h, ite_self]
  have cleared : PoolInv { s with
      pool := s.pool.clearSlot k, disposed := (s.pool.slots k).connection.toList ++ s.disposed } := by
    refine { inv with
      custody := hcust
      disposedNodup := ?_
      disposedOpened := forall_mem_append.mpr
        ⟨fun x hx => (hlive x (Option.mem_toList.mp hx)).1, inv.disposedOpened⟩
      station := ?_, reusable := ?_, slots := ?_, beyond := ?_, leased := ?_, issuedBound := ?_, quiet := ?_
      clearing := ?_, done := ?_ }
    · cases hc : (s.pool.slots k).connection with
      | none => exact inv.disposedNodup
      | some c => exact nodup_cons.mpr ⟨(hlive c hc).2, inv.disposedNodup⟩
    all_goals rw [hpool]
    · exact inv.station
    · exact inv.reusable
    · exact fun i => ⟨fun h => absurd hd (by rw [show s.pool.destroying = false from h]; simp),
        fun h => hnone ((inv.slots i).empty h), (inv.slots i).fresh, (inv.slots i).started⟩
    · exact inv.beyond
    · exact inv.leased
    · exact inv.issuedBound
    · exact inv.quiet
    · exact fun t' k' h => ⟨hd, fun i hi => hnone ((inv.clearing t' k' h).2 i hi)⟩
    · exact fun hf => ⟨hd, fun i => hnone ((inv.done hf).2 i)⟩
  refine poolInv_goto cleared (by rw [hpc]; rfl) rfl (fun k' e => ⟨hd, fun i hi => ?_⟩)
    (waiting_goto cleared (by rw [hpc]; rfl)) inv.quota fun _ => hwait
  obtain rfl := Pc.destroying.inj e
  rw [hpool]
  dsimp only
  split
  · rfl
  · exact hcleared i (by omega)

theorem poolInv_free (hpc : s.pc t = .destroying 0) :
    PoolInv { s.goto t .outside with freed := true } := by
  obtain ⟨hd, hcleared⟩ := inv.clearing t _ hpc
  exact { poolInv_goto inv (by rw [hpc]; rfl) rfl (fun k e => by cases e) (waiting_goto inv (by rw [hpc]; rfl))
      inv.quota fun hd => (inv.quiet hd).2.1 with
    done := fun _ => ⟨hd, fun i => hcleared i (Nat.zero_le i)⟩ }

theorem poolInv_move (h : Move s s') : PoolInv s' := by
  cases h with
  | sleep t ms d hpc hopen hq => exact poolInv_sleep inv ms d hpc hopen hq
  | leave t ms d hpc => exact poolInv_leave inv hpc
  | grant t i hpc hopen hi hidle => exact poolInv_grant inv hpc hopen hi hidle
  | detach t i recycle hpc hi hl hgen => exact poolInv_detach inv hpc hi hl hgen
  | turn t q hand station hsome reusable =>
      exact poolInv_keep inv station hsome reusable (custody_goto inv hand) inv.disposedNodup
        inv.disposedOpened
  | dispose t q hand station hsome reusable => exact poolInv_dispose inv hand station hsome reusable
  | publish t i st st' station hst => exact poolInv_publish inv station hst
  | reserve t i hpc hopen hi hv => exact poolInv_reserve inv hpc hopen hi hv
  | connect t i hpc => exact poolInv_connect inv hpc
  | close => exact { inv with quiet := fun hd => ⟨rfl, (inv.quiet hd).2⟩ }
  | destroy t hpc hbusy => exact poolInv_destroy inv hpc hbusy
  | clear t k hpc => exact poolInv_clear inv hpc
  | free t hpc => exact poolInv_free inv hpc

theorem poolInv_moves (h : Relation.ReflTransGen Move s s') : PoolInv s' := by
  induction h with
  | refl => exact inv
  | tail _ hm ih => exact poolInv_move ih hm

end

end Moves

end Vireo.Persistence
