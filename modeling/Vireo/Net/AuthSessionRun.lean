/-
  File:      Vireo/Net/AuthSessionRun.lean
  Subject:   NO SESSION PASSES THAT SHOULD NOT: the table of the sessions over every run.
-/
import Vireo.Lib.Slots
import Vireo.Net.AuthSession

namespace Vireo.Net

open Base Lib List
open SessionSystem (commit exec reserve)

/-! ## 1. The calls -/

namespace AuthSessions

variable {t : AuthSessions}

theorem mem_handles {s : SessionSlot} {h : UInt32} :
    h ∈ s.handles ↔ s.active = true ∧ s.handle = h ∨ s.pending = true ∧ s.ticket.handle = h := by
  unfold SessionSlot.handles
  cases s.active <;> cases s.pending <;> simp [eq_comm]

/-- What a reserve comes to. -/
inductive Reserved (t : AuthSessions) (inspect : Lease → Except Failure CloseState) (client : Lease)
    (identity : SessionIdentity) : Except Result SessionTicket × AuthSessions → Prop
  | refused (e : Result) : Reserved t inspect client identity (.error e, t)
  | taken {s : SessionSlot} {handle : UInt32} {state : CloseState} (valid : leaseValid client)
      (named : identity.sessionId ≠ 0) (standing : identity.revoked = false) (current : inspect client = .ok state)
      (found : t.slots[client.slotIndex.toNat]? = some s) (room : t.serial ≠ u64Max) (nonzero : handle ≠ 0)
      (unused : handle ∉ t.slots.flatMap SessionSlot.handles) :
      Reserved t inspect client identity (.ok ⟨client, t.serial + 1, handle⟩, { t with
        slots := t.slots.set client.slotIndex.toNat { (if s.client = client then s else .of client) with
          candidate := identity, pending := true, ticket := ⟨client, t.serial + 1, handle⟩ }
        serial := t.serial + 1 })

theorem reserve_cases (t : AuthSessions) (inspect : Lease → Except Failure CloseState) (client : Lease)
    (identity : SessionIdentity) (random : Option (UInt8 × UInt8 × UInt8 × UInt8)) :
    Reserved t inspect client identity (t.reserve inspect client identity random) := by
  unfold reserve
  split
  · exact .refused _
  rename_i hvalid
  simp only [not_or, not_not] at hvalid
  split
  · exact .refused _
  rename_i state hinspect
  split
  · exact .refused _
  rename_i s hfound
  split
  · exact .refused _
  split
  · exact .refused _
  rename_i hroom
  split
  · exact .refused _
  rename_i b0 b1 b2 b3
  dsimp only
  split
  · exact .refused _
  rename_i hnonzero
  split
  · exact .refused _
  rename_i hunused
  refine .taken hvalid.1 hvalid.2.2.1 (by simpa using hvalid.2.2.2.1) hinspect hfound hroom hnonzero fun hmem => ?_
  obtain ⟨slot, hslot, hhandle⟩ := mem_flatMap.mp hmem
  refine hunused (any_eq_true.mpr ⟨slot, hslot, ?_⟩)
  simpa using mem_handles.mp hhandle

theorem ticketSlot_cases (t : AuthSessions) (ticket : SessionTicket) :
    (∃ e, e ≠ .ok ∧ t.ticketSlot ticket = .error e) ∨
    ∃ s, t.ticketSlot ticket = .ok s ∧ t.slots[ticket.client.slotIndex.toNat]? = some s ∧ s.pending = true ∧
      s.client = ticket.client ∧ s.ticket.serial = ticket.serial ∧ s.ticket.handle = ticket.handle := by
  unfold ticketSlot
  split
  · exact .inl ⟨_, by decide, rfl⟩
  split
  · exact .inl ⟨_, by decide, rfl⟩
  rename_i s hfound
  split
  · exact .inl ⟨_, by decide, rfl⟩
  rename_i hmatch
  simp only [not_or, not_not] at hmatch
  exact .inr ⟨s, rfl, hfound, by simpa using hmatch.1, hmatch.2.1, hmatch.2.2.1, hmatch.2.2.2⟩

theorem lookup_eq_ok_iff {inspect : Lease → Except Failure CloseState} {client : Lease} {handle : UInt32}
    {now : UInt64} {i : SessionIdentity} : t.lookup inspect client handle now = .ok i ↔
      leaseValid client ∧ handle ≠ 0 ∧ (∃ state, inspect client = .ok state) ∧
      ∃ s, t.slots[client.slotIndex.toNat]? = some s ∧ s.client = client ∧ s.active = true ∧ s.handle = handle ∧
        s.identity.revoked = false ∧ now < s.identity.expiresAtMs ∧ s.identity = i := by
  unfold lookup
  constructor
  · intro h
    split at h
    · cases h
    rename_i hvalid
    simp only [not_or, not_not] at hvalid
    split at h
    · cases h
    rename_i state hinspect
    split at h
    · cases h
    rename_i s hfound
    split at h
    · cases h
    rename_i hmatch
    simp only [not_or, not_not, Bool.not_eq_false] at hmatch
    split at h
    · cases h
    rename_i hrevoked
    split at h
    · cases h
    rename_i hnow
    exact ⟨hvalid.1, hvalid.2, ⟨state, hinspect⟩, s, hfound, hmatch.1, hmatch.2.1, hmatch.2.2,
      by simpa using hrevoked, UInt64.not_le.mp hnow, Except.ok.inj h⟩
  · intro ⟨hvalid, hhandle, ⟨state, hinspect⟩, s, hfound, hclient, hactive, hmatch, hrevoked, hnow, hi⟩
    rw [if_neg (by simp [hvalid, hhandle]), hinspect, hfound]
    dsimp only
    rw [if_neg (by simp [hclient, hactive, hmatch]), if_neg (by simp [hrevoked]),
      if_neg (UInt64.not_le.mpr hnow), hi]

end AuthSessions

open AuthSessions (mem_handles revokeSlot reserve_cases ticketSlot_cases Reserved)

/-! ## 2. What the log says -/

section Log

variable {client : Lease} {ticket : SessionTicket} {sessionId : UInt64} {log : List SessionEvent}

theorem committedTicket_mem (h : committedTicket client log = some ticket) :
    .committed ticket ∈ log ∧ ticket.client = client := by
  induction log with
  | nil => cases h
  | cons e earlier ih =>
    unfold committedTicket at h
    split at h
    · rename_i heq
      cases heq
    · rename_i t rest heq
      cases heq
      split at h
      · rename_i hclient
        cases h
        exact ⟨mem_cons_self .., hclient⟩
      · exact ⟨mem_cons_of_mem _ (ih h).1, (ih h).2⟩
    · rename_i c rest heq
      cases heq
      split at h
      · cases h
      · exact ⟨mem_cons_of_mem _ (ih h).1, (ih h).2⟩
    · rename_i heq
      cases heq
      exact ⟨mem_cons_of_mem _ (ih h).1, (ih h).2⟩
    · rename_i heq
      cases heq
      exact ⟨mem_cons_of_mem _ (ih h).1, (ih h).2⟩

theorem revokedSince_append (later : List SessionEvent) (hlater : ∀ i, .reserved ticket i ∉ later)
    (h : revokedSince ticket sessionId log = true) : revokedSince ticket sessionId (later ++ log) = true := by
  induction later with
  | nil => exact h
  | cons e later ih =>
    have hrest := ih fun i hi => hlater i (mem_cons_of_mem _ hi)
    cases e with
    | reserved t i =>
      have hne : t ≠ ticket := fun heq => hlater i (heq ▸ mem_cons_self ..)
      simpa only [cons_append, revokedSince, if_neg hne] using hrest
    | committed t => exact hrest
    | revoked id => simp only [cons_append, revokedSince, hrest, Bool.or_true]
    | forgotten c => exact hrest

end Log

/-! ## 3. The invariant -/

/-- An identity with its local mark. -/
def SessionIdentity.marked (i : SessionIdentity) (revoked : Bool) : SessionIdentity := { i with revoked := revoked }

@[simp]
theorem SessionIdentity.marked_sessionId (i : SessionIdentity) (revoked : Bool) :
    (i.marked revoked).sessionId = i.sessionId := rfl

/-- A slot holds what the log says. -/
structure SlotInv (log : List SessionEvent) (i : Nat) (slot : SessionSlot) : Prop where
  active : slot.active = true → ∃ ticket identity, committedTicket slot.client log = some ticket ∧
    .reserved ticket identity ∈ log ∧ slot.handle = ticket.handle ∧
    slot.identity = identity.marked (revokedSince ticket identity.sessionId log)
  pending : slot.pending = true → slot.ticket.client = slot.client ∧ ∃ identity,
    .reserved slot.ticket identity ∈ log ∧
    slot.candidate = identity.marked (revokedSince slot.ticket identity.sessionId log)
  placed : slot.active = true ∨ slot.pending = true → slot.client.slotIndex.toNat = i

/-- What the table keeps. -/
structure SessionsInv (t : AuthSessions) (log : List SessionEvent) (lent : List (Lent Nat))
    (issued : List Lease) : Prop where
  handles : (t.slots.flatMap SessionSlot.handles).Nodup
  slots : ∀ i slot, t.slots[i]? = some slot → SlotInv log i slot
  records : ∀ ticket identity, .reserved ticket identity ∈ log → ticket.client ∈ issued ∧
    leaseValid ticket.client ∧ ticket.serial ≤ t.serial ∧ ticket.handle ≠ 0 ∧ identity.revoked = false ∧
    identity.sessionId ≠ 0
  once : ∀ ticket i j, .reserved ticket i ∈ log → .reserved ticket j ∈ log → i = j
  commits : ∀ ticket, .committed ticket ∈ log → ticket.client ∈ issued
  answered : ∀ l ∈ lent, ∀ ticket, committedTicket l.lease log = some ticket →
    ∃ slot, t.slots[l.lease.slotIndex.toNat]? = some slot ∧ slot.client = l.lease ∧ slot.active = true

section Frames

variable {log : List SessionEvent} {i : Nat} {slot : SessionSlot} {ticket : SessionTicket}

theorem SlotInv.logged {e : SessionEvent}
    (hcom : slot.active = true → committedTicket slot.client (e :: log) = committedTicket slot.client log)
    (hmark : ∀ t j, .reserved t j ∈ log → revokedSince t j.sessionId (e :: log) = revokedSince t j.sessionId log)
    (inv : SlotInv log i slot) : SlotInv (e :: log) i slot := by
  refine ⟨fun h => ?_, fun h => ?_, inv.placed⟩
  · obtain ⟨t, j, hcommitted, hmem, hhandle, hidentity⟩ := inv.active h
    exact ⟨t, j, (hcom h).trans hcommitted, mem_cons_of_mem _ hmem, hhandle, (hmark t j hmem).symm ▸ hidentity⟩
  · obtain ⟨hclient, j, hmem, hcandidate⟩ := inv.pending h
    exact ⟨hclient, j, mem_cons_of_mem _ hmem, (hmark _ j hmem).symm ▸ hcandidate⟩

theorem slotInv_reserved (identity : SessionIdentity) (hnew : ∀ j, .reserved ticket j ∉ log)
    (inv : SlotInv log i slot) : SlotInv (.reserved ticket identity :: log) i slot :=
  inv.logged (fun _ => rfl) fun t j hmem => if_neg fun heq : ticket = t => hnew j (by rw [heq]; exact hmem)

theorem slotInv_committed (hother : slot.active = true → ticket.client ≠ slot.client) (inv : SlotInv log i slot) :
    SlotInv (.committed ticket :: log) i slot :=
  inv.logged (fun h => if_neg (hother h)) fun _ _ _ => rfl

theorem slotInv_forgotten {client : Lease} (hother : slot.active = true → client ≠ slot.client)
    (inv : SlotInv log i slot) : SlotInv (.forgotten client :: log) i slot :=
  inv.logged (fun h => if_neg (hother h)) fun _ _ _ => rfl

theorem marked_revoke (identity : SessionIdentity) (ticket : SessionTicket) (sessionId : UInt64) :
    identity.marked (revokedSince ticket identity.sessionId (.revoked sessionId :: log)) =
      if identity.sessionId = sessionId then
        { identity.marked (revokedSince ticket identity.sessionId log) with revoked := true }
      else identity.marked (revokedSince ticket identity.sessionId log) := by
  simp only [SessionIdentity.marked, revokedSince]
  split
  · rename_i heq
    simp [heq]
  · rename_i hne
    simp [Ne.symm hne]

theorem slotInv_revoked (sessionId : UInt64) (inv : SlotInv log i slot) :
    SlotInv (.revoked sessionId :: log) i (revokeSlot sessionId slot) := by
  refine ⟨fun h => ?_, fun h => ?_, inv.placed⟩
  · obtain ⟨t, j, hcommitted, hmem, hhandle, hidentity⟩ := inv.active h
    refine ⟨t, j, hcommitted, mem_cons_of_mem _ hmem, hhandle, ?_⟩
    have hactive : slot.active = true := h
    rw [marked_revoke, ← hidentity]
    have hid : slot.identity.sessionId = j.sessionId := by
      rw [hidentity, SessionIdentity.marked_sessionId]
    simp only [revokeSlot, hactive, true_and, hid]
  · obtain ⟨hclient, j, hmem, hcandidate⟩ := inv.pending h
    refine ⟨hclient, j, mem_cons_of_mem _ hmem, ?_⟩
    have hpending : slot.pending = true := h
    have hcandidate' : slot.candidate = j.marked (revokedSince slot.ticket j.sessionId log) := hcandidate
    show (revokeSlot sessionId slot).candidate =
      j.marked (revokedSince slot.ticket j.sessionId (.revoked sessionId :: log))
    rw [marked_revoke, ← hcandidate']
    have hid : slot.candidate.sessionId = j.sessionId := by
      rw [hcandidate', SessionIdentity.marked_sessionId]
    simp only [revokeSlot, hpending, true_and, hid]

end Frames

/-! ## 4. The calls keep it -/

section Calls

variable {t : AuthSessions} {log : List SessionEvent} {lent : List (Lent Nat)} {issued : List Lease}

theorem sessionsInv_create {maxMemoryBytes : UInt64} {info : Except Result UInt64} {memory : Bool}
    (h : AuthSessions.create maxMemoryBytes info memory = .ok t) : SessionsInv t [] [] [] := by
  have hslots : ∃ n, t.slots = List.replicate n .empty := by
    unfold AuthSessions.create at h
    repeat' split at h
    all_goals cases h
    exact ⟨_, rfl⟩
  obtain ⟨n, hn⟩ := hslots
  refine ⟨?_, fun i slot hslot => ?_, fun _ _ hmem => (not_mem_nil hmem).elim,
    fun _ _ _ hmem => (not_mem_nil hmem).elim, fun _ hmem => (not_mem_nil hmem).elim,
    fun _ hl => (not_mem_nil hl).elim⟩
  · have hempty : t.slots.flatMap SessionSlot.handles = [] := by
      rw [flatMap_eq_nil_iff]
      intro slot hslot
      rw [hn] at hslot
      rw [eq_of_mem_replicate hslot]
      rfl
    rw [hempty]
    exact nodup_nil
  · rw [hn, List.getElem?_replicate] at hslot
    split at hslot
    · cases hslot
      exact ⟨nofun, nofun, fun h => h.elim nofun nofun⟩
    · cases hslot

theorem SessionsInv.clients (inv : SessionsInv t log lent issued) {lent' : List (Lent Nat)}
    {issued' : List Lease} (hissued : ∀ l ∈ issued, l ∈ issued')
    (hlent : ∀ l ∈ lent', l ∈ lent ∨ l.lease ∉ issued) : SessionsInv t log lent' issued' := by
  refine ⟨inv.handles, inv.slots, fun ticket identity hmem => ?_, inv.once,
    fun ticket hmem => hissued _ (inv.commits ticket hmem), fun l hl ticket hticket => ?_⟩
  · obtain ⟨hmine, rest⟩ := inv.records ticket identity hmem
    exact ⟨hissued _ hmine, rest⟩
  · rcases hlent l hl with old | new
    · exact inv.answered l old ticket hticket
    · obtain ⟨hmem, hclient⟩ := committedTicket_mem hticket
      exact absurd (hclient ▸ inv.commits ticket hmem) new

theorem SessionsInv.ticket_of_handle (inv : SessionsInv t log lent issued) {h : UInt32}
    (hmem : h ∈ t.slots.flatMap SessionSlot.handles) :
    ∃ ticket identity, .reserved ticket identity ∈ log ∧ ticket.handle = h := by
  obtain ⟨slot, hslot, hhandle⟩ := mem_flatMap.mp hmem
  obtain ⟨i, hi⟩ := mem_iff_getElem?.mp hslot
  have hinv := inv.slots i slot hi
  rcases mem_handles.mp hhandle with active | pending
  · obtain ⟨ticket, identity, -, hreserved, heq, -⟩ := hinv.active active.1
    exact ⟨ticket, identity, hreserved, heq.symm.trans active.2⟩
  · obtain ⟨-, identity, hreserved, -⟩ := hinv.pending pending.1
    exact ⟨slot.ticket, identity, hreserved, pending.2⟩

omit t log lent issued in
theorem serial_succ {serial : UInt64} (room : serial ≠ u64Max) : (serial + 1).toNat = serial.toNat + 1 := by
  have hne : serial.toNat ≠ u64Max.toNat := fun heq => room (UInt64.toNat_inj.mp heq)
  have hlt := serial.toNat_lt
  have hmax : u64Max.toNat = 2 ^ 64 - 1 := rfl
  rw [UInt64.toNat_add]
  show (serial.toNat + 1) % 2 ^ 64 = serial.toNat + 1
  omega

section

variable (inv : SessionsInv t log lent issued) {ticket : SessionTicket}
include inv

/-- **A ticket was never issued before**: its serial is above every serial so far. -/
theorem SessionsInv.fresh (room : t.serial ≠ u64Max) (client : Lease)
    (handle : UInt32) (identity : SessionIdentity) : .reserved ⟨client, t.serial + 1, handle⟩ identity ∉ log := by
  intro hmem
  have hle := UInt64.le_iff_toNat_le.mp (inv.records _ identity hmem).2.2.1
  have hserial := serial_succ room
  dsimp only at hle
  omega

/-- **A reserve adds a candidate with a handle that nobody has**, beside the session of its own client. -/
theorem sessionsInv_reserve {inspect : Lease → Except Failure CloseState} {client : Lease}
    {identity : SessionIdentity} {t' : AuthSessions}
    (hcurrent : ∀ state, inspect client = .ok state → client ∈ issued ∧
      ∀ l ∈ lent, l.lease.slotIndex = client.slotIndex → l.lease = client)
    (h : Reserved t inspect client identity (.ok ticket, t')) :
    SessionsInv t' (.reserved ticket identity :: log) lent issued := by
  cases h with
  | @taken s handle state valid named standing current found room nonzero unused =>
    obtain ⟨hissued, honly⟩ := hcurrent state current
    have hserial := serial_succ room
    have hnew := inv.fresh room client handle
    have hold := inv.slots _ s found
    -- what the slot keeps is the session of this client, if there is one
    have hbase : (if s.client = client then s else .of client).client = client ∧
        ((if s.client = client then s else .of client).active = true →
          (if s.client = client then s else .of client) = s) := by
      split
      · exact ⟨‹_›, fun _ => rfl⟩
      · exact ⟨rfl, nofun⟩
    have hsame : s.client = client → (if s.client = client then s else .of client) = s := fun h => if_pos h
    generalize (if s.client = client then s else SessionSlot.of client) = base at hbase hsame ⊢
    have hinv : SlotInv (.reserved ⟨client, t.serial + 1, handle⟩ identity :: log) client.slotIndex.toNat
        { base with candidate := identity, pending := true, ticket := ⟨client, t.serial + 1, handle⟩ } := by
      refine ⟨fun hactive => ?_, fun _ => ⟨hbase.1.symm, identity, mem_cons_self .., ?_⟩,
        fun _ => congrArg (·.slotIndex.toNat) hbase.1⟩
      · obtain rfl := hbase.2 hactive
        exact (slotInv_reserved identity hnew hold).active hactive
      · show identity = identity.marked (revokedSince _ _ (.reserved _ _ :: log))
        rw [revokedSince, if_pos rfl]
        unfold SessionIdentity.marked
        rw [← standing]
    refine ⟨flatMap_set_nodup found inv.handles ?_ fun k hk => ?_, fun i slot hslot => ?_,
      fun ticket i hmem => ?_, fun ticket i j hi hj => ?_, fun ticket hmem => inv.commits ticket ?_,
      fun l hl ticket hticket => ?_⟩
    · unfold SessionSlot.handles
      by_cases hactive : base.active = true
      · have hmine : base.handle ∈ t.slots.flatMap SessionSlot.handles := by
          obtain rfl := hbase.2 hactive
          exact mem_flatMap.mpr ⟨base, mem_of_getElem? found, mem_handles.mpr (.inl ⟨hactive, rfl⟩)⟩
        have hne : base.handle ≠ handle := fun heq => unused (heq ▸ hmine)
        simp [hactive, hne]
      · simp [hactive]
    · rcases mem_handles.mp hk with mine | new
      · obtain rfl := hbase.2 mine.1
        exact .inl (mem_handles.mpr (.inl mine))
      · exact .inr (new.2 ▸ unused)
    · rcases getElem?_set_cases hslot with mine | theirs
      · rw [mine.1, mine.2]
        exact hinv
      · exact slotInv_reserved identity hnew (inv.slots i slot theirs.2)
    · rcases mem_cons.mp hmem with this | old
      · cases this
        exact ⟨hissued, valid, UInt64.le_refl _, nonzero, standing, named⟩
      · obtain ⟨hmine, hvalid, hle, rest⟩ := inv.records ticket i old
        refine ⟨hmine, hvalid, ?_, rest⟩
        rw [UInt64.le_iff_toNat_le] at hle ⊢
        show ticket.serial.toNat ≤ (t.serial + 1).toNat
        omega
    · rcases mem_cons.mp hi with first | old
      · cases first
        rcases mem_cons.mp hj with second | old
        · cases second
          rfl
        · exact absurd old (hnew j)
      · rcases mem_cons.mp hj with second | old'
        · cases second
          exact absurd old (hnew i)
        · exact inv.once ticket i j old old'
    · exact (mem_cons.mp hmem).resolve_left nofun
    · obtain ⟨slot, hslot, hclient, hactive⟩ := inv.answered l hl ticket hticket
      by_cases heq : l.lease.slotIndex = client.slotIndex
      · -- the client of this slot is the one that reserves
        obtain rfl := honly l hl heq
        rw [found] at hslot
        cases hslot
        obtain rfl := hsame hclient
        exact ⟨_, List.getElem?_set_self (List.getElem?_eq_some_iff.mp found).1, hclient, hactive⟩
      · refine ⟨slot, ?_, hclient, hactive⟩
        rw [List.getElem?_set_ne fun h => heq (UInt64.toNat_inj.mp h.symm)]
        exact hslot

theorem SessionsInv.waiting {s : SessionSlot} {i : Nat} (found : t.slots[i]? = some s)
    (pending : s.pending = true) (hclient : s.client = ticket.client)
    (hserial : s.ticket.serial = ticket.serial) (hhandle : s.ticket.handle = ticket.handle) :
    s.ticket = ticket := by
  have hmine := ((inv.slots i s found).pending pending).1.trans hclient
  cases ticket
  cases hticket : s.ticket
  rw [hticket] at hmine hserial hhandle
  dsimp only at hmine hserial hhandle
  rw [hmine, hserial, hhandle]

/-- **A commit puts the candidate in the place of the session that was active.** -/
theorem sessionsInv_commit (ticket : SessionTicket) :
    ((t.commit ticket).1 = .ok → SessionsInv (t.commit ticket).2 (.committed ticket :: log) lent issued) ∧
    ((t.commit ticket).1 ≠ .ok → (t.commit ticket).2 = t) := by
  unfold AuthSessions.commit
  rcases ticketSlot_cases t ticket with refused | taken
  · obtain ⟨e, hne, h⟩ := refused
    rw [h]
    exact ⟨fun h => absurd h hne, fun _ => rfl⟩
  · obtain ⟨s, h, found, pending, hclient, hserial, hhandle⟩ := taken
    rw [h]
    refine ⟨fun _ => ?_, fun h => absurd rfl h⟩
    have hold := inv.slots _ s found
    have hticket := inv.waiting found pending hclient hserial hhandle
    obtain ⟨-, identity, hreserved, hcandidate⟩ := hold.pending pending
    rw [hticket] at hreserved hcandidate
    refine ⟨flatMap_set_nodup found inv.handles ?_ fun k hk => ?_, fun i slot hslot => ?_,
      fun t' i hmem => inv.records t' i ((mem_cons.mp hmem).resolve_left nofun),
      fun t' i j hi hj => inv.once t' i j ((mem_cons.mp hi).resolve_left nofun)
        ((mem_cons.mp hj).resolve_left nofun), fun t' hmem => ?_, fun l hl t' ht' => ?_⟩
    · simp [SessionSlot.handles]
    · left
      refine mem_handles.mpr (.inr ⟨pending, ?_⟩)
      rcases mem_handles.mp hk with active | none
      · exact hhandle.trans active.2
      · cases none.1
    · rcases getElem?_set_cases hslot with mine | theirs
      · rw [mine.1, mine.2]
        refine ⟨fun _ => ⟨ticket, identity, if_pos hclient.symm, mem_cons_of_mem _ hreserved, rfl, hcandidate⟩,
          nofun, fun _ => congrArg (·.slotIndex.toNat) hclient⟩
      · have hother := inv.slots i slot theirs.2
        refine slotInv_committed (fun hactive heq => theirs.1 ?_) hother
        rw [← hother.placed (.inl hactive), heq]
    · rcases mem_cons.mp hmem with this | old
      · cases this
        exact (inv.records ticket identity hreserved).1
      · exact inv.commits t' old
    · unfold committedTicket at ht'
      split at ht'
      · rename_i hlease
        rw [← hlease]
        exact ⟨_, List.getElem?_set_self (List.getElem?_eq_some_iff.mp found).1, hclient, rfl⟩
      · rename_i hne
        obtain ⟨slot, hslot, hslotClient, hactive⟩ := inv.answered l hl t' ht'
        refine ⟨slot, ?_, hslotClient, hactive⟩
        rw [List.getElem?_set_ne fun heq => hne ?_]
        · exact hslot
        rw [← heq, found] at hslot
        cases hslot
        exact hclient.symm.trans hslotClient

theorem sessionsInv_abort (ticket : SessionTicket) : SessionsInv (t.abort ticket).2 log lent issued := by
  unfold AuthSessions.abort
  rcases ticketSlot_cases t ticket with refused | taken
  · obtain ⟨e, -, h⟩ := refused
    rw [h]
    exact inv
  · obtain ⟨s, h, found, -, -, -, -⟩ := taken
    rw [h]
    have hold := inv.slots _ s found
    refine { inv with
        handles := flatMap_set_nodup found inv.handles ?_ fun k hk => .inl ?_,
        slots := fun i slot hslot => ?_, answered := fun l hl t' ht' => ?_ }
    · unfold SessionSlot.handles
      cases s.active <;> simp
    · rcases mem_handles.mp hk with active | none
      · exact mem_handles.mpr (.inl active)
      · cases none.1
    · rcases getElem?_set_cases hslot with mine | theirs
      · rw [mine.1, mine.2]
        exact ⟨hold.active, nofun, fun hany => hold.placed (.inl (hany.resolve_right nofun))⟩
      · exact inv.slots i slot theirs.2
    · obtain ⟨slot, hslot, hslotClient, hactive⟩ := inv.answered l hl t' ht'
      by_cases heq : ticket.client.slotIndex.toNat = l.lease.slotIndex.toNat
      · rw [← heq, found] at hslot
        cases hslot
        refine ⟨{ s with pending := false, candidate := .zero, ticket := .zero }, ?_, hslotClient, hactive⟩
        rw [← heq]
        exact List.getElem?_set_self (List.getElem?_eq_some_iff.mp found).1
      · exact ⟨slot, (List.getElem?_set_ne heq).trans hslot, hslotClient, hactive⟩

/-- **A revoke marks the sessions of its id**, those that wait too. -/
theorem sessionsInv_revokeSlots (sessionId : UInt64) :
    SessionsInv { t with slots := t.slots.map (revokeSlot sessionId) } (.revoked sessionId :: log)
      lent issued := by
  have hhandles : (t.slots.map (revokeSlot sessionId)).flatMap SessionSlot.handles =
      t.slots.flatMap SessionSlot.handles := by
    rw [flatMap_map]
    rfl
  refine ⟨hhandles ▸ inv.handles, fun i slot hslot => ?_,
    fun t' i hmem => inv.records t' i ((mem_cons.mp hmem).resolve_left nofun),
    fun t' i j hi hj => inv.once t' i j ((mem_cons.mp hi).resolve_left nofun)
      ((mem_cons.mp hj).resolve_left nofun),
    fun t' hmem => inv.commits t' ((mem_cons.mp hmem).resolve_left nofun), fun l hl t' ht' => ?_⟩
  · rw [List.getElem?_map, Option.map_eq_some_iff] at hslot
    obtain ⟨before, hbefore, rfl⟩ := hslot
    exact slotInv_revoked sessionId (inv.slots i before hbefore)
  · obtain ⟨slot, hslot, hclient, hactive⟩ := inv.answered l hl t' ht'
    exact ⟨revokeSlot sessionId slot, by rw [List.getElem?_map, hslot]; rfl, hclient, hactive⟩

theorem SessionsInv.revokeSlot_zero : t.slots.map (revokeSlot 0) = t.slots := by
  refine (map_congr_left fun slot hslot => ?_).trans (map_id _)
  obtain ⟨i, hi⟩ := mem_iff_getElem?.mp hslot
  have hinv := inv.slots i slot hi
  have hactive : ¬(slot.active = true ∧ slot.identity.sessionId = 0) := by
    intro ⟨hactive, hzero⟩
    obtain ⟨ticket, identity, -, hmem, -, hidentity⟩ := hinv.active hactive
    rw [hidentity, SessionIdentity.marked_sessionId] at hzero
    exact (inv.records ticket identity hmem).2.2.2.2.2 hzero
  have hpending : ¬(slot.pending = true ∧ slot.candidate.sessionId = 0) := by
    intro ⟨hpending, hzero⟩
    obtain ⟨-, identity, hmem, hcandidate⟩ := hinv.pending hpending
    rw [hcandidate, SessionIdentity.marked_sessionId] at hzero
    exact (inv.records slot.ticket identity hmem).2.2.2.2.2 hzero
  unfold revokeSlot
  rw [if_neg hactive, if_neg hpending]
  rfl

theorem sessionsInv_revoke (sessionId : UInt64) :
    SessionsInv (t.revoke sessionId).2 (.revoked sessionId :: log) lent issued := by
  have hmarked := sessionsInv_revokeSlots inv sessionId
  unfold AuthSessions.revoke
  split
  · rename_i hzero
    rw [hzero, inv.revokeSlot_zero] at hmarked
    rw [hzero]
    exact hmarked
  · exact hmarked

theorem SessionsInv.waterMark (lastResumeInstance resumeCutoff : UInt64) :
    SessionsInv { t with lastResumeInstance := lastResumeInstance, resumeCutoff := resumeCutoff } log lent issued :=
  { inv with }

theorem sessionsInv_noteResume (id : UInt64) : SessionsInv (t.noteResume id).2 log lent issued := by
  unfold AuthSessions.noteResume
  split
  · exact inv
  · exact inv.waterMark id t.resumeCutoff

theorem sessionsInv_applyLogout (sessionId : UInt64) :
    SessionsInv (t.applyLogout sessionId).2 (.revoked sessionId :: log) lent issued := by
  unfold AuthSessions.applyLogout
  split
  · rename_i hzero
    have hkept := sessionsInv_revoke inv sessionId
    unfold AuthSessions.revoke at hkept
    rw [if_pos hzero] at hkept
    exact hkept
  · exact sessionsInv_revoke (inv.waterMark t.lastResumeInstance t.lastResumeInstance) sessionId

/-- **A forget clears the slot of its client**, and that of no other. -/
theorem sessionsInv_forget (client : Lease) :
    SessionsInv (t.forget client).2 (.forgotten client :: log) lent issued := by
  have hkeep : ∀ {t' : AuthSessions}, t'.serial = t.serial → (t'.slots.flatMap SessionSlot.handles).Nodup →
      (∀ (i : Nat) (slot : SessionSlot), t'.slots[i]? = some slot → slot = .empty ∨
        t.slots[i]? = some slot ∧ (slot.active = true → client ≠ slot.client)) →
      (∀ (i : Nat) (slot : SessionSlot), t.slots[i]? = some slot → slot.client ≠ client → t'.slots[i]? = some slot) →
      SessionsInv t' (.forgotten client :: log) lent issued := by
    intro t' hserial hhandles hslots hothers
    refine ⟨hhandles, fun i slot hslot => ?_, fun t i hmem => ?_,
      fun t' i j hi hj => inv.once t' i j ((mem_cons.mp hi).resolve_left nofun)
        ((mem_cons.mp hj).resolve_left nofun),
      fun t' hmem => inv.commits t' ((mem_cons.mp hmem).resolve_left nofun), fun l hl ticket hticket => ?_⟩
    · rcases hslots i slot hslot with empty | kept
      · rw [empty]
        exact ⟨nofun, nofun, fun h => h.elim nofun nofun⟩
      · exact slotInv_forgotten kept.2 (inv.slots i slot kept.1)
    · rw [hserial]
      exact inv.records t i ((mem_cons.mp hmem).resolve_left nofun)
    · unfold committedTicket at hticket
      split at hticket
      · cases hticket
      rename_i hne
      obtain ⟨slot, hslot, hclient, hactive⟩ := inv.answered l hl ticket hticket
      exact ⟨slot, hothers _ slot hslot fun heq => hne (heq.symm.trans hclient), hclient, hactive⟩
  have hplaced : ∀ (i : Nat) (slot : SessionSlot), t.slots[i]? = some slot → slot.active = true →
      leaseValid slot.client ∧ t.slots[slot.client.slotIndex.toNat]? = some slot := by
    intro i slot hslot hactive
    have hinv := inv.slots i slot hslot
    obtain ⟨ticket, identity, hcommitted, hmem, -⟩ := hinv.active hactive
    rw [hinv.placed (.inl hactive), ← (committedTicket_mem hcommitted).2]
    exact ⟨(inv.records ticket identity hmem).2.1, hslot⟩
  have hsame : (∀ slot : SessionSlot, t.slots[client.slotIndex.toNat]? = some slot → leaseValid client → client ≠ slot.client) →
      SessionsInv t (.forgotten client :: log) lent issued := by
    intro hnone
    refine hkeep rfl inv.handles (fun i slot hslot => .inr ⟨hslot, fun hactive heq => ?_⟩)
      fun i slot hslot _ => hslot
    have hthere := hplaced i slot hslot hactive
    rw [← heq] at hthere
    exact hnone slot hthere.2 hthere.1 heq
  unfold AuthSessions.forget
  split
  · rename_i hinvalid
    exact hsame fun _ _ hvalid => absurd hvalid hinvalid
  · split
    · rename_i hnone
      exact hsame fun slot hslot => absurd (hnone.symm.trans hslot) nofun
    · rename_i s hfound
      split
      · rename_i hother
        refine hsame fun slot hslot _ heq => hother ?_
        rw [hfound] at hslot
        cases hslot
        exact heq.symm
      · rename_i hmine
        have hclient : s.client = client := not_not.mp hmine
        refine hkeep rfl (flatMap_set_nodup hfound inv.handles nodup_nil nofun) (fun i slot hslot => ?_)
          fun i slot hslot hne => ?_
        · rcases getElem?_set_cases hslot with mine | theirs
          · exact .inl mine.2
          · refine .inr ⟨theirs.2, fun hactive heq => theirs.1 ?_⟩
            rw [← (inv.slots i slot theirs.2).placed (.inl hactive), heq]
        · refine (List.getElem?_set_ne fun heq => hne ?_).trans hslot
          rw [← heq, hfound] at hslot
          cases hslot
          exact hclient

end

end Calls

/-! ## 5. Every run -/

/-- What every run keeps: both tables are in order, for the same clients, and every connection was accepted.
    -/
structure SessionSystemInv (s : SessionSystem) (lent : List (Lent Nat)) (issued : List Lease) : Prop where
  clients : ClientTableInv s.clients lent issued
  sessions : SessionsInv s.sessions s.log lent issued
  owners : ∀ l ∈ lent, l.owner < s.created
  known : ∀ l ∈ lent, l.lease ∈ issued

section Run

variable {s : SessionSystem} {lent : List (Lent Nat)} {issued : List Lease} {client : Lease}
  {i : SessionIdentity} {ticket : SessionTicket} {handle : UInt32} {now sessionId : UInt64}

theorem SessionSystemInv.current (inv : SessionSystemInv s lent issued) (state : CloseState)
    (h : s.clients.clientInspect client = .ok state) : client ∈ issued ∧
      ∀ l ∈ lent, l.lease.slotIndex = client.slotIndex → l.lease = client := by
  obtain ⟨m, hm, rfl, -⟩ := (clientInspect_eq_ok_iff inv.clients).mp h
  exact ⟨inv.known m hm, fun l hl heq => congrArg Lent.lease (inv.clients.eq_of_slot hl hm heq)⟩

/-- **Every call keeps the system in order**; a client that comes has a lease that was never issued. -/
theorem sessionSystemInv_exec (inv : SessionSystemInv s lent issued) (e : SessionStep) :
    ∃ lent' issued', SessionSystemInv (s.exec e) lent' issued' ∧ ∀ l ∈ lent', l ∈ lent ∨ l.lease ∉ issued := by
  obtain ⟨hclients, hsessions, howners, hknown⟩ := inv
  -- a call that leaves the clients needs the two tables only
  have hsame : ∀ {s' : SessionSystem}, s'.created = s.created → ClientTableInv s'.clients lent issued →
      SessionsInv s'.sessions s'.log lent issued →
      ∃ lent' issued', SessionSystemInv s' lent' issued' ∧ ∀ l ∈ lent', l ∈ lent ∨ l.lease ∉ issued :=
    fun hcreated hc hs =>
      ⟨lent, issued, ⟨hc, hs, fun l hl => hcreated ▸ howners l hl, hknown⟩, fun _ h => .inl h⟩
  cases e with
  | admitClients readCapacity writeCapacity attach closeFails =>
    have hadmitted := admitClients_cases hclients (fresh_owner howners) readCapacity writeCapacity attach closeFails
    rw [exec]
    generalize s.clients.admitClients s.created readCapacity writeCapacity attach closeFails = o at hadmitted ⊢
    cases hadmitted with
    | nobody inv' grown =>
      exact ⟨lent, _, ⟨inv', hsessions.clients grown fun l hl => .inl hl,
        fun l hl => Nat.lt_succ_of_lt (howners l hl), fun l hl => grown _ (hknown l hl)⟩, fun _ h => .inl h⟩
    | @client lease t' bufferBytes new inv' =>
      have hgrown : ∀ l ∈ issued, l ∈ lease :: issued := fun l hl => mem_cons_of_mem _ hl
      have hcome : ∀ l ∈ (⟨lease, s.created, bufferBytes⟩ : Lent Nat) :: lent, l ∈ lent ∨ l.lease ∉ issued :=
        forall_mem_cons.mpr ⟨.inr new, fun l hl => .inl hl⟩
      exact ⟨_, _, ⟨inv', hsessions.clients hgrown hcome,
        forall_mem_cons.mpr ⟨Nat.lt_succ_self _, fun l hl => Nat.lt_succ_of_lt (howners l hl)⟩,
        forall_mem_cons.mpr ⟨mem_cons_self .., fun l hl => hgrown _ (hknown l hl)⟩⟩, hcome⟩
  | release lease detached closeFails =>
    have hleft := releaseClient_cases hclients lease detached closeFails
    rw [exec]
    generalize s.clients.releaseClient lease detached closeFails = o at hleft ⊢
    cases hleft with
    | nobody inv' => exact hsame rfl inv' hsessions
    | @client r t' l before after split held inv' =>
      have hsub : ∀ m ∈ before ++ after, m ∈ lent := by
        intro m hm
        rw [split]
        exact (sublist_cons_self l after).append_left before |>.subset hm
      exact ⟨before ++ after, issued, ⟨inv', hsessions.clients (fun l hl => hl) fun m hm => .inl (hsub m hm),
        fun m hm => howners m (hsub m hm), fun m hm => hknown m (hsub m hm)⟩, fun m hm => .inl (hsub m hm)⟩
  | proceed connection closeState callbackActive =>
    exact hsame rfl (clientTableInv_proceed hclients connection closeState callbackActive) hsessions
  | stop => exact hsame rfl (clientTableInv_requestStop hclients) hsessions
  | reserve client identity random =>
    have hreserved := reserve_cases s.sessions s.clients.clientInspect client identity random
    unfold exec reserve
    dsimp only
    generalize s.sessions.reserve s.clients.clientInspect client identity random = o at hreserved ⊢
    cases o with
    | mk result sessions =>
      cases result with
      | error e =>
        cases hreserved
        exact hsame rfl hclients hsessions
      | ok ticket =>
        exact hsame rfl hclients (sessionsInv_reserve hsessions
          (SessionSystemInv.current ⟨hclients, hsessions, howners, hknown⟩) hreserved)
  | commit ticket =>
    obtain ⟨hdone, hfailed⟩ := sessionsInv_commit hsessions ticket
    unfold exec commit
    dsimp only
    generalize s.sessions.commit ticket = o at hdone hfailed ⊢
    cases o with
    | mk result sessions =>
      dsimp only at hdone hfailed ⊢
      split
      · rename_i heq
        cases heq
        exact hsame rfl hclients (hdone rfl)
      · rename_i hne heq
        cases heq
        rw [hfailed hne]
        exact hsame rfl hclients hsessions
  | abort ticket => exact hsame rfl hclients (sessionsInv_abort hsessions ticket)
  | revoke sessionId => exact hsame rfl hclients (sessionsInv_revoke hsessions sessionId)
  | applyLogout sessionId => exact hsame rfl hclients (sessionsInv_applyLogout hsessions sessionId)
  | forget client => exact hsame rfl hclients (sessionsInv_forget hsessions client)
  | noteResume id => exact hsame rfl hclients (sessionsInv_noteResume hsessions id)

theorem SessionRun.inv (run : SessionRun s) : ∃ lent issued, SessionSystemInv s lent issued := by
  induction run with
  | start hpool hsessions =>
    obtain ⟨free, hinv⟩ := connectionPoolInv_create hpool
    exact ⟨[], [], clientTableInv_opened hinv, sessionsInv_create hsessions,
      fun _ hl => (not_mem_nil hl).elim, fun _ hl => (not_mem_nil hl).elim⟩
  | step _ e ih =>
    obtain ⟨lent, issued, inv⟩ := ih
    obtain ⟨lent', issued', inv', -⟩ := sessionSystemInv_exec inv e
    exact ⟨lent', issued', inv'⟩

theorem SessionRun.foldl (run : SessionRun s) (steps : List SessionStep) :
    SessionRun (steps.foldl exec s) := by
  induction steps generalizing s with
  | nil => exact run
  | cons e rest ih => exact ih (run.step e)

theorem lookup_eq_ok_iff_log (inv : SessionSystemInv s lent issued) : s.lookup client handle now = .ok i ↔
      (∃ connection, s.clients.findClient client = .ok connection) ∧
      ∃ ticket, committedTicket client s.log = some ticket ∧ ticket.handle = handle ∧ .reserved ticket i ∈ s.log ∧
        revokedSince ticket i.sessionId s.log = false ∧ now < i.expiresAtMs := by
  unfold SessionSystem.lookup
  rw [AuthSessions.lookup_eq_ok_iff]
  constructor
  · intro ⟨_, _, ⟨state, hinspect⟩, slot, hslot, hclient, hactive, hhandle, hrevoked, hnow, hi⟩
    obtain ⟨l, hl, hlease, -⟩ := (clientInspect_eq_ok_iff inv.clients).mp hinspect
    obtain ⟨ticket, identity, hcommitted, hreserved, hmatch, hidentity⟩ :=
      (inv.sessions.slots _ slot hslot).active hactive
    have hstanding := (inv.sessions.records ticket identity hreserved).2.2.2.2.1
    have hmark : revokedSince ticket identity.sessionId s.log = false := by
      rw [hidentity] at hrevoked
      exact hrevoked
    have hsame : identity = i := by
      rw [← hi, hidentity, hmark]
      unfold SessionIdentity.marked
      rw [← hstanding]
    rw [hi] at hnow
    rw [hclient] at hcommitted
    rw [hsame] at hreserved hmark
    exact ⟨⟨l.owner, (findClient_eq_ok_iff inv.clients).mpr ⟨l, hl, hlease, rfl⟩⟩, ticket, hcommitted,
      hmatch.symm.trans hhandle, hreserved, hmark, hnow⟩
  · intro ⟨⟨connection, hfound⟩, ticket, hcommitted, hhandle, hreserved, hmark, hnow⟩
    obtain ⟨l, hl, hlease, -⟩ := (findClient_eq_ok_iff inv.clients).mp hfound
    obtain ⟨_, hvalid, _, hnonzero, hstanding, _⟩ := inv.sessions.records ticket i hreserved
    rw [(committedTicket_mem hcommitted).2] at hvalid
    obtain ⟨slot, hslot, hclient, hactive⟩ := inv.sessions.answered l hl ticket (by rw [hlease]; exact hcommitted)
    rw [hlease] at hslot hclient
    obtain ⟨t, identity, ht, hmem, hmatch, hidentity⟩ := (inv.sessions.slots _ slot hslot).active hactive
    rw [hclient, hcommitted] at ht
    cases ht
    obtain rfl := inv.sessions.once ticket identity i hmem hreserved
    have hslotIdentity : slot.identity = identity := by
      rw [hidentity, hmark]
      unfold SessionIdentity.marked
      rw [← hstanding]
    exact ⟨hvalid, hhandle ▸ hnonzero, ⟨_, (clientInspect_eq_ok_iff inv.clients).mpr ⟨l, hl, hlease, rfl⟩⟩, slot,
      hslot, hclient, hactive, hmatch.trans hhandle, by rw [hslotIdentity]; exact hstanding,
      by rw [hslotIdentity]; exact hnow, hslotIdentity⟩

theorem revokedSince_exec (inv : SessionSystemInv s lent issued) (e : SessionStep)
    (hmem : .reserved ticket i ∈ s.log) (h : revokedSince ticket i.sessionId s.log = true) :
    .reserved ticket i ∈ (s.exec e).log ∧ revokedSince ticket i.sessionId (s.exec e).log = true := by
  cases e with
  | reserve client identity random =>
    have hreserved := reserve_cases s.sessions s.clients.clientInspect client identity random
    unfold exec reserve
    dsimp only
    generalize s.sessions.reserve s.clients.clientInspect client identity random = o at hreserved ⊢
    cases hreserved with
    | refused e => exact ⟨hmem, h⟩
    | @taken slot handle state valid named standing current found room nonzero unused =>
      refine ⟨mem_cons_of_mem _ hmem, revokedSince_append [_] (fun j hj => ?_) h⟩
      cases mem_singleton.mp hj
      exact inv.sessions.fresh room client handle i hmem
  | commit t =>
    unfold exec commit
    dsimp only
    split
    · exact ⟨mem_cons_of_mem _ hmem, h⟩
    · exact ⟨hmem, h⟩
  | revoke id => exact ⟨mem_cons_of_mem _ hmem, revokedSince_append [_] (by simp) h⟩
  | applyLogout id => exact ⟨mem_cons_of_mem _ hmem, revokedSince_append [_] (by simp) h⟩
  | forget client => exact ⟨mem_cons_of_mem _ hmem, h⟩
  | _ => exact ⟨hmem, h⟩

theorem revokedSince_foldl (run : SessionRun s) (steps : List SessionStep) (hmem : .reserved ticket i ∈ s.log)
    (h : revokedSince ticket i.sessionId s.log = true) :
    .reserved ticket i ∈ (steps.foldl exec s).log ∧
      revokedSince ticket i.sessionId (steps.foldl exec s).log = true := by
  induction steps generalizing s with
  | nil => exact ⟨hmem, h⟩
  | cons e rest ih =>
    obtain ⟨lent, issued, inv⟩ := run.inv
    obtain ⟨hmem', h'⟩ := revokedSince_exec inv e hmem h
    exact ih (run.step e) hmem' h'

theorem SessionSystem.Holds.reserved (inv : SessionSystemInv s lent issued) (h : s.Holds ticket sessionId) :
    ∃ i, .reserved ticket i ∈ s.log ∧ i.sessionId = sessionId := by
  obtain ⟨slot, hslot, held⟩ := h
  obtain ⟨k, hk⟩ := mem_iff_getElem?.mp hslot
  have hinv := inv.sessions.slots k slot hk
  rcases held with pending | active
  · obtain ⟨hpending, rfl, hid⟩ := pending
    obtain ⟨-, i, hmem, hcandidate⟩ := hinv.pending hpending
    rw [hcandidate] at hid
    exact ⟨i, hmem, hid⟩
  · obtain ⟨hactive, hcommitted, hid⟩ := active
    obtain ⟨t, i, ht, hmem, -, hidentity⟩ := hinv.active hactive
    rw [hcommitted] at ht
    cases ht
    rw [hidentity] at hid
    exact ⟨i, hmem, hid⟩

theorem lookup_revoked (run : SessionRun s) {e : SessionStep}
    (he : e = .revoke sessionId ∨ e = .applyLogout sessionId) (steps : List SessionStep)
    (held : s.Holds ticket sessionId) {j : SessionIdentity}
    (h : (steps.foldl exec (s.exec e)).lookup client handle now = .ok j) :
    committedTicket client (steps.foldl exec (s.exec e)).log ≠ some ticket := by
  intro hcommitted
  obtain ⟨lent, issued, inv⟩ := run.inv
  obtain ⟨i, hmem, hid⟩ := held.reserved inv
  have hlog : (s.exec e).log = .revoked sessionId :: s.log := by
    rcases he with revoke | logout
    · rw [revoke]; rfl
    · rw [logout]; rfl
  have hmarked : revokedSince ticket i.sessionId (s.exec e).log = true := by
    rw [hlog, revokedSince, hid, decide_eq_true rfl, Bool.true_or]
  obtain ⟨hmem', hmarked'⟩ := revokedSince_foldl (run.step e) steps
    (by rw [hlog]; exact mem_cons_of_mem _ hmem) hmarked
  obtain ⟨lent', issued', inv'⟩ := ((run.step e).foldl steps).inv
  obtain ⟨-, t, ht, -, hreserved, hmark, -⟩ := (lookup_eq_ok_iff_log inv').mp h
  rw [hcommitted] at ht
  cases ht
  obtain rfl := inv'.sessions.once ticket j i hreserved hmem'
  rw [hmarked'] at hmark
  cases hmark

end Run

/-- **No session passes that should not.** In every state of every run a lookup returns the identity last
    committed for its client, of a ticket not revoked since and not expired; what is revoked or logged out is
    never returned again. -/
theorem sessions_safe {s : SessionSystem} (run : SessionRun s) :
    (s.sessions.slots.flatMap SessionSlot.handles).Nodup ∧
    0 ∉ s.sessions.slots.flatMap SessionSlot.handles ∧
    (∀ client handle now i, s.lookup client handle now = .ok i ↔
      (∃ connection, s.clients.findClient client = .ok connection) ∧
      ∃ ticket, committedTicket client s.log = some ticket ∧ ticket.handle = handle ∧ .reserved ticket i ∈ s.log ∧
        revokedSince ticket i.sessionId s.log = false ∧ now < i.expiresAtMs) ∧
    ∀ (sessionId : UInt64) (e : SessionStep), e = .revoke sessionId ∨ e = .applyLogout sessionId →
      ∀ (steps : List SessionStep) (ticket : SessionTicket), s.Holds ticket sessionId →
      ∀ client handle now j,
        (steps.foldl SessionSystem.exec (s.exec e)).lookup client handle now = .ok j →
          committedTicket client (steps.foldl SessionSystem.exec (s.exec e)).log ≠ some ticket := by
  obtain ⟨lent, issued, inv⟩ := run.inv
  refine ⟨inv.sessions.handles, fun hzero => ?_, fun client handle now i => lookup_eq_ok_iff_log inv,
    fun sessionId e he steps ticket held client handle now j h => lookup_revoked run he steps held h⟩
  obtain ⟨ticket, identity, hmem, heq⟩ := inv.sessions.ticket_of_handle hzero
  exact (inv.sessions.records ticket identity hmem).2.2.2.1 heq

/-- A server for one client, with its table. -/
def oneSession : SessionSystem :=
  ⟨.opened (.fresh (.fresh ⟨8, 8, 1, 8, 8⟩ 168 65224 24 1 0) ⟨1, 65536, 8⟩), 0, ⟨[.empty], 0, 0, 0⟩, []⟩

theorem oneSession_run : SessionRun oneSession := by
  have hsessions : AuthSessions.create 4096 (.ok 1) true = .ok ⟨[.empty], 0, 0, 0⟩ := rfl
  exact .start ConnectionPool.create_one hsessions

/-- A client comes and a session is reserved for it. -/
def oneReserved : SessionSystem :=
  (oneSession.exec (.admitClients 1 1 .ok false)).exec (.reserve ⟨1, 0, 1⟩ ⟨1, 5, 0, 10, false⟩ (some (0, 0, 0, 7)))

/-- The client of a session that was committed leaves, and another one comes into its slot. -/
def slotReused : List SessionStep :=
  [.commit ⟨⟨1, 0, 1⟩, 1, 7⟩, .release ⟨1, 0, 1⟩ .ok false, .forget ⟨1, 0, 1⟩, .admitClients 1 1 .ok false,
    .reserve ⟨1, 0, 2⟩ ⟨2, 6, 0, 10, false⟩ (some (0, 0, 0, 8)), .commit ⟨⟨1, 0, 2⟩, 2, 8⟩]

/-- A session that is revoked while it is pending is committed and answered to nobody; the session of the next
    client of its slot is answered, to that client alone. -/
theorem sessions_safe_one :
    let revoked := oneReserved.exec (.revoke 5)
    let late := revoked.exec (.commit ⟨⟨1, 0, 1⟩, 1, 7⟩)
    let reused := slotReused.foldl SessionSystem.exec revoked
    committedTicket ⟨1, 0, 1⟩ late.log = some ⟨⟨1, 0, 1⟩, 1, 7⟩ ∧ (∀ j, late.lookup ⟨1, 0, 1⟩ 7 3 ≠ .ok j) ∧
      reused.lookup ⟨1, 0, 2⟩ 8 3 = .ok ⟨2, 6, 0, 10, false⟩ ∧ (∀ j, reused.lookup ⟨1, 0, 1⟩ 8 3 ≠ .ok j) ∧
      reused.sessions.slots.flatMap SessionSlot.handles = [8] := by
  intro revoked late reused
  have run : SessionRun oneReserved := (oneSession_run.step _).step _
  have held : oneReserved.Holds ⟨⟨1, 0, 1⟩, 1, 7⟩ 5 := ⟨_, mem_singleton.mpr rfl, .inl (by decide)⟩
  have safe := sessions_safe ((run.step (.revoke 5)).foldl slotReused)
  have hlate : committedTicket ⟨1, 0, 1⟩ late.log = some ⟨⟨1, 0, 1⟩, 1, 7⟩ := by decide
  refine ⟨hlate, fun j h => ?_, (safe.2.2.1 _ _ _ _).mpr ⟨⟨1, rfl⟩, ⟨⟨1, 0, 2⟩, 2, 8⟩, by decide⟩, fun j h => ?_,
    by decide⟩
  · exact (sessions_safe run).2.2.2 5 _ (.inl rfl) [.commit ⟨⟨1, 0, 1⟩, 1, 7⟩] _ held _ _ _ _ h hlate
  · obtain ⟨⟨connection, hfind⟩, -⟩ := (safe.2.2.1 _ _ _ _).mp h
    cases hfind

/-- **A commit does not ask the server**: the session of a client that has left is committed, and is not
    found. -/
theorem sessions_safe_gone : ∃ (s : SessionSystem) (ticket : SessionTicket) (i : SessionIdentity),
    SessionRun s ∧ (s.sessions.commit ticket).1 = .ok ∧ .reserved ticket i ∈ s.log ∧
    committedTicket ticket.client (s.exec (.commit ticket)).log = some ticket ∧
    revokedSince ticket i.sessionId (s.exec (.commit ticket)).log = false ∧ 3 < i.expiresAtMs ∧
    (s.exec (.commit ticket)).lookup ticket.client ticket.handle 3 = .error .notFound := by
  refine ⟨oneReserved.exec (.release ⟨1, 0, 1⟩ .ok false), ⟨⟨1, 0, 1⟩, 1, 7⟩, ⟨1, 5, 0, 10, false⟩,
    ((oneSession_run.step _).step _).step _, ?_⟩
  decide

end Vireo.Net
