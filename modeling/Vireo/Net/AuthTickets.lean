/-
  File:      Vireo/Net/AuthTickets.lean
  Subject:   TICKETS THAT WAIT: which tickets of the table of the sessions are pending, call by call.
-/
import Vireo.Net.AuthSessionRun

namespace Vireo.Net

open Base Lib
open AuthSessions (abort applyLogout commit forget reserve reserve_cases revoke revokeSlot ticketSlot_cases)

/-! ## 1. Pending tickets -/

/-- A ticket is pending in the slot of its client. -/
def Waits (t : AuthSessions) (ticket : SessionTicket) : Prop :=
  ∃ slot, t.slots[ticket.client.slotIndex.toNat]? = some slot ∧ slot.pending = true ∧
    slot.client = ticket.client ∧ slot.ticket = ticket

section

variable {t : AuthSessions} {ticket other : SessionTicket}

theorem Waits.of_slots {t' : AuthSessions} (h : t'.slots = t.slots) : Waits t' ticket ↔ Waits t ticket := by
  unfold Waits
  rw [h]

theorem waits_set {i : Nat} {old new : SessionSlot} (hold : t.slots[i]? = some old) :
    Waits { t with slots := t.slots.set i new } ticket ↔
      if ticket.client.slotIndex.toNat = i then
        new.pending = true ∧ new.client = ticket.client ∧ new.ticket = ticket
      else Waits t ticket := by
  have hlt := (List.getElem?_eq_some_iff.mp hold).1
  unfold Waits
  split
  · rename_i heq
    rw [heq, List.getElem?_set_self hlt]
    constructor
    · intro ⟨slot, hslot, h⟩
      cases hslot
      exact h
    · exact fun h => ⟨new, rfl, h⟩
  · rename_i hne
    rw [List.getElem?_set_ne (Ne.symm hne)]

theorem Waits.ticketSlot (h : Waits t ticket) (hvalid : leaseValid ticket.client) (hserial : ticket.serial ≠ 0)
    (hhandle : ticket.handle ≠ 0) :
    ∃ slot, t.ticketSlot ticket = .ok slot ∧ t.slots[ticket.client.slotIndex.toNat]? = some slot ∧
      slot.client = ticket.client := by
  obtain ⟨slot, hslot, hpending, hclient, hticket⟩ := h
  refine ⟨slot, ?_, hslot, hclient⟩
  unfold AuthSessions.ticketSlot
  rw [if_neg (by simp [hvalid, hserial, hhandle]), hslot]
  dsimp only
  rw [if_neg (by simp [hpending, hclient, hticket])]

end

/-! ## 2. The calls -/

section

variable {t : AuthSessions} {ticket other : SessionTicket} {log : List SessionEvent} {lent : List (Lent Nat)}
  {issued : List Lease} {inspect : Lease → Except Failure CloseState} {identity : SessionIdentity}
  {random : Option (UInt8 × UInt8 × UInt8 × UInt8)} {client : Lease}

section

variable (inv : SessionsInv t log lent issued)
include inv

theorem waits_of_ticketSlot {slot : SessionSlot} (h : t.ticketSlot ticket = .ok slot) :
    Waits t ticket ∧ t.slots[ticket.client.slotIndex.toNat]? = some slot := by
  rcases ticketSlot_cases t ticket with ⟨e, -, he⟩ | ⟨s, hs, hslot, hpending, hclient, hserial, hhandle⟩
  · rw [he] at h
    cases h
  · rw [hs] at h
    cases h
    exact ⟨⟨slot, hslot, hpending, hclient, inv.waiting hslot hpending hclient hserial hhandle⟩, hslot⟩

theorem Waits.recorded (h : Waits t ticket) :
    ∃ identity, .reserved ticket identity ∈ log ∧ ticket.client ∈ issued ∧ leaseValid ticket.client ∧
      ticket.handle ≠ 0 := by
  obtain ⟨slot, hslot, hpending, -, hticket⟩ := h
  obtain ⟨-, identity, hmem, -⟩ := (inv.slots _ _ hslot).pending hpending
  rw [hticket] at hmem
  obtain ⟨hissued, hvalid, -, hhandle, -⟩ := inv.records ticket identity hmem
  exact ⟨identity, hmem, hissued, hvalid, hhandle⟩

omit inv in
theorem waits_settled {slot new : SessionSlot} (hslot : t.slots[ticket.client.slotIndex.toNat]? = some slot)
    (hwaits : Waits t ticket) (hnew : new.pending = false) :
    Waits { t with slots := t.slots.set ticket.client.slotIndex.toNat new } other ↔ Waits t other ∧ other ≠ ticket := by
  rw [waits_set hslot]
  split
  · rename_i heq
    constructor
    · intro h
      rw [hnew] at h
      cases h.1
    · rintro ⟨⟨s, hs, -, -, hticket⟩, hne⟩
      obtain ⟨s', hs', -, -, hticket'⟩ := hwaits
      rw [heq, hs'] at hs
      cases hs
      exact absurd (hticket.symm.trans hticket') hne
  · rename_i hne
    exact ⟨fun h => ⟨h, fun heq => hne (heq ▸ rfl)⟩, fun h => h.1⟩

/-- **An abort** succeeds for a ticket that waits, and takes this one. -/
theorem waits_abort (hserial : ticket.serial ≠ 0) : ((t.abort ticket).1 = .ok ↔ Waits t ticket) ∧
      ∀ other, Waits (t.abort ticket).2 other ↔ Waits t other ∧ other ≠ ticket := by
  unfold abort
  cases hfound : t.ticketSlot ticket with
  | error e =>
    have hnone : ¬ Waits t ticket := by
      intro h
      obtain ⟨-, -, -, hvalid, hhandle⟩ := h.recorded inv
      obtain ⟨slot, hslot, -⟩ := h.ticketSlot hvalid hserial hhandle
      rw [hslot] at hfound
      cases hfound
    have hne : e ≠ .ok := by
      rcases ticketSlot_cases t ticket with ⟨e', hne, he⟩ | ⟨s, hs, -⟩
      · rw [he] at hfound
        cases hfound
        exact hne
      · rw [hs] at hfound
        cases hfound
    exact ⟨iff_of_false hne hnone, fun other => ⟨fun h => ⟨h, fun heq => hnone (heq ▸ h)⟩, fun h => h.1⟩⟩
  | ok slot =>
    obtain ⟨hwaits, hslot⟩ := waits_of_ticketSlot inv hfound
    exact ⟨iff_of_true rfl hwaits, fun other => waits_settled hslot hwaits rfl⟩

/-- **A commit** succeeds for a ticket that waits, and takes this one. -/
theorem waits_commit (hwaits : Waits t ticket) (hserial : ticket.serial ≠ 0) :
    (t.commit ticket).1 = .ok ∧ ∀ other, Waits (t.commit ticket).2 other ↔ Waits t other ∧ other ≠ ticket := by
  obtain ⟨-, -, -, hvalid, hhandle⟩ := hwaits.recorded inv
  obtain ⟨slot, hfound, hslot, -⟩ := hwaits.ticketSlot hvalid hserial hhandle
  unfold commit
  rw [hfound]
  exact ⟨rfl, fun other => waits_settled hslot hwaits rfl⟩

end

theorem waits_revoke (sessionId : UInt64) : Waits (t.revoke sessionId).2 other ↔ Waits t other := by
  unfold revoke
  split
  · exact .rfl
  unfold Waits
  rw [List.getElem?_map]
  cases t.slots[other.client.slotIndex.toNat]? with
  | none => simp
  | some slot => simp [revokeSlot]

theorem waits_applyLogout (sessionId : UInt64) : Waits (t.applyLogout sessionId).2 other ↔ Waits t other := by
  unfold applyLogout
  split
  · exact .rfl
  · exact (waits_revoke sessionId).trans (Waits.of_slots rfl)

theorem applyLogout_ok {sessionId : UInt64} (h : sessionId ≠ 0) : (t.applyLogout sessionId).1 = .ok := by
  unfold applyLogout revoke
  rw [if_neg h, if_neg h]
  generalize t.slots.any _ = found
  cases found <;> rfl

theorem waits_forget (client : Lease) : (Waits (t.forget client).2 other → Waits t other) ∧
      (Waits t other → other.client ≠ client → Waits (t.forget client).2 other) := by
  unfold forget
  split
  · exact ⟨fun h => h, fun h _ => h⟩
  split
  · exact ⟨fun h => h, fun h _ => h⟩
  split
  · exact ⟨fun h => h, fun h _ => h⟩
  rename_i slot hslot hclient
  rw [waits_set hslot]
  split
  · rename_i heq
    refine ⟨fun h => absurd h.1 (by decide), fun ⟨s, hs, _, hsclient, _⟩ hne => ?_⟩
    rw [heq, hslot] at hs
    cases hs
    exact absurd (hsclient.symm.trans (not_not.mp hclient)) hne
  · exact ⟨fun h => h, fun h _ => h⟩

theorem reserve_busy (hwaits : Waits t other) :
    (t.reserve inspect other.client identity random).1 ≠ .ok ticket := by
  obtain ⟨slot, hslot, hpending, hclient, -⟩ := hwaits
  unfold reserve
  split
  · exact nofun
  split
  · exact nofun
  rw [hslot]
  dsimp only
  rw [if_pos ⟨hclient, hpending⟩]
  exact nofun

theorem reserve_error {e : Result} (h : (t.reserve inspect client identity random).1 = .error e) : e ≠ .ok := by
  unfold reserve at h
  split at h
  · cases h
    decide
  split at h
  · rename_i failure _
    cases h
    exact failure.property
  split at h
  · cases h
    decide
  split at h
  · cases h
    decide
  split at h
  · cases h
    decide
  split at h
  · cases h
    decide
  dsimp only at h
  split at h
  · cases h
    decide
  split at h
  · cases h
    decide
  · cases h

/-- **A reserve** adds a ticket that was never issued, and takes those of others in its slot. -/
theorem waits_reserve (h : (t.reserve inspect client identity random).1 = .ok ticket) :
    (∃ state, inspect client = .ok state) ∧ ticket.client = client ∧ ticket.serial = t.serial + 1 ∧
      t.serial ≠ u64Max ∧
      ∀ other, Waits (t.reserve inspect client identity random).2 other ↔
        other = ticket ∨ other.client.slotIndex ≠ client.slotIndex ∧ Waits t other := by
  have hcases := reserve_cases t inspect client identity random
  generalize t.reserve inspect client identity random = r at h hcases
  cases hcases with
  | refused e => cases h
  | @taken slot handle state valid named standing current found room nonzero unused =>
    cases h
    refine ⟨⟨state, current⟩, rfl, rfl, room, fun other => ?_⟩
    rw [@waits_set { t with serial := t.serial + 1 } _ _ _ _ found]
    have hclient : (if slot.client = client then slot else SessionSlot.of client).client = client := by
      split
      · assumption
      · rfl
    rw [hclient]
    have hindex : other.client.slotIndex.toNat = client.slotIndex.toNat ↔
      other.client.slotIndex = client.slotIndex := UInt64.toNat_inj
    split
    · rename_i heq
      rw [hindex] at heq
      constructor
      · exact fun h => .inl h.2.2.symm
      rintro (rfl | ⟨hne, -⟩)
      · exact ⟨rfl, rfl, rfl⟩
      · exact absurd heq hne
    · rename_i hne
      rw [hindex] at hne
      constructor
      · exact fun h => .inr ⟨hne, h⟩
      rintro (rfl | ⟨-, h⟩)
      · exact absurd rfl hne
      · exact h

end

/-! ## 3. Who holds a ticket -/

/-- The tickets that wait are held by somebody; what is held was issued and waits, unless its client is closed
    or gone. -/
structure Tickets (s : SessionSystem) (lent : List (Lent Nat)) (issued closed : List Lease)
    (held : SessionTicket → Prop) : Prop where
  inv : SessionSystemInv s lent issued
  waiting : ∀ ticket, Waits s.sessions ticket → held ticket
  kept : ∀ ticket, held ticket →
    Waits s.sessions ticket ∨ ticket.client ∈ closed ∨ ∀ l ∈ lent, l.lease ≠ ticket.client
  known : ∀ ticket, held ticket → ticket.serial ≠ 0 ∧ ∃ identity, .reserved ticket identity ∈ s.log

section

variable {s : SessionSystem} {lent : List (Lent Nat)} {issued closed : List Lease}
  {held held' : SessionTicket → Prop} {ticket : SessionTicket}

section

variable (tickets : Tickets s lent issued closed held) {client : Lease}
include tickets

theorem Tickets.congr (h : ∀ ticket, held ticket ↔ held' ticket) : Tickets s lent issued closed held' :=
  ⟨tickets.inv, fun T hT => (h T).mp (tickets.waiting T hT), fun T hT => tickets.kept T ((h T).mpr hT),
    fun T hT => tickets.known T ((h T).mpr hT)⟩

theorem Tickets.close (client : Lease) : Tickets s lent issued (client :: closed) held :=
  { tickets with kept := fun T hT => (tickets.kept T hT).imp_right (.imp_left (List.mem_cons_of_mem _)) }

theorem Tickets.waits (hheld : held ticket) (hclosed : ticket.client ∉ closed) {state : CloseState}
    (hthere : s.clients.clientInspect ticket.client = .ok state) : Waits s.sessions ticket := by
  obtain ⟨l, hl, hlease, -⟩ := (clientInspect_eq_ok_iff tickets.inv.clients).mp hthere
  exact (tickets.kept ticket hheld).resolve_right fun h => h.elim hclosed fun hgone => hgone l hl hlease

theorem tickets_reserve {identity : SessionIdentity} {random : Option (UInt8 × UInt8 × UInt8 × UInt8)}
    (h : (s.sessions.reserve s.clients.clientInspect client identity random).1 = .ok ticket) :
    Tickets (s.exec (.reserve client identity random)) lent issued closed (fun T => held T ∨ T = ticket) ∧
      (s.exec (.reserve client identity random)).log = .reserved ticket identity :: s.log ∧
      ticket.client = client ∧ ∀ i, .reserved ticket i ∉ s.log := by
  obtain ⟨⟨state, hstate⟩, hclient, hserial, hroom, hwaits⟩ := waits_reserve h
  have hcurrent := tickets.inv.current state hstate
  have hcases := reserve_cases s.sessions s.clients.clientInspect client identity random
  have hfresh : ∀ i, .reserved ticket i ∉ s.log := by
    have hnew := tickets.inv.sessions.fresh hroom client ticket.handle
    rw [← hclient, ← hserial] at hnew
    exact hnew
  have hbusy : ∀ T, Waits s.sessions T → T.client ≠ client := by
    rintro T hT rfl
    exact reserve_busy hT h
  unfold SessionSystem.exec SessionSystem.reserve
  dsimp only
  generalize s.sessions.reserve s.clients.clientInspect client identity random = r at h hwaits hcases ⊢
  obtain ⟨result, sessions⟩ := r
  obtain rfl : result = .ok ticket := h
  dsimp only at hwaits ⊢
  have hinv := sessionsInv_reserve tickets.inv.sessions tickets.inv.current hcases
  refine ⟨⟨{ tickets.inv with sessions := hinv }, fun T hT => ?_, fun T hT => ?_,
    fun T hT => ?_⟩, rfl, hclient, hfresh⟩
  · exact ((hwaits T).mp hT).elim .inr fun old => .inl (tickets.waiting T old.2)
  · rcases hT with hT | rfl
    · rcases tickets.kept T hT with waits | away
      · -- the ticket of another client in the slot is one of a client that is gone
        by_cases hindex : T.client.slotIndex = client.slotIndex
        · refine .inr (.inr fun l hl hlease => hbusy T waits ?_)
          exact hlease.symm.trans (hcurrent.2 l hl (by rw [hlease, hindex]))
        · exact .inl ((hwaits T).mpr (.inr ⟨hindex, waits⟩))
      · exact .inr away
    · exact .inl ((hwaits T).mpr (.inl rfl))
  · rcases hT with hT | rfl
    · obtain ⟨hne, i, hi⟩ := tickets.known T hT
      exact ⟨hne, i, List.mem_cons_of_mem _ hi⟩
    · refine ⟨fun hzero => ?_, identity, List.mem_cons_self ..⟩
      have := serial_succ hroom
      rw [hserial, ← UInt64.toNat_inj, this] at hzero
      cases hzero

theorem Tickets.taken {s' : SessionSystem} (hinv : SessionSystemInv s' lent issued)
    (hwaits : ∀ other, Waits s'.sessions other ↔ Waits s.sessions other ∧ other ≠ ticket)
    (hlog : ∀ T i, .reserved T i ∈ s.log → .reserved T i ∈ s'.log) :
    Tickets s' lent issued closed (fun T => held T ∧ T ≠ ticket) where
  inv := hinv
  waiting T hT := ⟨tickets.waiting T ((hwaits T).mp hT).1, ((hwaits T).mp hT).2⟩
  kept T hT := (tickets.kept T hT.1).imp_left fun h => (hwaits T).mpr ⟨h, hT.2⟩
  known T hT := by
    obtain ⟨hne, i, hi⟩ := tickets.known T hT.1
    exact ⟨hne, i, hlog T i hi⟩

theorem tickets_abort (hheld : held ticket) :
    Tickets (s.exec (.abort ticket)) lent issued closed (fun T => held T ∧ T ≠ ticket) ∧
      ((s.sessions.abort ticket).1 = .ok ↔ Waits s.sessions ticket) ∧
      ((s.sessions.abort ticket).1 = .ok ∨ (s.sessions.abort ticket).1 = .notFound) := by
  obtain ⟨hserial, i, hi⟩ := tickets.known ticket hheld
  obtain ⟨hok, hwaits⟩ := waits_abort tickets.inv.sessions hserial
  obtain ⟨-, hvalid, -, hhandle, -⟩ := tickets.inv.sessions.records ticket i hi
  refine ⟨tickets.taken { tickets.inv with
      sessions := sessionsInv_abort tickets.inv.sessions ticket } hwaits fun _ _ h => h, hok, ?_⟩
  unfold abort AuthSessions.ticketSlot
  rw [if_neg (by simp [hvalid, hserial, hhandle])]
  split
  · rename_i e hslot
    split at hslot
    · cases hslot
      exact .inr rfl
    · split at hslot
      · cases hslot
        exact .inr rfl
      · cases hslot
  · exact .inl rfl

theorem tickets_commit (hwaits : Waits s.sessions ticket) :
    Tickets (s.exec (.commit ticket)) lent issued closed (fun T => held T ∧ T ≠ ticket) ∧
      (s.sessions.commit ticket).1 = .ok ∧ (s.exec (.commit ticket)).log = .committed ticket :: s.log := by
  obtain ⟨hserial, -⟩ := tickets.known ticket (tickets.waiting ticket hwaits)
  obtain ⟨hok, hafter⟩ := waits_commit tickets.inv.sessions hwaits hserial
  have hinv := (sessionsInv_commit tickets.inv.sessions ticket).1 hok
  unfold SessionSystem.exec SessionSystem.commit
  dsimp only
  generalize s.sessions.commit ticket = r at hok hafter hinv ⊢
  obtain ⟨result, sessions⟩ := r
  obtain rfl : result = .ok := hok
  exact ⟨tickets.taken { tickets.inv with sessions := hinv } hafter
    fun T i h => List.mem_cons_of_mem _ h, rfl, rfl⟩

theorem tickets_applyLogout (sessionId : UInt64) :
    Tickets (s.exec (.applyLogout sessionId)) lent issued closed held where
  inv := { tickets.inv with sessions := sessionsInv_applyLogout tickets.inv.sessions sessionId }
  waiting T hT := tickets.waiting T ((waits_applyLogout sessionId).mp hT)
  kept T hT := (tickets.kept T hT).imp_left (waits_applyLogout sessionId).mpr
  known T hT := by
    obtain ⟨hne, i, hi⟩ := tickets.known T hT
    exact ⟨hne, i, List.mem_cons_of_mem _ hi⟩

/-- **A forget** of a client that is closed or gone takes what was held of it out of the table. -/
theorem tickets_forget (haway : client ∈ closed ∨ ∀ l ∈ lent, l.lease ≠ client) :
    Tickets (s.exec (.forget client)) lent issued closed held where
  inv := { tickets.inv with sessions := sessionsInv_forget tickets.inv.sessions client }
  waiting T hT := tickets.waiting T ((waits_forget client).1 hT)
  kept T hT := by
    by_cases hclient : T.client = client
    · exact .inr (hclient ▸ haway)
    · exact (tickets.kept T hT).imp_left fun h => (waits_forget client).2 h hclient
  known T hT := by
    obtain ⟨hne, i, hi⟩ := tickets.known T hT
    exact ⟨hne, i, List.mem_cons_of_mem _ hi⟩

/-- **What the server does** leaves the tickets: a client that is gone does not come back under its lease. -/
theorem tickets_server (e : SessionStep)
    (hslots : (s.exec e).sessions.slots = s.sessions.slots) (hlog : (s.exec e).log = s.log) :
    ∃ lent' issued', Tickets (s.exec e) lent' issued' closed held := by
  obtain ⟨lent', issued', inv', hlent⟩ := sessionSystemInv_exec tickets.inv e
  refine ⟨lent', issued', inv', fun T hT => tickets.waiting T ((Waits.of_slots hslots).mp hT), fun T hT => ?_,
    fun T hT => hlog ▸ tickets.known T hT⟩
  rcases tickets.kept T hT with waits | closed | gone
  · exact .inl ((Waits.of_slots hslots).mpr waits)
  · exact .inr (.inl closed)
  refine .inr (.inr fun l hl hlease => ?_)
  obtain ⟨-, i, hi⟩ := tickets.known T hT
  have hissued := (tickets.inv.sessions.records T i hi).1
  exact (hlent l hl).elim (fun old => gone l old hlease) fun new => new (hlease ▸ hissued)

end

end

end Vireo.Net
