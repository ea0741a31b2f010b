/-
  File:      Vireo/Net/AuthSession.lean
  Subject:   THE TABLE OF THE SESSIONS (`src/net/auth_session.c`): one slot a client, with the session that
             is answered for and the one that waits for its response to be queued.

  The NULL checks are left out. The random source either fails or gives four bytes.
-/
import Vireo.Net.Clients

namespace Vireo.Net

open Base

/-! ## 1. The table -/

/-- `vireo_auth_session_identity_t`. -/
structure SessionIdentity where
  userId : UInt64
  sessionId : UInt64
  issuedAtMs : UInt64
  expiresAtMs : UInt64
  revoked : Bool
deriving DecidableEq

/-- `vireo_auth_session_ticket_t`. -/
structure SessionTicket where
  client : Lease
  serial : UInt64
  handle : UInt32
deriving DecidableEq

/-- `session_slot_t`: `identity` and `handle` are those of the active session, `candidate` and `ticket`
    those of the pending one. -/
structure SessionSlot where
  client : Lease
  active : Bool
  pending : Bool
  identity : SessionIdentity
  candidate : SessionIdentity
  handle : UInt32
  ticket : SessionTicket

def SessionIdentity.zero : SessionIdentity := ⟨0, 0, 0, 0, false⟩

def SessionTicket.zero : SessionTicket := ⟨⟨0, 0, 0⟩, 0, 0⟩

/-- A slot that was cleared, but for its client. -/
def SessionSlot.of (client : Lease) : SessionSlot := ⟨client, false, false, .zero, .zero, 0, .zero⟩

def SessionSlot.empty : SessionSlot := .of ⟨0, 0, 0⟩

/-- The handles that a slot uses. -/
def SessionSlot.handles (s : SessionSlot) : List UInt32 :=
  (if s.active then [s.handle] else []) ++ if s.pending then [s.ticket.handle] else []

/-- `struct vireo_auth_sessions`; the capacity is the length of `slots`. -/
structure AuthSessions where
  slots : List SessionSlot
  serial : UInt64
  lastResumeInstance : UInt64
  resumeCutoff : UInt64

/-- `lease_valid`. -/
def leaseValid (c : Lease) : Prop := c.poolId ≠ 0 ∧ c.generation ≠ 0

instance (c : Lease) : Decidable (leaseValid c) := inferInstanceAs (Decidable (_ ∧ _))

/-- The four random bytes, the first one on top. -/
def handleOf (b0 b1 b2 b3 : UInt8) : UInt32 :=
  b0.toUInt32 <<< 24 ||| b1.toUInt32 <<< 16 ||| b2.toUInt32 <<< 8 ||| b3.toUInt32

namespace AuthSessions

/-- `VIREO_AUTH_SESSION_MEMORY_MAX`. -/
def memoryMax : UInt64 := 67108864

/-- `sizeof(session_slot_t)` on LP64. -/
def slotBytes : UInt64 := 160

/-- `sizeof(vireo_auth_sessions_t)` on LP64. -/
def controlBytes : UInt64 := 48

/-- `vireo_auth_sessions_create`; `info` is the capacity that the server tells, `memory` says whether the
    allocation succeeds. -/
def create (maxMemoryBytes : UInt64) (info : Except Result UInt64) (memory : Bool) :
    Except Result AuthSessions :=
  if maxMemoryBytes = 0 then .error .invalidArgument
  else if maxMemoryBytes > memoryMax then .error .range
  else
    match info with
    | .error e => .error e
    | .ok connectionCapacity =>
      match checkedU64Mul connectionCapacity slotBytes with
      | .error e => .error e
      | .ok slotsBytes =>
        match checkedU64Add slotsBytes controlBytes with
        | .error e => .error e
        | .ok bytes =>
          if bytes > maxMemoryBytes then .error .range
          else if memory = false then .error .noMemory
          else .ok ⟨List.replicate connectionCapacity.toNat .empty, 0, 0, 0⟩

variable (t : AuthSessions)

/-- `vireo_auth_session_reserve_with`; `inspect` is what the server says of a client. -/
def reserve (inspect : Lease → Except Failure CloseState) (client : Lease) (identity : SessionIdentity)
    (random : Option (UInt8 × UInt8 × UInt8 × UInt8)) :
    Except Result SessionTicket × AuthSessions :=
  if ¬leaseValid client ∨ identity.userId = 0 ∨ identity.sessionId = 0 ∨ identity.revoked = true ∨
      identity.expiresAtMs ≤ identity.issuedAtMs then (.error .invalidArgument, t)
  else
    match inspect client with
    | .error e => (.error e.val, t)
    | .ok _ =>
      match t.slots[client.slotIndex.toNat]? with
      | none => (.error .range, t)
      | some s =>
        if s.client = client ∧ s.pending = true then (.error .busy, t)
        else if t.serial = u64Max then (.error .overflow, t)
        else
          match random with
          | none => (.error .io, t)
          | some (b0, b1, b2, b3) =>
            let handle := handleOf b0 b1 b2 b3
            if handle = 0 then (.error .busy, t)
            else if t.slots.any (fun s => s.active && s.handle = handle || s.pending && s.ticket.handle = handle)
            then (.error .busy, t)
            else
              let s := if s.client = client then s else .of client
              let ticket : SessionTicket := ⟨client, t.serial + 1, handle⟩
              let s := { s with candidate := identity, pending := true, ticket := ticket }
              (.ok ticket, { t with
                slots := t.slots.set client.slotIndex.toNat s
                serial := t.serial + 1 })

/-- `ticket_slot`. -/
def ticketSlot (ticket : SessionTicket) : Except Result SessionSlot :=
  if ¬leaseValid ticket.client ∨ ticket.serial = 0 ∨ ticket.handle = 0 then .error .invalidArgument
  else
    match t.slots[ticket.client.slotIndex.toNat]? with
    | none => .error .notFound
    | some s =>
      if s.pending = false ∨ s.client ≠ ticket.client ∨ s.ticket.serial ≠ ticket.serial ∨
          s.ticket.handle ≠ ticket.handle then .error .notFound
      else .ok s

/-- `vireo_auth_session_commit`. -/
def commit (ticket : SessionTicket) : Result × AuthSessions :=
  match t.ticketSlot ticket with
  | .error e => (e, t)
  | .ok s =>
    let s := { s with
      identity := s.candidate, handle := ticket.handle, active := true
      pending := false, candidate := .zero, ticket := .zero }
    (.ok, { t with slots := t.slots.set ticket.client.slotIndex.toNat s })

/-- `vireo_auth_session_abort`. -/
def abort (ticket : SessionTicket) : Result × AuthSessions :=
  match t.ticketSlot ticket with
  | .error e => (e, t)
  | .ok s =>
    let s := { s with pending := false, candidate := .zero, ticket := .zero }
    (.ok, { t with slots := t.slots.set ticket.client.slotIndex.toNat s })

/-- `vireo_auth_session_lookup`. -/
def lookup (inspect : Lease → Except Failure CloseState) (client : Lease) (handle : UInt32) (now : UInt64) :
    Except Result SessionIdentity :=
  if ¬leaseValid client ∨ handle = 0 then .error .invalidArgument
  else
    match inspect client with
    | .error e => .error e.val
    | .ok _ =>
      match t.slots[client.slotIndex.toNat]? with
      | none => .error .range
      | some s =>
        if s.client ≠ client ∨ s.active = false ∨ s.handle ≠ handle then .error .notFound
        else if s.identity.revoked = true then .error .cancelled
        else if now ≥ s.identity.expiresAtMs then .error .timeout
        else .ok s.identity

/-- What `vireo_auth_session_revoke` does to a slot. -/
def revokeSlot (sessionId : UInt64) (s : SessionSlot) : SessionSlot :=
  { s with
    identity := if s.active = true ∧ s.identity.sessionId = sessionId then { s.identity with revoked := true }
      else s.identity
    candidate := if s.pending = true ∧ s.candidate.sessionId = sessionId
      then { s.candidate with revoked := true } else s.candidate }

/-- `vireo_auth_session_revoke`. -/
def revoke (sessionId : UInt64) : Result × AuthSessions :=
  if sessionId = 0 then (.invalidArgument, t)
  else
    let found := t.slots.any fun s => s.active && s.identity.sessionId = sessionId ||
      s.pending && s.candidate.sessionId = sessionId
    (if found then .ok else .notFound, { t with slots := t.slots.map (revokeSlot sessionId) })

/-- `vireo_auth_session_forget`. -/
def forget (client : Lease) : Result × AuthSessions :=
  if ¬leaseValid client then (.invalidArgument, t)
  else
    match t.slots[client.slotIndex.toNat]? with
    | none => (.notFound, t)
    | some s =>
      if s.client ≠ client then (.notFound, t)
      else (.ok, { t with slots := t.slots.set client.slotIndex.toNat .empty })

/-- `vireo_auth_session_note_resume`. -/
def noteResume (id : UInt64) : Result × AuthSessions :=
  if id = 0 ∨ id ≤ t.lastResumeInstance then (.invalidArgument, t)
  else (.ok, { t with lastResumeInstance := id })

/-- `vireo_auth_session_check_resume`. -/
def checkResume (id : UInt64) : Result :=
  if id = 0 then .invalidArgument
  else if id > t.lastResumeInstance then .notFound
  else if id ≤ t.resumeCutoff then .busy else .ok

/-- `vireo_auth_session_apply_logout`. -/
def applyLogout (id : UInt64) : Result × AuthSessions :=
  if id = 0 then (.invalidArgument, t)
  else
    let revoked := { t with resumeCutoff := t.lastResumeInstance }.revoke id
    (if revoked.1 = .notFound then .ok else revoked.1, revoked.2)

end AuthSessions

/-! ## 2. The table beside its server -/

/-- The calls that the history keeps, with what they made. -/
inductive SessionEvent where
  | reserved (ticket : SessionTicket) (identity : SessionIdentity)
  | committed (ticket : SessionTicket)
  | revoked (sessionId : UInt64)
  | forgotten (client : Lease)
deriving DecidableEq

/-- The ticket of the last commit for a client, if no call of `forget` came after it. -/
def committedTicket (client : Lease) : List SessionEvent → Option SessionTicket
  | [] => none
  | .committed ticket :: earlier =>
    if ticket.client = client then some ticket else committedTicket client earlier
  | .forgotten c :: earlier => if c = client then none else committedTicket client earlier
  | .reserved .. :: earlier => committedTicket client earlier
  | .revoked _ :: earlier => committedTicket client earlier

/-- Since the ticket was issued its session was revoked. -/
def revokedSince (ticket : SessionTicket) (sessionId : UInt64) : List SessionEvent → Bool
  | [] => false
  | .reserved t _ :: earlier => if t = ticket then false else revokedSince ticket sessionId earlier
  | .revoked id :: earlier => id = sessionId || revokedSince ticket sessionId earlier
  | .committed _ :: earlier => revokedSince ticket sessionId earlier
  | .forgotten _ :: earlier => revokedSince ticket sessionId earlier

/-- The server's clients and their sessions; `created` connections were accepted so far, the newest call is
    first in the log. -/
structure SessionSystem where
  clients : ClientTable Nat
  created : Nat
  sessions : AuthSessions
  log : List SessionEvent

/-- What can happen next. -/
inductive SessionStep where
  | admitClients (readCapacity writeCapacity : Nat) (attach : Result) (closeFails : Bool)
  | release (lease : Lease) (detached : Result) (closeFails : Bool)
  | proceed (connection : Nat) (closeState : CloseState) (callbackActive : Bool)
  | stop
  | reserve (client : Lease) (identity : SessionIdentity) (random : Option (UInt8 × UInt8 × UInt8 × UInt8))
  | commit (ticket : SessionTicket)
  | abort (ticket : SessionTicket)
  | revoke (sessionId : UInt64)
  | applyLogout (sessionId : UInt64)
  | forget (client : Lease)
  | noteResume (id : UInt64)

namespace SessionSystem

variable (s : SessionSystem)

/-- A candidate is reserved; one that was is written down with its ticket. -/
def reserve (client : Lease) (identity : SessionIdentity) (random : Option (UInt8 × UInt8 × UInt8 × UInt8)) :
    SessionSystem :=
  match s.sessions.reserve s.clients.clientInspect client identity random with
  | (.ok ticket, sessions) =>
    { s with sessions := sessions, log := .reserved ticket identity :: s.log }
  | (.error _, sessions) => { s with sessions := sessions }

/-- A ticket is committed, whatever ticket that is; a commit that succeeds is written down. -/
def commit (ticket : SessionTicket) : SessionSystem :=
  match s.sessions.commit ticket with
  | (.ok, sessions) => { s with sessions := sessions, log := .committed ticket :: s.log }
  | (_, sessions) => { s with sessions := sessions }

/-- One call of the reactor. -/
def exec : SessionStep → SessionSystem
  | .admitClients readCapacity writeCapacity attach closeFails =>
    { s with
      clients := (s.clients.admitClients s.created readCapacity writeCapacity attach closeFails).2.2
      created := s.created + 1 }
  | .release lease detached closeFails =>
    { s with clients := (s.clients.releaseClient lease detached closeFails).2 }
  | .proceed connection closeState callbackActive =>
    { s with clients := s.clients.proceed connection closeState callbackActive }
  | .stop => { s with clients := s.clients.requestStop }
  | .reserve client identity random => s.reserve client identity random
  | .commit ticket => s.commit ticket
  | .abort ticket => { s with sessions := (s.sessions.abort ticket).2 }
  | .revoke sessionId =>
    { s with sessions := (s.sessions.revoke sessionId).2, log := .revoked sessionId :: s.log }
  | .applyLogout sessionId =>
    { s with sessions := (s.sessions.applyLogout sessionId).2, log := .revoked sessionId :: s.log }
  | .forget client => { s with sessions := (s.sessions.forget client).2, log := .forgotten client :: s.log }
  | .noteResume id => { s with sessions := (s.sessions.noteResume id).2 }

/-- What a client is told about its handle. -/
def lookup (client : Lease) (handle : UInt32) (now : UInt64) :
    Except Result SessionIdentity :=
  s.sessions.lookup s.clients.clientInspect client handle now

/-- The ticket is that of a session of this id that is active or pending. -/
def Holds (ticket : SessionTicket) (sessionId : UInt64) : Prop :=
  ∃ slot ∈ s.sessions.slots,
    (slot.pending = true ∧ slot.ticket = ticket ∧ slot.candidate.sessionId = sessionId) ∨
    (slot.active = true ∧ committedTicket slot.client s.log = some ticket ∧ slot.identity.sessionId = sessionId)

end SessionSystem

/-- The states that are reached from a server just created and a table just created for it. -/
inductive SessionRun : SessionSystem → Prop
  | start {options : ConnectionPoolOptions} {source : UInt64} {storageMemory control index : Bool}
      {pool : ConnectionPool Nat} {maxMemoryBytes : UInt64} {memory : Bool} {sessions : AuthSessions}
      (hpool : ConnectionPool.create options source storageMemory control index = .ok pool)
      (hsessions : AuthSessions.create maxMemoryBytes (.ok (ClientTable.opened pool).connectionCapacity) memory =
        .ok sessions) : SessionRun ⟨.opened pool, 0, sessions, []⟩
  | step {s : SessionSystem} (h : SessionRun s) (e : SessionStep) : SessionRun (s.exec e)

end Vireo.Net
