/-
  File:      Vireo/Persistence/Schema.lean
  Subject:   THE TABLES of `mysql_schema.c`, their rows and their constraints.

  Left out: columns that no modelled statement reads and whose values are not constrained by one
  (`users.username`, whose text the server may refuse like any other failed execution), `name_hash`,
  and the tables of uploads, downloads, replicas and garbage collection. An AUTO_INCREMENT id is
  never zero.
-/
import Vireo.Lib.Table
import Vireo.Persistence.Cell

namespace Vireo.Persistence

open Lib

/-- A condition on a nullable column is decided by looking at it, not by trying every number. -/
instance (priority := high) decidableForallSome {α : Type} {p : α → Prop} [DecidablePred p]
    (o : Option α) : Decidable (∀ a, a ∈ o → p a) := Option.decidableForallMem o

/-! ## 1. Rows -/

/-- A row of `users`. -/
structure UserRow where
  id : UInt64
  usernameKey : Bytes
  passwordHash : Bytes
  status : UInt64
  createdAtMs : UInt64
  updatedAtMs : UInt64
  lastLoginAtMs : Option UInt64
deriving DecidableEq

@[mk_iff]
structure UserRow.Valid (r : UserRow) : Prop where
  id : r.id ≠ 0
  usernameKey : 1 ≤ r.usernameKey.length ∧ r.usernameKey.length ≤ 256
  passwordHash : 1 ≤ r.passwordHash.length ∧ r.passwordHash.length ≤ 127
  status : r.status = 1 ∨ r.status = 2
  updated : r.createdAtMs ≤ r.updatedAtMs
  lastLogin : ∀ t ∈ r.lastLoginAtMs, r.createdAtMs ≤ t

/-- A row of `sessions`. -/
structure SessionRow where
  id : UInt64
  userId : UInt64
  tokenDigest : Bytes
  status : UInt64
  issuedAtMs : UInt64
  expiresAtMs : UInt64
  revokedAtMs : Option UInt64
  lastSeenAtMs : UInt64
deriving DecidableEq

@[mk_iff]
structure SessionRow.Valid (r : SessionRow) : Prop where
  id : r.id ≠ 0
  digest : r.tokenDigest.length = 32
  status : r.status = 1 ∨ r.status = 2
  expiry : r.issuedAtMs < r.expiresAtMs
  lastSeen : r.issuedAtMs ≤ r.lastSeenAtMs ∧ r.lastSeenAtMs ≤ r.expiresAtMs
  revocation : (r.status = 1 ∧ r.revokedAtMs = none) ∨ (r.status = 2 ∧ ∃ t ∈ r.revokedAtMs, r.issuedAtMs ≤ t)

/-- A row of `objects`. -/
structure ObjectRow where
  objectHash : Bytes
  size : UInt64
  state : UInt64
  refCount : UInt64
  storageClass : UInt64
  createdAtMs : UInt64
  updatedAtMs : UInt64
  verifiedAtMs : Option UInt64
deriving DecidableEq

@[mk_iff]
structure ObjectRow.Valid (r : ObjectRow) : Prop where
  hash : r.objectHash.length = 32
  state : r.state = 1 ∨ r.state = 2 ∨ r.state = 3 ∨ r.state = 4
  storageClass : r.storageClass = 1
  updated : r.createdAtMs ≤ r.updatedAtMs
  verifiedRequired : r.state ≠ 2 ∨ r.verifiedAtMs ≠ none
  verified : ∀ t ∈ r.verifiedAtMs, r.createdAtMs ≤ t ∧ t ≤ r.updatedAtMs
  deleting : r.state ≠ 3 ∨ r.refCount = 0

/-- A row of `file_nodes`. -/
structure NodeRow where
  id : UInt64
  ownerId : UInt64
  parentId : Option UInt64
  name : Bytes
  nodeType : UInt64
  state : UInt64
  objectHash : Option Bytes
  size : UInt64
  createdAtMs : UInt64
  updatedAtMs : UInt64
  deletedAtMs : Option UInt64
deriving DecidableEq

@[mk_iff]
structure NodeRow.Valid (r : NodeRow) : Prop where
  id : r.id ≠ 0
  nodeType : r.nodeType = 1 ∨ r.nodeType = 2
  state : r.state = 1 ∨ r.state = 2 ∨ r.state = 3
  hash : ∀ h ∈ r.objectHash, h.length = 32
  location : (r.parentId = none ∧ r.name = [] ∧ r.nodeType = 1 ∧ r.state = 2) ∨
    (r.parentId ≠ none ∧ 1 ≤ r.name.length ∧ r.name.length ≤ 255 ∧ ValidName r.name)
  payload : (r.nodeType = 1 ∧ (r.state = 2 ∨ r.state = 3) ∧ r.objectHash = none ∧ r.size = 0) ∨
    (r.nodeType = 2 ∧ (r.state = 1 ∨ r.state = 3 ∨ (r.state = 2 ∧ r.objectHash ≠ none)))
  updated : r.createdAtMs ≤ r.updatedAtMs
  deletion : ((r.state = 1 ∨ r.state = 2) ∧ r.deletedAtMs = none) ∨
    (r.state = 3 ∧ ∃ t ∈ r.deletedAtMs, r.createdAtMs ≤ t ∧ t ≤ r.updatedAtMs)

/-- Uploading or active. -/
def NodeRow.Live (r : NodeRow) : Prop := r.state = 1 ∨ r.state = 2

instance (r : NodeRow) : Decidable r.Live := inferInstanceAs (Decidable (_ ∨ _))

/-- `live_name`: the name of a live node that has a parent. -/
def NodeRow.liveName (r : NodeRow) : Option Bytes :=
  if r.parentId ≠ none ∧ r.Live then some r.name else none

/-- `active_root_owner`: the owner of an active root. -/
def NodeRow.activeRootOwner (r : NodeRow) : Option UInt64 :=
  if r.parentId = none ∧ r.state = 2 then some r.ownerId else none

/-- The key `(owner_id, parent_id, live_name)`. -/
def NodeRow.nameKey (r : NodeRow) : Option (UInt64 × UInt64 × Bytes) :=
  match r.parentId, r.liveName with
  | some p, some n => some (r.ownerId, p, n)
  | _, _ => none

/-- A row of `operation_audits`. -/
structure AuditRow where
  id : UInt64
  requestId : Bytes
  userId : Option UInt64
  sessionId : Option UInt64
  action : UInt64
  targetType : UInt64
  targetId : Option UInt64
  targetHash : Option Bytes
  status : UInt64
  latencyUs : UInt64
  detail : Bytes
  occurredAtMs : UInt64
deriving DecidableEq

@[mk_iff]
structure AuditRow.Valid (r : AuditRow) : Prop where
  id : r.id ≠ 0
  request : r.requestId.length = 16 ∧ r.requestId ≠ List.replicate 16 0
  actor : (∀ u ∈ r.userId, u ≠ 0) ∧ (∀ s ∈ r.sessionId, s ≠ 0 ∧ r.userId ≠ none)
  action : r.action ≠ 0
  target : (r.targetType = 0 ∧ r.targetId = none ∧ r.targetHash = none) ∨
    ((r.targetType = 1 ∨ r.targetType = 2 ∨ r.targetType = 3) ∧
      r.targetId ≠ none ∧ r.targetId ≠ some 0 ∧ r.targetHash = none) ∨
    (r.targetType = 4 ∧ r.targetId = none ∧ r.targetHash.map List.length = some 32)

/-- A row of `directory_write_receipts`. -/
structure ReceiptRow where
  userId : UInt64
  command : UInt64
  idempotencyKey : Bytes
  formatVersion : UInt64
  requestParentId : UInt64
  requestNodeId : Option UInt64
  requestName : Bytes
  resultNodeId : UInt64
  auditId : UInt64
  createdAtMs : UInt64
deriving DecidableEq

@[mk_iff]
structure ReceiptRow.Valid (r : ReceiptRow) : Prop where
  user : r.userId ≠ 0
  command : r.command = 1027 ∨ r.command = 1029
  key : r.idempotencyKey.length = 16 ∧ r.idempotencyKey ≠ List.replicate 16 0
  format : r.formatVersion = 1
  parent : r.requestParentId ≠ 0
  name : 1 ≤ r.requestName.length ∧ r.requestName.length ≤ 255 ∧ ValidName r.requestName
  node : r.resultNodeId ≠ 0
  audit : r.auditId ≠ 0
  shape : (r.command = 1027 ∧ r.requestNodeId = none) ∨
    (r.command = 1029 ∧ r.requestNodeId ≠ some 0 ∧ r.requestNodeId = some r.resultNodeId)

/-- A row of `node_remove_receipts`. -/
structure RemovalRow where
  userId : UInt64
  command : UInt64
  idempotencyKey : Bytes
  formatVersion : UInt64
  requestNodeId : UInt64
  resultNodeId : UInt64
  auditId : UInt64
  createdAtMs : UInt64
deriving DecidableEq

@[mk_iff]
structure RemovalRow.Valid (r : RemovalRow) : Prop where
  user : r.userId ≠ 0
  command : r.command = 1028
  key : r.idempotencyKey.length = 16 ∧ r.idempotencyKey ≠ List.replicate 16 0
  format : r.formatVersion = 1
  request : r.requestNodeId ≠ 0
  result : r.resultNodeId ≠ 0 ∧ r.resultNodeId = r.requestNodeId
  audit : r.auditId ≠ 0

instance (r : UserRow) : Decidable r.Valid := decidable_of_iff _ (UserRow.valid_iff r).symm
instance (r : SessionRow) : Decidable r.Valid := decidable_of_iff _ (SessionRow.valid_iff r).symm
instance (r : ObjectRow) : Decidable r.Valid := decidable_of_iff _ (ObjectRow.valid_iff r).symm
instance (r : NodeRow) : Decidable r.Valid := decidable_of_iff _ (NodeRow.valid_iff r).symm
instance (r : AuditRow) : Decidable r.Valid := decidable_of_iff _ (AuditRow.valid_iff r).symm
instance (r : ReceiptRow) : Decidable r.Valid := decidable_of_iff _ (ReceiptRow.valid_iff r).symm
instance (r : RemovalRow) : Decidable r.Valid := decidable_of_iff _ (RemovalRow.valid_iff r).symm

/-! ## 2. The database -/

/-- The contents of the tables. -/
structure Tables where
  users : List UserRow := []
  sessions : List SessionRow := []
  objects : List ObjectRow := []
  nodes : List NodeRow := []
  audits : List AuditRow := []
  receipts : List ReceiptRow := []
  removals : List RemovalRow := []
deriving DecidableEq, Inhabited

/-- The next AUTO_INCREMENT values. -/
structure Counters where
  users : Nat := 1
  sessions : Nat := 1
  nodes : Nat := 1
  audits : Nat := 1
deriving Inhabited

/-- The CHECK constraints. -/
@[mk_iff]
structure Checks (t : Tables) : Prop where
  users : ∀ r ∈ t.users, r.Valid
  sessions : ∀ r ∈ t.sessions, r.Valid
  objects : ∀ r ∈ t.objects, r.Valid
  nodes : ∀ r ∈ t.nodes, r.Valid
  audits : ∀ r ∈ t.audits, r.Valid
  receipts : ∀ r ∈ t.receipts, r.Valid
  removals : ∀ r ∈ t.removals, r.Valid

def ReceiptRow.key (r : ReceiptRow) : UInt64 × UInt64 × Bytes :=
  (r.userId, r.command, r.idempotencyKey)

def RemovalRow.key (r : RemovalRow) : UInt64 × UInt64 × Bytes :=
  (r.userId, r.command, r.idempotencyKey)

/-- The PRIMARY and UNIQUE keys. -/
@[mk_iff]
structure Keys (t : Tables) : Prop where
  userId : Unique (fun r => some r.id) t.users
  usernameKey : Unique (fun r => some r.usernameKey) t.users
  sessionId : Unique (fun r => some r.id) t.sessions
  tokenDigest : Unique (fun r => some r.tokenDigest) t.sessions
  objectHash : Unique (fun r => some r.objectHash) t.objects
  nodeId : Unique (fun r => some r.id) t.nodes
  liveName : Unique NodeRow.nameKey t.nodes
  activeRoot : Unique NodeRow.activeRootOwner t.nodes
  auditId : Unique (fun r => some r.id) t.audits
  requestAction : Unique (fun r => some (r.requestId, r.action)) t.audits
  receipt : Unique (fun r => some r.key) t.receipts
  removal : Unique (fun r => some r.key) t.removals

/-- The FOREIGN KEYs. -/
@[mk_iff]
structure References (t : Tables) : Prop where
  session : ∀ r ∈ t.sessions, ∃ u ∈ t.users, u.id = r.userId
  owner : ∀ r ∈ t.nodes, ∃ u ∈ t.users, u.id = r.ownerId
  parent : ∀ r ∈ t.nodes, ∀ p ∈ r.parentId, ∃ q ∈ t.nodes, q.ownerId = r.ownerId ∧ q.id = p
  object : ∀ r ∈ t.nodes, ∀ h ∈ r.objectHash, ∃ o ∈ t.objects, o.objectHash = h

instance (t : Tables) : Decidable (Checks t) := decidable_of_iff _ (checks_iff t).symm
instance (t : Tables) : Decidable (Keys t) := decidable_of_iff _ (keys_iff t).symm
instance (t : Tables) : Decidable (References t) := decidable_of_iff _ (references_iff t).symm

/-- **A database that satisfies the schema.** -/
structure Schema (t : Tables) : Prop where
  checks : Checks t
  keys : Keys t
  references : References t

/-- Every id that was given out is below its counter. -/
structure Below (t : Tables) (n : Counters) : Prop where
  users : ∀ r ∈ t.users, r.id.toNat < n.users
  sessions : ∀ r ∈ t.sessions, r.id.toNat < n.sessions
  nodes : ∀ r ∈ t.nodes, r.id.toNat < n.nodes
  audits : ∀ r ∈ t.audits, r.id.toNat < n.audits

/-- Counters only grow. -/
structure Counters.Le (m n : Counters) : Prop where
  users : m.users ≤ n.users
  sessions : m.sessions ≤ n.sessions
  nodes : m.nodes ≤ n.nodes
  audits : m.audits ≤ n.audits

theorem Counters.Le.refl (n : Counters) : n.Le n :=
  ⟨Nat.le_refl _, Nat.le_refl _, Nat.le_refl _, Nat.le_refl _⟩

theorem Counters.Le.trans {a b c : Counters} (h : a.Le b) (k : b.Le c) : a.Le c :=
  ⟨h.users.trans k.users, h.sessions.trans k.sessions, h.nodes.trans k.nodes, h.audits.trans k.audits⟩

theorem Below.mono {t : Tables} {m n : Counters} (h : Below t m) (k : m.Le n) : Below t n :=
  ⟨fun r hr => (h.users r hr).trans_le k.users, fun r hr => (h.sessions r hr).trans_le k.sessions,
    fun r hr => (h.nodes r hr).trans_le k.nodes, fun r hr => (h.audits r hr).trans_le k.audits⟩

end Vireo.Persistence
