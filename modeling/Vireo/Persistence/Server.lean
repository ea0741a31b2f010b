/-
  File:      Vireo/Persistence/Server.lean
  Subject:   THE MEANING OF THE FIXED STATEMENTS on the tables of the schema.

  `exec` evaluates one statement inside a transaction: a read answers with rows of cells, a write is
  accepted when the tables satisfy the schema after it and refused with the server's error number
  when they do not. Row locks have no meaning here: transactions run one after the other.
-/
import Vireo.Persistence.Schema
import Vireo.Persistence.Statement

namespace Vireo.Persistence

open Lib

/-! ## 1. Rows as cells -/

def UserRow.statusCells (r : UserRow) : List Cell := [u64Cell r.id, u64Cell r.status]

def UserRow.accountCells (r : UserRow) : List Cell :=
  [some r.passwordHash, u64Cell r.status, u64Cell r.createdAtMs]

def UserRow.credentialCells (r : UserRow) : List Cell :=
  [u64Cell r.id, u64Cell r.status, some r.passwordHash]

def SessionRow.stateCells (r : SessionRow) : List Cell :=
  [u64Cell r.id, u64Cell r.userId, u64Cell r.status, u64Cell r.issuedAtMs, u64Cell r.expiresAtMs,
    nullableCell r.revokedAtMs, u64Cell r.lastSeenAtMs]

def SessionRow.logoutCells (r : SessionRow) : List Cell :=
  [u64Cell r.userId, u64Cell r.status, u64Cell r.issuedAtMs, u64Cell r.expiresAtMs,
    nullableCell r.revokedAtMs, u64Cell r.lastSeenAtMs]

/-- The eleven node columns. -/
def NodeRow.cells (r : NodeRow) : List Cell :=
  [u64Cell r.id, u64Cell r.ownerId, nullableCell r.parentId, some r.name, u64Cell r.nodeType,
    u64Cell r.state, r.objectHash, u64Cell r.size, u64Cell r.createdAtMs, u64Cell r.updatedAtMs,
    nullableCell r.deletedAtMs]

def NodeRow.nameCells (r : NodeRow) : List Cell :=
  [u64Cell r.id, u64Cell r.ownerId, nullableCell r.parentId, some r.name, u64Cell r.state]

def NodeRow.childCells (r : NodeRow) : List Cell :=
  [u64Cell r.id, u64Cell r.ownerId, nullableCell r.parentId, u64Cell r.nodeType, u64Cell r.state]

def ObjectRow.cells (r : ObjectRow) : List Cell :=
  [some r.objectHash, u64Cell r.size, u64Cell r.state, u64Cell r.refCount, u64Cell r.storageClass,
    u64Cell r.createdAtMs, u64Cell r.updatedAtMs, nullableCell r.verifiedAtMs]

def ReceiptRow.mkdirCells (r : ReceiptRow) : List Cell :=
  [u64Cell r.userId, u64Cell r.command, some r.idempotencyKey, u64Cell r.formatVersion,
    u64Cell r.requestParentId, some r.requestName, u64Cell r.resultNodeId, u64Cell r.auditId,
    u64Cell r.createdAtMs]

def ReceiptRow.moveCells (r : ReceiptRow) : List Cell :=
  [u64Cell r.userId, u64Cell r.command, some r.idempotencyKey, u64Cell r.formatVersion,
    u64Cell r.requestParentId, nullableCell r.requestNodeId, some r.requestName,
    u64Cell r.resultNodeId, u64Cell r.auditId, u64Cell r.createdAtMs]

def RemovalRow.cells (r : RemovalRow) : List Cell :=
  [u64Cell r.userId, u64Cell r.command, some r.idempotencyKey, u64Cell r.formatVersion,
    u64Cell r.requestNodeId, u64Cell r.resultNodeId, u64Cell r.auditId, u64Cell r.createdAtMs]

/-! ## 2. Evaluation -/

/-- The reply of a statement. -/
inductive Reply where
  | rows (rows : List (List Cell))
  | done (affectedRows insertId : UInt64)
  | refused (code : Nat)
deriving DecidableEq

/-- What a statement leaves: its reply, the tables and the counters. -/
structure Evaluation where
  reply : Reply
  tables : Tables
  counters : Counters

/-- A change is accepted when the tables satisfy the schema after it: 3819 is a violated CHECK, 1062 a
    duplicate key, 1452 a missing parent row. -/
def accept (old new : Tables) (c : Counters) (affected : Nat) (id : UInt64) : Evaluation :=
  if ¬ Checks new then ⟨.refused 3819, old, c⟩
  else if ¬ Keys new then ⟨.refused 1062, old, c⟩
  else if ¬ References new then ⟨.refused 1452, old, c⟩
  else ⟨.done (UInt64.ofNat affected) id, new, c⟩

/-- An insert with the next AUTO_INCREMENT value, used up also when the row is refused; 1467 when there is
    none left. -/
def insertAuto (next : Nat) (t : Tables) (c : Counters) (bump : Counters)
    (row : UInt64 → Tables) : Evaluation :=
  if next < 2 ^ 64 then accept t (row (UInt64.ofNat next)) bump 1 (UInt64.ofNat next)
  else ⟨.refused 1467, t, c⟩

/-- The active children of a directory after `after`, in the order of their ids. -/
def Tables.childrenAfter (t : Tables) (owner parent after : UInt64) : List NodeRow :=
  (t.nodes.filter fun r => decide (r.ownerId = owner ∧ r.parentId = some parent ∧ r.state = 2 ∧
    after < r.id)).mergeSort fun a b => decide (a.id ≤ b.id)

/-- The live children of a directory in the order of their ids. -/
def Tables.liveChildren (t : Tables) (owner parent : UInt64) : List NodeRow :=
  (t.nodes.filter fun r => decide (r.ownerId = owner ∧ r.parentId = some parent ∧ r.Live)).mergeSort
    fun a b => decide (a.id ≤ b.id)

/-- The new values of the three updates of `file_nodes`, `objects` and `sessions`, and of the login. -/
def NodeRow.moved (parent : UInt64) (name : Bytes) (updated : UInt64) (r : NodeRow) : NodeRow :=
  { r with parentId := some parent, name := name, updatedAtMs := updated }

def NodeRow.deleted (updated deletedAt : UInt64) (r : NodeRow) : NodeRow :=
  { r with state := 3, updatedAtMs := updated, deletedAtMs := some deletedAt }

def ObjectRow.released (refs updated : UInt64) (r : ObjectRow) : ObjectRow :=
  { r with refCount := refs, updatedAtMs := updated }

def SessionRow.revoked (at' : UInt64) (r : SessionRow) : SessionRow :=
  { r with status := 2, revokedAtMs := some at' }

/-- `GREATEST`. -/
def greatest (a b : UInt64) : UInt64 := if a < b then b else a

def UserRow.touched (login updated : UInt64) (r : UserRow) : UserRow :=
  { r with
    lastLoginAtMs := some (greatest (r.lastLoginAtMs.getD 0) login)
    updatedAtMs := greatest r.updatedAtMs updated }

/-- `UPDATE … WHERE`, on one table. -/
def update {α : Type} [DecidableEq α] (t : Tables) (c : Counters) (l : List α) (p : α → Bool)
    (f : α → α) (put : List α → Tables) : Evaluation :=
  accept t (put (updateWhere p f l)) c (changed p f l) 0

/-- **One statement.** -/
def exec (sql : Sql) (params : List Param) (t : Tables) (c : Counters) : Evaluation :=
  let read (rows : List (List Cell)) : Evaluation := ⟨.rows rows, t, c⟩
  match sql, params with
  | .userStatus _, [.u64 id] =>
    read ((t.users.filter fun r => decide (r.id = id)).map UserRow.statusCells)
  | .sessionState, [.u64 id] =>
    read ((t.sessions.filter fun r => decide (r.id = id)).map SessionRow.stateCells)
  | .rootNode, [.u64 owner] =>
    read ((t.nodes.filter fun r =>
      decide (r.ownerId = owner ∧ r.parentId = none ∧ r.state = 2)).map NodeRow.cells)
  | .activeNode _, [.u64 owner, .u64 id] =>
    read ((t.nodes.filter fun r =>
      decide (r.ownerId = owner ∧ r.id = id ∧ r.state = 2)).map NodeRow.cells)
  | .activeChildren, [.u64 owner, .u64 parent, .u64 after, .u64 limit] =>
    read (((t.childrenAfter owner parent after).take limit.toNat).map NodeRow.cells)
  | .liveName, [.u64 owner, .u64 parent, .bytes name] =>
    read ((t.nodes.filter fun r => decide (r.nameKey = some (owner, parent, name))).map
      NodeRow.nameCells)
  | .liveChild, [.u64 owner, .u64 parent] =>
    read (((t.liveChildren owner parent).take 1).map NodeRow.childCells)
  | .objectRow, [.bytes hash] =>
    read ((t.objects.filter fun r => decide (r.objectHash = hash)).map ObjectRow.cells)
  | .insertDirectory, [.u64 owner, .u64 parent, .bytes name, .u64 created, .u64 updated] =>
    insertAuto c.nodes t c { c with nodes := c.nodes + 1 } fun id =>
      { t with nodes := t.nodes ++
        [⟨id, owner, some parent, name, 1, 2, none, 0, created, updated, none⟩] }
  | .insertNodeAudit action, [.bytes request, .u64 user, .u64 session, .u64 target, .u64 now] =>
    insertAuto c.audits t c { c with audits := c.audits + 1 } fun id =>
      { t with audits := t.audits ++
        [⟨id, request, some user, some session, action, 3, some target, none, 0, 0, [], now⟩] }
  | .moveNode, [.u64 parent, .bytes name, .u64 updated, .u64 owner, .u64 id] =>
    update t c t.nodes (fun r => decide (r.ownerId = owner ∧ r.id = id ∧ r.state = 2))
      (NodeRow.moved parent name updated) fun l => { t with nodes := l }
  | .deleteNode, [.u64 updated, .u64 deletedAt, .u64 owner, .u64 id] =>
    update t c t.nodes (fun r => decide (r.ownerId = owner ∧ r.id = id ∧ r.state = 2))
      (NodeRow.deleted updated deletedAt) fun l => { t with nodes := l }
  | .updateObject, [.u64 refs, .u64 updated, .bytes hash, .u64 oldRefs, .u64 state] =>
    update t c t.objects
      (fun r => decide (r.objectHash = hash ∧ r.refCount = oldRefs ∧ r.state = state))
      (ObjectRow.released refs updated) fun l => { t with objects := l }
  | .mkdirReceipt, [.u64 user, .bytes key] =>
    read ((t.receipts.filter fun r => decide (r.key = (user, 1027, key))).map ReceiptRow.mkdirCells)
  | .moveReceipt, [.u64 user, .bytes key] =>
    read ((t.receipts.filter fun r => decide (r.key = (user, 1029, key))).map ReceiptRow.moveCells)
  | .removeReceipt, [.u64 user, .bytes key] =>
    read ((t.removals.filter fun r => decide (r.key = (user, 1028, key))).map RemovalRow.cells)
  | .insertMkdirReceipt, [.u64 user, .bytes key, .u64 parent, .bytes name, .u64 node, .u64 audit, .u64 now] =>
    accept t { t with receipts := t.receipts ++
      [⟨user, 1027, key, 1, parent, none, name, node, audit, now⟩] } c 1 0
  | .insertMoveReceipt,
      [.u64 user, .bytes key, .u64 parent, .u64 source, .bytes name, .u64 node, .u64 audit, .u64 now] =>
    accept t { t with receipts := t.receipts ++
      [⟨user, 1029, key, 1, parent, some source, name, node, audit, now⟩] } c 1 0
  | .insertRemoveReceipt, [.u64 user, .bytes key, .u64 request, .u64 node, .u64 audit, .u64 now] =>
    accept t { t with removals := t.removals ++
      [⟨user, 1028, key, 1, request, node, audit, now⟩] } c 1 0
  | .insertUser, [.bytes _, .bytes key, .bytes hash, .u64 created, .u64 updated] =>
    insertAuto c.users t c { c with users := c.users + 1 } fun id =>
      { t with users := t.users ++ [⟨id, key, hash, 1, created, updated, none⟩] }
  | .insertRoot, [.u64 owner, .u64 created, .u64 updated] =>
    insertAuto c.nodes t c { c with nodes := c.nodes + 1 } fun id =>
      { t with nodes := t.nodes ++ [⟨id, owner, none, [], 1, 2, none, 0, created, updated, none⟩] }
  | .insertRegisterAudit, [.bytes request, .u64 user, .u64 target, .u64 latency, .u64 now] =>
    insertAuto c.audits t c { c with audits := c.audits + 1 } fun id =>
      { t with audits := t.audits ++
        [⟨id, request, some user, none, 1, 1, some target, none, 0, latency, [], now⟩] }
  | .accountRow, [.u64 id] =>
    read ((t.users.filter fun r => decide (r.id = id)).map UserRow.accountCells)
  | .insertSession, [.u64 user, .bytes digest, .u64 issued, .u64 expires, .u64 seen] =>
    insertAuto c.sessions t c { c with sessions := c.sessions + 1 } fun id =>
      { t with sessions := t.sessions ++ [⟨id, user, digest, 1, issued, expires, none, seen⟩] }
  | .touchLogin, [.u64 login, .u64 updated, .u64 id] =>
    update t c t.users (fun r => decide (r.id = id)) (UserRow.touched login updated)
      fun l => { t with users := l }
  | .insertSessionAudit action,
      [.bytes request, .u64 user, .u64 session, .u64 target, .u64 latency, .u64 now] =>
    insertAuto c.audits t c { c with audits := c.audits + 1 } fun id =>
      { t with audits := t.audits ++
        [⟨id, request, some user, some session, action, 2, some target, none, 0, latency, [], now⟩] }
  | .sessionByDigest, [.bytes digest] =>
    read ((t.sessions.filter fun r => decide (r.tokenDigest = digest)).flatMap fun s =>
      (t.users.filter fun u => decide (u.id = s.userId)).map fun u =>
        s.stateCells ++ [u64Cell u.status])
  | .logoutUser, [.u64 id] =>
    read ((t.users.filter fun r => decide (r.id = id)).map fun r => [u64Cell r.id])
  | .logoutSession, [.u64 id] =>
    read ((t.sessions.filter fun r => decide (r.id = id)).map SessionRow.logoutCells)
  | .revokeSession, [.u64 at', .u64 id, .u64 user] =>
    update t c t.sessions (fun r => decide (r.id = id ∧ r.userId = user ∧ r.status = 1))
      (SessionRow.revoked at') fun l => { t with sessions := l }
  | .credentialsByKey, [.bytes key] =>
    read ((t.users.filter fun r => decide (r.usernameKey = key)).map UserRow.credentialCells)
  | .insertFailureAudit, [.bytes request, .u64 action, .u64 status, .u64 latency, .bytes detail, .u64 now] =>
    insertAuto c.audits t c { c with audits := c.audits + 1 } fun id =>
      { t with audits := t.audits ++
        [⟨id, request, none, none, action, 0, none, none, status, latency, detail, now⟩] }
  -- BEGIN, COMMIT and ROLLBACK are not evaluated here, and no statement is bound to other parameters
  | _, _ => ⟨.refused 1210, t, c⟩

/-! ## 3. What every statement keeps -/

/-- The statement was evaluated in the schema and left it so. -/
structure Sane (t : Tables) (c : Counters) (e : Evaluation) : Prop where
  schema : Schema t → Schema e.tables
  counters : c.Le e.counters
  below : Below t c → Below e.tables e.counters

theorem Sane.same (t : Tables) (c : Counters) (reply : Reply) : Sane t c ⟨reply, t, c⟩ :=
  ⟨id, Counters.Le.refl c, id⟩

theorem accept_cases (old new : Tables) (c : Counters) (n : Nat) (id : UInt64) :
    (Schema new ∧ accept old new c n id = ⟨.done (UInt64.ofNat n) id, new, c⟩) ∨
      ∃ code, accept old new c n id = ⟨.refused code, old, c⟩ := by
  unfold accept
  split
  · exact .inr ⟨_, rfl⟩
  split
  · exact .inr ⟨_, rfl⟩
  split
  · exact .inr ⟨_, rfl⟩
  · rename_i h₁ h₂ h₃
    exact .inl ⟨⟨not_not.mp h₁, not_not.mp h₂, not_not.mp h₃⟩, rfl⟩

theorem accept_of_schema {old new : Tables} (h : Schema new) (c : Counters) (n : Nat) (id : UInt64) :
    accept old new c n id = ⟨.done (UInt64.ofNat n) id, new, c⟩ := by
  unfold accept
  rw [if_neg (not_not.mpr h.checks), if_neg (not_not.mpr h.keys), if_neg (not_not.mpr h.references)]

theorem Sane.accept {old new : Tables} {c c' : Counters} (hc : c.Le c')
    (hb : Below old c → Below new c') (n : Nat) (id : UInt64) :
    Sane old c (accept old new c' n id) := by
  rcases accept_cases old new c' n id with ⟨hs, e⟩ | ⟨code, e⟩
  · rw [e]
    exact ⟨fun _ => hs, hc, hb⟩
  · rw [e]
    exact ⟨fun h => h, hc, fun h => h.mono hc⟩

theorem Sane.insertAuto {t : Tables} {c bump : Counters} {row : UInt64 → Tables} (next : Nat)
    (hc : c.Le bump)
    (hb : ∀ id : UInt64, id.toNat = next → Below t c → Below (row id) bump) :
    Sane t c (insertAuto next t c bump row) := by
  unfold Persistence.insertAuto
  split
  · rename_i hlt
    refine .accept hc (hb _ ?_) _ _
    rw [UInt64.toNat_ofNat']
    exact Nat.mod_eq_of_lt hlt
  · exact .same t c _

theorem forall_lt_append {α : Type} {l : List α} {f : α → Nat} {n m : Nat} {a : α}
    (h : ∀ r ∈ l, f r < n) (hn : n ≤ m) (ha : f a < m) : ∀ r ∈ l ++ [a], f r < m :=
  List.forall_mem_append.mpr ⟨fun r hr => (h r hr).trans_le hn, List.forall_mem_singleton.mpr ha⟩

theorem forall_lt_update {α : Type} {l : List α} {f : α → Nat} {n : Nat} {p : α → Bool} {g : α → α}
    (h : ∀ r ∈ l, f r < n) (hg : ∀ r, f (g r) = f r) : ∀ r ∈ updateWhere p g l, f r < n := by
  intro r hr
  obtain ⟨a, ha, rfl⟩ := mem_updateWhere.mp hr
  split
  · rw [hg]
    exact h a ha
  · exact h a ha

theorem Counters.le_bump (c : Counters) :
    c.Le { c with users := c.users + 1 } ∧ c.Le { c with sessions := c.sessions + 1 } ∧
      c.Le { c with nodes := c.nodes + 1 } ∧ c.Le { c with audits := c.audits + 1 } := by
  refine ⟨⟨?_, ?_, ?_, ?_⟩, ⟨?_, ?_, ?_, ?_⟩, ⟨?_, ?_, ?_, ?_⟩, ⟨?_, ?_, ?_, ?_⟩⟩ <;>
    first | exact Nat.le_refl _ | exact Nat.le_succ _

section Tables

variable (t : Tables) (c : Counters)

theorem sane_insertUser (row : UInt64 → UserRow) (hid : ∀ id, (row id).id = id) :
    Sane t c (insertAuto c.users t c { c with users := c.users + 1 } fun id =>
      { t with users := t.users ++ [row id] }) :=
  Sane.insertAuto _ c.le_bump.1 fun id e h =>
    ⟨forall_lt_append h.users (Nat.le_succ _) (by rw [hid, e]; exact Nat.lt_succ_self _), h.sessions,
      h.nodes, h.audits⟩

theorem sane_insertSession (row : UInt64 → SessionRow) (hid : ∀ id, (row id).id = id) :
    Sane t c (insertAuto c.sessions t c { c with sessions := c.sessions + 1 } fun id =>
      { t with sessions := t.sessions ++ [row id] }) :=
  Sane.insertAuto _ c.le_bump.2.1 fun id e h =>
    ⟨h.users, forall_lt_append h.sessions (Nat.le_succ _) (by rw [hid, e]; exact Nat.lt_succ_self _),
      h.nodes, h.audits⟩

theorem sane_insertNode (row : UInt64 → NodeRow) (hid : ∀ id, (row id).id = id) :
    Sane t c (insertAuto c.nodes t c { c with nodes := c.nodes + 1 } fun id =>
      { t with nodes := t.nodes ++ [row id] }) :=
  Sane.insertAuto _ c.le_bump.2.2.1 fun id e h =>
    ⟨h.users, h.sessions,
      forall_lt_append h.nodes (Nat.le_succ _) (by rw [hid, e]; exact Nat.lt_succ_self _), h.audits⟩

theorem sane_insertAudit (row : UInt64 → AuditRow) (hid : ∀ id, (row id).id = id) :
    Sane t c (insertAuto c.audits t c { c with audits := c.audits + 1 } fun id =>
      { t with audits := t.audits ++ [row id] }) :=
  Sane.insertAuto _ c.le_bump.2.2.2 fun id e h =>
    ⟨h.users, h.sessions, h.nodes,
      forall_lt_append h.audits (Nat.le_succ _) (by rw [hid, e]; exact Nat.lt_succ_self _)⟩

theorem sane_updateUsers (p : UserRow → Bool) (f : UserRow → UserRow) (hf : ∀ r, (f r).id = r.id) :
    Sane t c (update t c t.users p f fun l => { t with users := l }) := by
  unfold update
  refine .accept (Counters.Le.refl c) (fun h => ?_) _ _
  exact ⟨forall_lt_update h.users fun r => by rw [hf], h.sessions, h.nodes, h.audits⟩

theorem sane_updateSessions (p : SessionRow → Bool) (f : SessionRow → SessionRow)
    (hf : ∀ r, (f r).id = r.id) :
    Sane t c (update t c t.sessions p f fun l => { t with sessions := l }) := by
  unfold update
  refine .accept (Counters.Le.refl c) (fun h => ?_) _ _
  exact ⟨h.users, forall_lt_update h.sessions fun r => by rw [hf], h.nodes, h.audits⟩

theorem sane_updateNodes (p : NodeRow → Bool) (f : NodeRow → NodeRow) (hf : ∀ r, (f r).id = r.id) :
    Sane t c (update t c t.nodes p f fun l => { t with nodes := l }) := by
  unfold update
  refine .accept (Counters.Le.refl c) (fun h => ?_) _ _
  exact ⟨h.users, h.sessions, forall_lt_update h.nodes fun r => by rw [hf], h.audits⟩

theorem sane_unnumbered {new : Tables} (hu : new.users = t.users) (hs : new.sessions = t.sessions)
    (hn : new.nodes = t.nodes) (ha : new.audits = t.audits) (n : Nat) (id : UInt64) :
    Sane t c (accept t new c n id) :=
  Sane.accept (Counters.Le.refl c) (fun h =>
    ⟨hu ▸ h.users, hs ▸ h.sessions, hn ▸ h.nodes, ha ▸ h.audits⟩) _ _

end Tables

theorem exec_sane (sql : Sql) (params : List Param) (t : Tables) (c : Counters) :
    Sane t c (exec sql params t c) := by
  unfold exec
  dsimp only
  split
  all_goals first
    | exact .same t c _
    | (apply sane_unnumbered <;> rfl)
    | (unfold update; apply sane_unnumbered <;> rfl)
    | (apply sane_updateNodes; intro r; rfl)
    | (apply sane_updateUsers; intro r; rfl)
    | (apply sane_updateSessions; intro r; rfl)
    | (apply sane_insertNode; intro id; rfl)
    | (apply sane_insertAudit; intro id; rfl)
    | (apply sane_insertUser; intro id; rfl)
    | (apply sane_insertSession; intro id; rfl)

end Vireo.Persistence
