/-
  File:      Vireo/Persistence/Node/Rows.lean
  Subject:   THE ROW CHECKS ACCEPT THE ROWS OF THE SCHEMA.
-/
import Vireo.Persistence.Node.Entry
import Vireo.Persistence.Server

namespace Vireo.Persistence

open Lib

/-! ## 1. Rows looked up -/

namespace Tables

variable (t : Tables)

def user (id : UInt64) : Option UserRow := t.users.find? fun r => decide (r.id = id)

def session (id : UInt64) : Option SessionRow := t.sessions.find? fun r => decide (r.id = id)

def object (hash : Bytes) : Option ObjectRow := t.objects.find? fun r => decide (r.objectHash = hash)

/-- The active node `id` of the owner. -/
def activeNode (owner id : UInt64) : Option NodeRow :=
  t.nodes.find? fun r => decide (r.ownerId = owner ∧ r.id = id ∧ r.state = 2)

/-- The active root of the owner. -/
def rootNode (owner : UInt64) : Option NodeRow :=
  t.nodes.find? fun r => decide (r.ownerId = owner ∧ r.parentId = none ∧ r.state = 2)

/-- The live node that has the name in the directory. -/
def occupant (owner parent : UInt64) (name : Bytes) : Option NodeRow :=
  t.nodes.find? fun r => decide (r.nameKey = some (owner, parent, name))

/-- The first live child of a directory. -/
def liveChild (owner parent : UInt64) : Option NodeRow := (t.liveChildren owner parent).head?

def receipt (user command : UInt64) (key : Bytes) : Option ReceiptRow :=
  t.receipts.find? fun r => decide (r.key = (user, command, key))

def removal (user : UInt64) (key : Bytes) : Option RemovalRow :=
  t.removals.find? fun r => decide (r.key = (user, 1028, key))

variable {t} {r : NodeRow}
variable {id : UInt64}

theorem mem_of_user {r : UserRow} (h : t.user id = some r) : r ∈ t.users ∧ r.id = id :=
  mem_of_find h

theorem mem_of_session {r : SessionRow} (h : t.session id = some r) : r ∈ t.sessions ∧ r.id = id :=
  mem_of_find h

theorem mem_of_object {hash : Bytes} {r : ObjectRow} (h : t.object hash = some r) :
    r ∈ t.objects ∧ r.objectHash = hash :=
  mem_of_find h

variable {owner : UInt64}

theorem mem_of_activeNode (h : t.activeNode owner id = some r) :
    r ∈ t.nodes ∧ r.ownerId = owner ∧ r.id = id ∧ r.state = 2 :=
  mem_of_find h

variable {parent : UInt64}

theorem mem_of_occupant {name : Bytes} (h : t.occupant owner parent name = some r) :
    r ∈ t.nodes ∧ r.nameKey = some (owner, parent, name) :=
  mem_of_find h

theorem mem_of_receipt {user command : UInt64} {key : Bytes} {r : ReceiptRow}
    (h : t.receipt user command key = some r) : r ∈ t.receipts ∧ r.key = (user, command, key) :=
  mem_of_find h

theorem mem_of_removal {user : UInt64} {key : Bytes} {r : RemovalRow}
    (h : t.removal user key = some r) : r ∈ t.removals ∧ r.key = (user, 1028, key) :=
  mem_of_find h

theorem mem_liveChildren :
    r ∈ t.liveChildren owner parent ↔ r ∈ t.nodes ∧ r.ownerId = owner ∧ r.parentId = some parent ∧ r.Live := by
  unfold liveChildren
  rw [List.mem_mergeSort, List.mem_filter, decide_eq_true_iff]

theorem mem_of_liveChild (h : t.liveChild owner parent = some r) :
    r ∈ t.nodes ∧ r.ownerId = owner ∧ r.parentId = some parent ∧ r.Live :=
  mem_liveChildren.mp (List.mem_of_mem_head? h)

end Tables

theorem NodeRow.nameKey_eq_some {r : NodeRow} {owner parent : UInt64} {name : Bytes} :
    r.nameKey = some (owner, parent, name) ↔
      r.ownerId = owner ∧ r.parentId = some parent ∧ r.name = name ∧ r.Live := by
  unfold NodeRow.nameKey NodeRow.liveName
  cases hp : r.parentId with
  | none => simp
  | some p =>
    by_cases hl : r.Live <;> simp [hl]

/-! ## 2. The replies of the reads -/

section Replies

variable {t : Tables} (h : Schema t) (c : Counters)
include h

theorem exec_userStatus (lock : Lock) (id : UInt64) :
    exec (.userStatus lock) [.u64 id] t c = ⟨.rows ((t.user id).toList.map UserRow.statusCells), t, c⟩ := by
  show Evaluation.mk (.rows ((t.users.filter fun r => decide (r.id = id)).map _)) t c = _
  rw [h.keys.userId.filter_eq (k := id) fun b _ hb => congrArg some (of_decide_eq_true hb)]
  rfl

theorem exec_sessionState (id : UInt64) :
    exec .sessionState [.u64 id] t c = ⟨.rows ((t.session id).toList.map SessionRow.stateCells), t, c⟩ := by
  show Evaluation.mk (.rows ((t.sessions.filter fun r => decide (r.id = id)).map _)) t c = _
  rw [h.keys.sessionId.filter_eq (k := id) fun b _ hb => congrArg some (of_decide_eq_true hb)]
  rfl

omit h in
theorem exec_activeNode (hu : Unique (fun r : NodeRow => some r.id) t.nodes) (lock : Lock)
    (owner id : UInt64) :
    exec (.activeNode lock) [.u64 owner, .u64 id] t c =
      ⟨.rows ((t.activeNode owner id).toList.map NodeRow.cells), t, c⟩ := by
  show Evaluation.mk (.rows ((t.nodes.filter fun r =>
    decide (r.ownerId = owner ∧ r.id = id ∧ r.state = 2)).map _)) t c = _
  rw [hu.filter_eq (k := id) fun b _ hb => congrArg some (of_decide_eq_true hb).2.1]
  rfl

theorem exec_liveName (owner parent : UInt64) (name : Bytes) :
    exec .liveName [.u64 owner, .u64 parent, .bytes name] t c =
      ⟨.rows ((t.occupant owner parent name).toList.map NodeRow.nameCells), t, c⟩ := by
  show Evaluation.mk (.rows ((t.nodes.filter fun r =>
    decide (r.nameKey = some (owner, parent, name))).map _)) t c = _
  rw [h.keys.liveName.filter_eq (k := (owner, parent, name)) fun b _ hb => of_decide_eq_true hb]
  rfl

omit h in
theorem exec_liveChild (owner parent : UInt64) : exec .liveChild [.u64 owner, .u64 parent] t c =
      ⟨.rows ((t.liveChild owner parent).toList.map NodeRow.childCells), t, c⟩ := by
  show Evaluation.mk (.rows (((t.liveChildren owner parent).take 1).map _)) t c = _
  unfold Tables.liveChild
  cases t.liveChildren owner parent <;> rfl

theorem exec_objectRow (hash : Bytes) :
    exec .objectRow [.bytes hash] t c = ⟨.rows ((t.object hash).toList.map ObjectRow.cells), t, c⟩ := by
  show Evaluation.mk (.rows ((t.objects.filter fun r => decide (r.objectHash = hash)).map _)) t c = _
  rw [h.keys.objectHash.filter_eq (k := hash) fun b _ hb => congrArg some (of_decide_eq_true hb)]
  rfl

theorem exec_mkdirReceipt (user : UInt64) (key : Bytes) : exec .mkdirReceipt [.u64 user, .bytes key] t c =
      ⟨.rows ((t.receipt user 1027 key).toList.map ReceiptRow.mkdirCells), t, c⟩ := by
  show Evaluation.mk (.rows ((t.receipts.filter fun r =>
    decide (r.key = (user, 1027, key))).map _)) t c = _
  rw [h.keys.receipt.filter_eq (k := (user, 1027, key)) fun b _ hb =>
    congrArg some (of_decide_eq_true hb)]
  rfl

theorem exec_moveReceipt (user : UInt64) (key : Bytes) : exec .moveReceipt [.u64 user, .bytes key] t c =
      ⟨.rows ((t.receipt user 1029 key).toList.map ReceiptRow.moveCells), t, c⟩ := by
  show Evaluation.mk (.rows ((t.receipts.filter fun r =>
    decide (r.key = (user, 1029, key))).map _)) t c = _
  rw [h.keys.receipt.filter_eq (k := (user, 1029, key)) fun b _ hb =>
    congrArg some (of_decide_eq_true hb)]
  rfl

theorem exec_removeReceipt (user : UInt64) (key : Bytes) :
    exec .removeReceipt [.u64 user, .bytes key] t c =
      ⟨.rows ((t.removal user key).toList.map RemovalRow.cells), t, c⟩ := by
  show Evaluation.mk (.rows ((t.removals.filter fun r =>
    decide (r.key = (user, 1028, key))).map _)) t c = _
  rw [h.keys.removal.filter_eq (k := (user, 1028, key)) fun b _ hb =>
    congrArg some (of_decide_eq_true hb)]
  rfl

end Replies

end Vireo.Persistence

namespace Vireo.Persistence.Node

/-! ## 3. The row checks -/

/-- The value of an active node row. -/
def valueOf (r : NodeRow) : Value where
  id := r.id
  ownerId := r.ownerId
  parent := r.parentId
  name := r.name
  kind := if r.nodeType = 1 then .directory else .file
  objectHash := r.objectHash
  size := r.size
  createdAtMs := r.createdAtMs
  updatedAtMs := r.updatedAtMs

section Checks

variable {t : Tables} (h : Schema t) {r : NodeRow} {owner parent p : UInt64} {user : UInt64} {key : Key}
include h

theorem parent_ne_zero (hr : r ∈ t.nodes) (hp : r.parentId = some p) : p ≠ 0 := by
  obtain ⟨q, hq, -, rfl⟩ := h.references.parent r hr p hp
  exact (h.checks.nodes q hq).id

theorem parentCell_row (hr : r ∈ t.nodes) : parentCell (nullableCell r.parentId) = some r.parentId := by
  cases hp : r.parentId with
  | none => rfl
  | some p =>
    have hne := parent_ne_zero h hr hp
    have hn : number (u64Cell p) = some p := number_u64 p
    unfold u64Cell at hn
    unfold nullableCell parentCell
    dsimp only [Option.bind_some]
    unfold u64Cell
    dsimp only
    rw [hn]
    exact if_neg hne

omit h in
theorem number_parent (hp : r.parentId = some p) : number (nullableCell r.parentId) = some p := by
  rw [hp]
  exact number_u64 p

/-- **`node_value` accepts an active row.** -/
theorem nodeValue_cells (hr : r ∈ t.nodes) {owner id : UInt64} (ho : r.ownerId = owner)
    (hi : id = 0 ∨ r.id = id) (hs : r.state = 2) : nodeValue owner id r.cells = some (valueOf r) := by
  have hv := h.checks.nodes r hr
  have hdel : r.deletedAtMs = none := by
    rcases hv.deletion with ⟨-, hd⟩ | ⟨h3, -⟩
    · exact hd
    · exact absurd (hs.symm.trans h3) (by decide)
  have hlen : ¬ nameCapacity < r.name.length := by
    rw [show nameCapacity = 255 from rfl]
    rcases hv.location with ⟨-, hn, -⟩ | ⟨-, -, hl, -⟩
    · rw [hn]
      exact Nat.not_lt_zero _
    · omega
  have hshape : ¬ (r.id = 0 ∨ (id ≠ 0 ∧ r.id ≠ id) ∨ r.ownerId ≠ owner ∨
      (r.nodeType ≠ 1 ∧ r.nodeType ≠ 2) ∨ r.state ≠ 2 ∨ r.updatedAtMs < r.createdAtMs ∨
      (nullableCell r.deletedAtMs).isSome ∨ nameCapacity < r.name.length) := by
    rw [hdel]
    rintro (h0 | ⟨h1, h2⟩ | h3 | ⟨h4, h5⟩ | h6 | h7 | h8 | h9)
    · exact hv.id h0
    · exact hi.elim h1 h2
    · exact h3 ho
    · exact hv.nodeType.elim h4 h5
    · exact h6 hs
    · exact absurd h7 (UInt64.not_lt.mpr hv.updated)
    · cases h8
    · exact hlen h9
  have hdir : ¬ (r.nodeType = 1 ∧ (r.objectHash.isSome ∨ r.size ≠ 0)) := by
    rintro ⟨h1, h2⟩
    rcases hv.payload with ⟨-, -, ho, hz⟩ | ⟨h3, -⟩
    · rw [ho] at h2
      rcases h2 with h2 | h2
      · cases h2
      · exact h2 hz
    · exact absurd (h1.symm.trans h3) (by decide)
  have hfile : ¬ (r.nodeType ≠ 1 ∧ r.objectHash.map List.length ≠ some 32) := by
    rintro ⟨h1, h2⟩
    rcases hv.payload with ⟨h3, -⟩ | ⟨-, h3 | h3 | ⟨-, h3⟩⟩
    · exact h1 h3
    · exact absurd (hs.symm.trans h3) (by decide)
    · exact absurd (hs.symm.trans h3) (by decide)
    obtain ⟨b, hb⟩ := Option.ne_none_iff_exists'.mp h3
    rw [hb, Option.map_some, hv.hash b hb] at h2
    exact h2 rfl
  have hroot : ¬ (r.parentId.isNone ∧ (r.nodeType ≠ 1 ∨ r.name ≠ [])) := by
    rintro ⟨h1, h2⟩
    rcases hv.location with ⟨-, hn, ht, -⟩ | ⟨hne, -⟩
    · exact h2.elim (fun h => h ht) (fun h => h hn)
    · exact hne (Option.isNone_iff_eq_none.mp h1)
  have hchild : ¬ (r.parentId.isSome ∧ (r.name = [] ∨ ¬ ValidName r.name)) := by
    rintro ⟨h1, h2⟩
    rcases hv.location with ⟨hn, -⟩ | ⟨-, h3, -, h4⟩
    · rw [hn] at h1
      cases h1
    · rcases h2 with h2 | h2
      · rw [h2] at h3
        exact absurd h3 (by decide)
      · exact h2 h4
  unfold NodeRow.cells nodeValue
  simp only [number_u64]
  rw [if_neg hshape, parentCell_row h hr]
  dsimp only
  rw [if_neg hdir, if_neg hfile, if_neg hroot, if_neg hchild]
  rfl

theorem userStatus_row {r : UserRow} (hr : r ∈ t.users) :
    userStatus r.id r.statusCells = some r.status := by
  have hv := h.checks.users r hr
  unfold UserRow.statusCells userStatus
  simp only [number_u64]
  refine if_neg ?_
  rintro (h1 | ⟨h1, h2⟩)
  · exact h1 rfl
  · exact hv.status.elim h1 h2

omit h in
theorem revokedCell_nullable (n : Option UInt64) : revokedCell (nullableCell n) = some n := by
  cases n with
  | none => rfl
  | some n =>
    show (number (u64Cell n)).map some = _
    rw [number_u64]
    rfl

theorem sessionRead_row {r : SessionRow} (hr : r ∈ t.sessions) :
    sessionRead r.id r.stateCells = some ⟨r.userId, r.status, r.issuedAtMs, r.expiresAtMs⟩ := by
  have hv := h.checks.sessions r hr
  obtain ⟨u, hu, hid⟩ := h.references.session r hr
  have huser : r.userId ≠ 0 := hid ▸ (h.checks.users u hu).id
  unfold SessionRow.stateCells sessionRead
  simp only [number_u64, revokedCell_nullable]
  refine if_neg ?_
  rintro (h0 | h1 | ⟨h2, h3⟩ | h4 | h5 | h6 | ⟨h7, h8⟩ | ⟨h9, h10⟩)
  · exact h0 rfl
  · exact huser h1
  · exact hv.status.elim h2 h3
  · exact absurd h4 (UInt64.not_le.mpr hv.expiry)
  · exact absurd h5 (UInt64.not_lt.mpr hv.lastSeen.1)
  · exact absurd h6 (UInt64.not_lt.mpr hv.lastSeen.2)
  · rcases hv.revocation with ⟨-, hn⟩ | ⟨h2, -⟩
    · rw [hn] at h8
      cases h8
    · exact absurd (h7.symm.trans h2) (by decide)
  · rcases hv.revocation with ⟨h1, -⟩ | ⟨-, τ, hτ, hle⟩
    · exact h9 h1
    · rw [Option.mem_def.mp hτ] at h10
      rcases h10 with h10 | h10
      · cases h10
      · exact absurd (of_decide_eq_true h10) (UInt64.not_lt.mpr hle)

theorem occupant_row (hr : r ∈ t.nodes) {name : Bytes} (hk : r.nameKey = some (owner, parent, name)) :
    occupant owner parent name r.nameCells = some (r.id, r.state) := by
  obtain ⟨ho, hp, hn, hl⟩ := NodeRow.nameKey_eq_some.mp hk
  have hv := h.checks.nodes r hr
  unfold NodeRow.nameCells occupant
  simp only [number_u64, number_parent hp]
  refine if_neg ?_
  rintro (h0 | h1 | h2 | h3 | ⟨h4, h5⟩)
  · exact hv.id h0
  · exact h1 ho
  · exact h2 rfl
  · exact h3 hn
  · exact hl.elim h4 h5

theorem childRow_row (hr : r ∈ t.nodes) (ho : r.ownerId = owner) (hp : r.parentId = some parent) (hl : r.Live) :
    childRow owner parent r.childCells = some () := by
  have hv := h.checks.nodes r hr
  unfold NodeRow.childCells childRow
  simp only [number_u64, number_parent hp]
  refine if_neg ?_
  rintro (h0 | h1 | h2 | ⟨h3, h4⟩ | ⟨h5, h6⟩ | ⟨h7, h8⟩)
  · exact hv.id h0
  · exact h1 ho
  · exact h2 rfl
  · exact hv.nodeType.elim h3 h4
  · exact hl.elim h5 h6
  rcases hv.payload with ⟨-, h9 | h9, -⟩ | ⟨h9, -⟩
  · exact absurd (h8.symm.trans h9) (by decide)
  · exact absurd (h8.symm.trans h9) (by decide)
  · exact absurd (h7.symm.trans h9) (by decide)

theorem objectRead_row {r : ObjectRow} (hr : r ∈ t.objects) :
    objectRead r.objectHash r.cells = some ⟨r.size, r.refCount, r.state, r.updatedAtMs⟩ := by
  have hv := h.checks.objects r hr
  unfold ObjectRow.cells objectRead
  simp only [number_u64, revokedCell_nullable]
  refine if_neg ?_
  rintro (h0 | h1 | h2 | h3 | h4 | h5 | ⟨h6, h7⟩ | h8 | ⟨h9, h10⟩)
  · exact h0 rfl
  · exact h1 hv.hash
  · rcases hv.state with e | e | e | e <;> rw [e] at h2 <;> exact absurd h2 (by decide)
  · rcases hv.state with e | e | e | e <;> rw [e] at h3 <;> exact absurd h3 (by decide)
  · exact h4 hv.storageClass
  · exact absurd h5 (UInt64.not_lt.mpr hv.updated)
  · exact hv.verifiedRequired.elim (fun h => h h6) fun h => h (Option.isNone_iff_eq_none.mp h7)
  · cases hτ : r.verifiedAtMs with
    | none =>
      rw [hτ] at h8
      cases h8
    | some τ =>
      rw [hτ] at h8
      obtain ⟨h11, h12⟩ := hv.verified τ hτ
      rcases of_decide_eq_true h8 with h13 | h13
      · exact absurd h13 (UInt64.not_lt.mpr h11)
      · exact absurd h13 (UInt64.not_lt.mpr h12)
  · exact hv.deleting.elim (fun h => h h9) h10

theorem mkdirReceipt_row {r : ReceiptRow} (hr : r ∈ t.receipts) (hk : r.key = (user, 1027, key.val)) :
    mkdirReceipt user key r.mkdirCells =
      some ⟨r.requestParentId, r.requestName, r.resultNodeId, r.auditId⟩ := by
  have hv := h.checks.receipts r hr
  obtain ⟨hu, hc, hkey⟩ : r.userId = user ∧ r.command = 1027 ∧ r.idempotencyKey = key.val := by
    simpa [ReceiptRow.key] using hk
  unfold ReceiptRow.mkdirCells mkdirReceipt
  simp only [number_u64]
  refine if_neg ?_
  rintro (h0 | h1 | h2 | h3 | h4 | h5 | h6 | h7 | h8 | h9)
  · exact h0 hu
  · exact h1 hc
  · exact h2 hv.format
  · exact hv.parent h3
  · exact hv.node h4
  · exact hv.audit h5
  · exact h6 hkey
  · have := hv.name.1
    omega
  · have := hv.name.2.1
    rw [show nameCapacity = 255 from rfl] at h8
    omega
  · exact h9 hv.name.2.2

theorem receipt_moved {r : ReceiptRow} (hr : r ∈ t.receipts) (hc : r.command = 1029) :
    r.requestNodeId = some r.resultNodeId := by
  rcases (h.checks.receipts r hr).shape with ⟨h1, -⟩ | ⟨-, -, h2⟩
  · exact absurd (hc.symm.trans h1) (by decide)
  · exact h2

theorem moveReceipt_row {r : ReceiptRow} (hr : r ∈ t.receipts) (hk : r.key = (user, 1029, key.val)) :
    moveReceipt user key r.moveCells =
      some ⟨r.requestParentId, r.resultNodeId, r.requestName, r.resultNodeId, r.auditId⟩ := by
  have hv := h.checks.receipts r hr
  obtain ⟨hu, hc, hkey⟩ : r.userId = user ∧ r.command = 1029 ∧ r.idempotencyKey = key.val := by
    simpa [ReceiptRow.key] using hk
  have hnode := receipt_moved h hr hc
  unfold ReceiptRow.moveCells moveReceipt
  rw [hnode, nullableCell_some]
  simp only [number_u64]
  refine if_neg ?_
  rintro (h0 | h1 | h2 | h3 | h4 | h5 | h6 | h7 | h8 | h9 | h10)
  · exact h0 hu
  · exact h1 hc
  · exact h2 hv.format
  · exact hv.parent h3
  · exact hv.node h4
  · exact h5 rfl
  · exact hv.audit h6
  · exact h7 hkey
  · have := hv.name.1
    omega
  · have := hv.name.2.1
    rw [show nameCapacity = 255 from rfl] at h9
    omega
  · exact h10 hv.name.2.2

theorem removeReceipt_row {r : RemovalRow} (hr : r ∈ t.removals) (hk : r.key = (user, 1028, key.val)) :
    removeReceipt user key r.cells = some ⟨r.requestNodeId, r.resultNodeId, r.auditId, r.createdAtMs⟩ := by
  have hv := h.checks.removals r hr
  obtain ⟨hu, hc, hkey⟩ : r.userId = user ∧ r.command = 1028 ∧ r.idempotencyKey = key.val := by
    simpa [RemovalRow.key] using hk
  unfold RemovalRow.cells removeReceipt
  simp only [number_u64]
  refine if_neg ?_
  rintro (h0 | h1 | h2 | h3 | h4 | h5 | h6)
  · exact h0 hkey
  · exact h1 hu
  · exact h2 hc
  · exact h3 hv.format
  · exact hv.request h4
  · exact h5 hv.result.2
  · exact hv.audit h6

end Checks

end Vireo.Persistence.Node
