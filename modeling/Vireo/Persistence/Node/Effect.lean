/-
  File:      Vireo/Persistence/Node/Effect.lean
  Subject:   WHAT THE IDEAL WRITES LEAVE OF THE TABLES, row for row.
-/
import Vireo.Persistence.Node.Outcome

namespace Vireo.Persistence.Node

open Lib Prog
open Persistence.Ideal (evaluated_ok look sample)

/-! ## 1. Rows -/

/-- The row of a new directory. -/
def directoryRow (owner parent : UInt64) (name : Bytes) (now id : UInt64) : NodeRow :=
  ⟨id, owner, some parent, name, 1, 2, none, 0, now, now, none⟩

/-- The success audit of a node write. -/
def nodeAudit (action : UInt64) (request : Key) (actor : Actor) (target now id : UInt64) : AuditRow :=
  ⟨id, request.val, some actor.userId, some actor.sessionId, action, 3, some target, none, 0, 0, [], now⟩

def mkdirReceiptRow (user : UInt64) (key : Key) (parent : UInt64) (name : Bytes)
    (node audit now : UInt64) : ReceiptRow :=
  ⟨user, 1027, key.val, 1, parent, none, name, node, audit, now⟩

def moveReceiptRow (user : UInt64) (key : Key) (parent source : UInt64) (name : Bytes)
    (node audit now : UInt64) : ReceiptRow :=
  ⟨user, 1029, key.val, 1, parent, some source, name, node, audit, now⟩

def removalRow (user : UInt64) (key : Key) (request node audit now : UInt64) : RemovalRow :=
  ⟨user, 1028, key.val, 1, request, node, audit, now⟩

/-- The active node `id` of the owner, as an update selects it. -/
def isActive (owner id : UInt64) (r : NodeRow) : Bool :=
  decide (r.ownerId = owner ∧ r.id = id ∧ r.state = 2)

/-- The nodes after `update_move`. -/
def movedNodes (owner id newParent : UInt64) (name : Bytes) (updated : UInt64) (l : List NodeRow) :
    List NodeRow :=
  updateWhere (isActive owner id) (NodeRow.moved newParent name updated) l

/-- The nodes after a deletion. -/
def deletedNodes (owner id deleted : UInt64) (l : List NodeRow) : List NodeRow :=
  updateWhere (isActive owner id) (NodeRow.deleted deleted deleted) l

/-- The objects after a reference was given up. -/
def releasedObjects (hash : Bytes) (o : ObjectRead) (now : UInt64) (l : List ObjectRow) :
    List ObjectRow :=
  updateWhere (fun r => decide (r.objectHash = hash ∧ r.refCount = o.refCount ∧ r.state = o.state))
    (ObjectRow.released (o.refCount - 1) (clamp now o.updated)) l

section Statements

variable (t : Tables) (c : Counters)

theorem exec_insertDirectory (owner parent : UInt64) (name : Bytes) (now : UInt64) :
    exec .insertDirectory [.u64 owner, .u64 parent, .bytes name, .u64 now, .u64 now] t c =
      insertAuto c.nodes t c { c with nodes := c.nodes + 1 } fun id =>
        { t with nodes := t.nodes ++ [directoryRow owner parent name now id] } := rfl

theorem exec_insertNodeAudit (action : UInt64) (request : Key) (actor : Actor) (target now : UInt64) :
    exec (.insertNodeAudit action)
      [.bytes request.val, .u64 actor.userId, .u64 actor.sessionId, .u64 target, .u64 now] t c =
      insertAuto c.audits t c { c with audits := c.audits + 1 } fun id =>
        { t with audits := t.audits ++ [nodeAudit action request actor target now id] } := rfl

theorem exec_moveNode (owner id parent : UInt64) (name : Bytes) (updated : UInt64) :
    exec .moveNode [.u64 parent, .bytes name, .u64 updated, .u64 owner, .u64 id] t c =
      accept t { t with nodes := movedNodes owner id parent name updated t.nodes } c
        (changed (isActive owner id) (.moved parent name updated) t.nodes) 0 := rfl

theorem exec_deleteNode (owner id deleted : UInt64) :
    exec .deleteNode [.u64 deleted, .u64 deleted, .u64 owner, .u64 id] t c =
      accept t { t with nodes := deletedNodes owner id deleted t.nodes } c
        (changed (isActive owner id) (.deleted deleted deleted) t.nodes) 0 := rfl

theorem exec_updateObject (hash : Bytes) (o : ObjectRead) (now : UInt64) :
    exec .updateObject [.u64 (o.refCount - 1), .u64 (clamp now o.updated), .bytes hash,
      .u64 o.refCount, .u64 o.state] t c =
      accept t { t with objects := releasedObjects hash o now t.objects } c
        (changed (fun r => decide (r.objectHash = hash ∧ r.refCount = o.refCount ∧ r.state = o.state))
          (.released (o.refCount - 1) (clamp now o.updated)) t.objects) 0 := rfl

theorem exec_insertMkdirReceipt (user : UInt64) (key : Key) (parent : UInt64) (name : Bytes)
    (node audit now : UInt64) :
    exec .insertMkdirReceipt
      [.u64 user, .bytes key.val, .u64 parent, .bytes name, .u64 node, .u64 audit, .u64 now] t c =
      accept t { t with
        receipts := t.receipts ++ [mkdirReceiptRow user key parent name node audit now] } c 1 0 := rfl

theorem exec_insertMoveReceipt (user : UInt64) (key : Key) (parent source : UInt64) (name : Bytes)
    (node audit now : UInt64) :
    exec .insertMoveReceipt
      [.u64 user, .bytes key.val, .u64 parent, .u64 source, .bytes name, .u64 node, .u64 audit, .u64 now] t c =
      accept t { t with
        receipts := t.receipts ++
          [moveReceiptRow user key parent source name node audit now] } c 1 0 := rfl

theorem exec_insertRemoveReceipt (user : UInt64) (key : Key) (request node audit now : UInt64) :
    exec .insertRemoveReceipt
      [.u64 user, .bytes key.val, .u64 request, .u64 node, .u64 audit, .u64 now] t c =
      accept t { t with
        removals := t.removals ++ [removalRow user key request node audit now] } c 1 0 := rfl

end Statements

/-! ## 2. One write -/

/-- A write at one of the stages was not accepted. -/
structure Stumbled (stages : List Stage) (v : View Issue) (f : Failure) (v' : View Issue) : Prop where
  result : f = .database
  issue : v'.issue = v.issue
  stage : ∃ st ∈ stages, ∃ db, v'.err = v.err.note st .database db false

theorem Stumbled.mono {stages stages' : List Stage} {v v₀ v' : View Issue} {f : Failure}
    (h : Stumbled stages v f v') (hs : stages ⊆ stages') (hi : v.issue = v₀.issue)
    (he : v.err = v₀.err) : Stumbled stages' v₀ f v' := by
  obtain ⟨st, hst, db, e⟩ := h.stage
  exact ⟨h.result, h.issue.trans hi, st, hs hst, db, he ▸ e⟩

section Writes

variable {sql : Sql} {params : List Param} {stage : Stage} {v : View Issue} {new : Tables}
variable {bump : Counters} {row : UInt64 → Tables}

theorem inserted_accepted {next : Nat}
    (he : exec sql params v.tables v.counters = insertAuto next v.tables v.counters bump row)
    (hlt : next < 2 ^ 64) (hz : UInt64.ofNat next ≠ 0) (hs : Schema (row (UInt64.ofNat next))) :
    inserted sql params stage v =
      (.ok (UInt64.ofNat next), { v with tables := row (UInt64.ofNat next), counters := bump }) := by
  rw [insertAuto, if_pos hlt, accept_of_schema hs] at he
  have hj : (exec sql params v.tables v.counters).reply.judged true Execution.insertId =
      .ok (UInt64.ofNat next) := by
    rw [he]
    exact if_neg fun h => h.2 ⟨rfl, hz⟩
  refine (evaluated_ok hj).trans ?_
  rw [he]

theorem wp_inserted {next : Nat}
    (he : exec sql params v.tables v.counters = insertAuto next v.tables v.counters bump row) :
    wp (inserted sql params stage) (fun id v' => id ≠ 0 ∧ id.toNat = next ∧ Schema (row id) ∧
        v' = { v with tables := row id, counters := bump }) (Stumbled [stage] v) v := by
  have hfail : ∀ db, (exec sql params v.tables v.counters).reply.judged true Execution.insertId =
      .error db → wp (inserted sql params stage) (fun id v' => id ≠ 0 ∧ id.toNat = next ∧ Schema (row id) ∧
          v' = { v with tables := row id, counters := bump }) (Stumbled [stage] v) v := fun _ h =>
    wp_of_error (Ideal.evaluated_error h) ⟨rfl, rfl, stage, List.mem_singleton_self _, _, rfl⟩
  by_cases hlt : next < 2 ^ 64
  · rcases accept_cases v.tables (row (UInt64.ofNat next)) bump 1 (UInt64.ofNat next) with
      ⟨hs, e⟩ | ⟨code, e⟩
    · by_cases hz : UInt64.ofNat next = 0
      · refine hfail none ?_
        rw [he, insertAuto, if_pos hlt, e]
        exact if_pos ⟨rfl, fun h => h.2 hz⟩
      · refine wp_of_ok (inserted_accepted he hlt hz hs) ⟨hz, ?_, hs, rfl⟩
        rw [UInt64.toNat_ofNat']
        exact Nat.mod_eq_of_lt hlt
    · refine hfail (some ⟨.execute, code⟩) ?_
      rw [he, insertAuto, if_pos hlt, e]
      rfl
  · refine hfail (some ⟨.execute, 1467⟩) ?_
    rw [he, insertAuto, if_neg hlt]
    rfl

theorem wp_modified {n : Nat} (he : exec sql params v.tables v.counters = accept v.tables new v.counters n 0) :
    wp (modified sql params stage)
      (fun _ v' => UInt64.ofNat n = 1 ∧ Schema new ∧ v' = { v with tables := new })
      (Stumbled [stage] v) v := by
  have hfail : ∀ db, (exec sql params v.tables v.counters).reply.touchedOne = .error db →
      wp (modified sql params stage)
        (fun _ v' => UInt64.ofNat n = 1 ∧ Schema new ∧ v' = { v with tables := new })
        (Stumbled [stage] v) v := fun _ h =>
    wp_of_error (Ideal.evaluated_error h) ⟨rfl, rfl, stage, List.mem_singleton_self _, _, rfl⟩
  rcases accept_cases v.tables new v.counters n 0 with ⟨hs, e⟩ | ⟨code, e⟩
  · have hrun := he.trans e
    by_cases hone : UInt64.ofNat n = 1
    · have hj : (exec sql params v.tables v.counters).reply.touchedOne = .ok () := by
        rw [hrun]
        exact if_pos hone
      refine wp_of_ok (evaluated_ok hj) ⟨hone, hs, ?_⟩
      rw [hrun]
    · refine hfail none ?_
      rw [hrun]
      exact if_neg hone
  · refine hfail (some ⟨.execute, code⟩) ?_
    rw [he.trans e]
    rfl

theorem modified_accepted (hs : Schema new)
    (he : exec sql params v.tables v.counters = accept v.tables new v.counters 1 0) :
    modified sql params stage v = (.ok (), { v with tables := new }) := by
  have hrun := he.trans (accept_of_schema hs v.counters 1 0)
  have hj : (exec sql params v.tables v.counters).reply.touchedOne = .ok () := by
    rw [hrun]
    rfl
  refine (evaluated_ok hj).trans ?_
  rw [hrun]

end Writes

/-! ## 3. The three operations -/

/-- A new directory and its audit row. -/
structure DirectoryMade (actor : Actor) (parent : UInt64) (name : Bytes) (request : Key)
    (now : UInt64) (v : View Issue) (r : UInt64 × UInt64) (v' : View Issue) : Prop where
  node : r.1 ≠ 0 ∧ r.1.toNat = v.counters.nodes
  audit : r.2 ≠ 0 ∧ r.2.toNat = v.counters.audits
  schema : Schema v'.tables
  view : v' = { v with
    tables := { v.tables with
      nodes := v.tables.nodes ++ [directoryRow actor.userId parent name now r.1]
      audits := v.tables.audits ++ [nodeAudit 5 request actor r.1 now r.2] }
    counters := { v.counters with
      nodes := v.counters.nodes + 1
      audits := v.counters.audits + 1 } }

theorem wp_idealMkdir (actor : Actor) (parent : UInt64) (name : Bytes) (request : Key) (now : UInt64)
    (v : View Issue) :
    wp (idealMkdir actor parent name request now) (DirectoryMade actor parent name request now v)
      (Stumbled [.insert, .audit] v) v := by
  refine wp_bind.mpr (wp_mono (wp_inserted (exec_insertDirectory ..)) ?_
    fun f v' h => h.mono (by simp) rfl rfl)
  rintro id v₁ ⟨hid, hnext, -, rfl⟩
  refine wp_bind.mpr (wp_mono (wp_inserted (exec_insertNodeAudit ..)) ?_
    fun f v' h => h.mono (by simp) rfl rfl)
  rintro audit v₂ ⟨haudit, hnext', hs, rfl⟩
  exact wp_pure.mpr ⟨⟨hid, hnext⟩, ⟨haudit, hnext'⟩, hs, rfl⟩

/-- A move and its audit row. -/
structure NodeMoved (actor : Actor) (nodeId newParentId : UInt64) (name : Bytes) (request : Key)
    (d : Value × Bool) (now : UInt64) (v : View Issue) (audit : UInt64) (v' : View Issue) : Prop where
  number : audit ≠ 0 ∧ audit.toNat = v.counters.audits
  schema : Schema v'.tables
  view : v' = { v with
    tables := { v.tables with
      nodes := if d.2 then
          movedNodes actor.userId nodeId newParentId name (clamp now d.1.updatedAtMs) v.tables.nodes
        else v.tables.nodes
      audits := v.tables.audits ++ [nodeAudit 6 request actor d.1.id now audit] }
    counters := { v.counters with audits := v.counters.audits + 1 } }

theorem wp_idealMove (actor : Actor) (nodeId newParentId : UInt64) (name : Bytes) (request : Key)
    (d : Value × Bool) (now : UInt64) (v : View Issue) :
    wp (idealMove actor nodeId newParentId name request d now)
      (NodeMoved actor nodeId newParentId name request d now v) (Stumbled [.update, .audit] v) v := by
  unfold idealMove
  cases hd : d.2 with
  | true =>
    rw [if_pos rfl]
    refine wp_bind.mpr (wp_mono (wp_modified (exec_moveNode ..)) ?_ fun f v' h => h.mono (by simp) rfl rfl)
    rintro - v₁ ⟨-, -, rfl⟩
    refine wp_mono (wp_inserted (exec_insertNodeAudit ..)) ?_ fun f v' h => h.mono (by simp) rfl rfl
    rintro audit v₂ ⟨haudit, hnext, hs, rfl⟩
    refine ⟨⟨haudit, hnext⟩, hs, ?_⟩
    rw [hd, if_pos rfl]
  | false =>
    rw [if_neg Bool.false_ne_true, pure_bind]
    refine wp_mono (wp_inserted (exec_insertNodeAudit ..)) ?_ fun f v' h => h.mono (by simp) rfl rfl
    rintro audit v₂ ⟨haudit, hnext, hs, rfl⟩
    refine ⟨⟨haudit, hnext⟩, hs, ?_⟩
    rw [hd, if_neg Bool.false_ne_true]

/-- A deletion, the released object and the audit row. -/
structure NodeDeleted (actor : Actor) (request : Key) (d : Value × ObjectRead) (now : UInt64)
    (v : View Issue) (audit : UInt64) (v' : View Issue) : Prop where
  number : audit ≠ 0 ∧ audit.toNat = v.counters.audits
  schema : Schema v'.tables
  view : v' = { v with
    tables := { v.tables with
      nodes := deletedNodes actor.userId d.1.id (clamp now d.1.updatedAtMs) v.tables.nodes
      objects := if d.1.kind = .file then
          releasedObjects (d.1.objectHash.getD []) d.2 now v.tables.objects
        else v.tables.objects
      audits := v.tables.audits ++ [nodeAudit 7 request actor d.1.id now audit] }
    counters := { v.counters with audits := v.counters.audits + 1 } }

theorem wp_idealDelete (actor : Actor) (request : Key) (d : Value × ObjectRead) (now : UInt64)
    (v : View Issue) :
    wp (idealDelete actor request d now) (NodeDeleted actor request d now v)
      (Stumbled [.softDelete, .objectUpdate, .audit] v) v := by
  rw [idealDelete]
  refine wp_bind.mpr (wp_mono (wp_modified (exec_deleteNode ..)) ?_ fun f v' h => h.mono (by simp) rfl rfl)
  rintro - v₁ ⟨-, -, rfl⟩
  by_cases hfile : d.1.kind = .file
  · rw [if_pos hfile]
    refine wp_bind.mpr (wp_mono (wp_modified (exec_updateObject ..)) ?_
      fun f v' h => h.mono (by simp) rfl rfl)
    rintro - v₂ ⟨-, -, rfl⟩
    refine wp_mono (wp_inserted (exec_insertNodeAudit ..)) ?_ fun f v' h => h.mono (by simp) rfl rfl
    rintro audit v₃ ⟨haudit, hnext, hs, rfl⟩
    refine ⟨⟨haudit, hnext⟩, hs, ?_⟩
    rw [if_pos hfile]
  · rw [if_neg hfile, pure_bind]
    refine wp_mono (wp_inserted (exec_insertNodeAudit ..)) ?_ fun f v' h => h.mono (by simp) rfl rfl
    rintro audit v₃ ⟨haudit, hnext, hs, rfl⟩
    refine ⟨⟨haudit, hnext⟩, hs, ?_⟩
    rw [if_neg hfile]

/-! ## 4. The way to the writes -/

/-- What an entry knows when it starts to write. -/
structure Go (δ : Type) where
  win : Window
  now : UInt64
  plan : δ

section Way

variable {α β δ : Type} {v : View Issue} {actor : Actor} {t : Tables} {verdict : Tables → Except Verdict δ}
  {decision : Tables → Decision α δ} {clock : Nat → Sampled} {c : Counters}

/-- Everything of an entry before its first write. -/
def approach (actor : Actor) (verdict : Tables → Except Verdict δ) : Ideal Issue (Go δ) := do
  let win ← (look (admission actor) >>= idealSpeak)
  let decided ← look verdict
  let now ← sample
  idealCheck win now
  let plan ← idealSpeak decided
  pure ⟨win, now, plan⟩

/-- An entry has come to its first write. -/
structure Ready (actor : Actor) (verdict : Tables → Except Verdict δ) (v : View Issue) (go : Go δ)
    (v' : View Issue) : Prop where
  admitted : admission actor v.tables = .ok go.win
  decided : verdict v.tables = .ok go.plan
  sampled : (v.clock v.ticks).millis = .ok go.now
  inside : go.win.Contains go.now
  view : v' = { v with ticks := v.ticks + 1 }

/-- An entry was stopped before its first write: it says why, or the clock failed. -/
structure Barred (v : View Issue) (v' : View Issue) : Prop where
  tables : v'.tables = v.tables
  counters : v'.counters = v.counters
  spoken : v'.issue ≠ .none ∨ (v'.issue = v.issue ∧ ∃ f : Failure, v'.err = v.err.note .utc f.val none false)

theorem wp_sample {Q : UInt64 → View Issue → Prop}
    (h : ∀ now, (v.clock v.ticks).millis = .ok now → Q now { v with ticks := v.ticks + 1 }) :
    wp (.sample : Ideal Issue UInt64) Q (fun _ v' => Barred v v') v := by
  cases hm : (v.clock v.ticks).millis with
  | ok now =>
    refine wp_of_ok (a := now) (t := { v with ticks := v.ticks + 1 }) ?_ (h now hm)
    unfold sample
    rw [hm]
  | error f =>
    refine wp_of_error (e := f) (t := { v with
      ticks := v.ticks + 1
      err := v.err.note .utc f.val none false }) ?_ ⟨rfl, rfl, .inr ⟨rfl, f, rfl⟩⟩
    unfold sample
    rw [hm]

theorem admission_spoken {d : Verdict} (h : admission actor t = .error d) : d.issue ≠ .none := by
  unfold admission at h
  split at h
  · split at h
    · injection h with h
      rw [← h]
      decide
    · split at h
      · cases h
      · injection h with h
        rw [← h]
        decide
  · injection h with h
    rw [← h]
    decide

theorem wp_approach (actor : Actor) (hspoken : ∀ d, verdict v.tables = .error d → d.issue ≠ .none) :
    wp (approach actor verdict) (Ready actor verdict v) (fun _ v' => Barred v v') v := by
  unfold approach
  refine wp_bind.mpr (wp_bind.mpr (wp_of_ok rfl ?_))
  cases hadm : admission actor v.tables with
  | error d => exact wp_of_error rfl ⟨rfl, rfl, .inl (admission_spoken hadm)⟩
  | ok win =>
    refine wp_pure.mpr (wp_bind.mpr (wp_of_ok rfl (wp_bind.mpr (wp_sample fun now hnow => ?_))))
    refine wp_bind.mpr ?_
    unfold idealCheck
    by_cases hin : win.Contains now
    · rw [if_pos hin]
      refine wp_pure.mpr (wp_bind.mpr ?_)
      cases hver : verdict v.tables with
      | error d => exact wp_of_error rfl ⟨rfl, rfl, .inl (hspoken d hver)⟩
      | ok plan => exact wp_pure.mpr (wp_pure.mpr ⟨hadm, hver, hnow, hin, rfl⟩)
    · rw [if_neg hin]
      exact wp_of_error rfl ⟨rfl, rfl, .inl Issue.noConfusion⟩

theorem idealWrite_approach (actor : Actor) (effect : δ → UInt64 → Ideal Issue α)
    (hd : decision v.tables = .ofExcept (verdict v.tables)) :
    idealWrite actor (idealWork decision effect) v =
      (approach actor verdict >>= fun go => effect go.plan go.now >>= fun a =>
        idealClocked go.win (.ready a)) v := by
  have hreject : ∀ {γ ε : Type} (d : Verdict) (f : γ → Ideal Issue ε),
      (idealReject d : Ideal Issue γ) >>= f = idealReject d := fun _ _ => rfl
  have hsettle : ∀ win, idealSettle effect win (.ofExcept (verdict v.tables)) >>= idealClocked win = (do
        let now ← sample
        idealCheck win now
        let plan ← idealSpeak (verdict v.tables)
        pure (Go.mk win now plan)) >>= fun go =>
          effect go.plan go.now >>= fun a => idealClocked go.win (.ready a) := by
    intro win
    unfold idealSettle
    cases verdict v.tables with
    | error d => simp only [Decision.ofExcept, idealSpeak, bind_assoc, hreject]
    | ok plan => simp only [Decision.ofExcept, idealSpeak, bind_assoc, pure_bind]
  have hlook : ∀ win, (idealWork decision effect win >>= idealClocked win) v =
      (idealSettle effect win (.ofExcept (verdict v.tables)) >>= idealClocked win) v := by
    intro win
    rw [← hd]
    rfl
  rw [idealWrite_eq]
  unfold approach
  have hpre : (look (admission actor) >>= idealSpeak : Ideal Issue Window) v =
      idealSpeak (admission actor v.tables) v := rfl
  generalize (look (admission actor) >>= idealSpeak : Ideal Issue Window) = pre at hpre ⊢
  rw [bind_assoc]
  cases hadm : admission actor v.tables with
  | error d =>
    rw [hadm] at hpre
    exact (bind_error hpre).trans (bind_error hpre).symm
  | ok win =>
    rw [hadm] at hpre
    refine (bind_ok hpre).trans (Eq.trans ?_ (bind_ok hpre).symm)
    rw [hlook, hsettle]
    rfl

/-- The view of an entry that comes to its first write. -/
def View.going (t : Tables) (c : Counters) (clock : Nat → Sampled) : View Issue :=
  { View.start t c clock with ticks := 1 }

/-- A change that is ready: what was decided, what was written, and the clock looked at once more. -/
structure Applied (actor : Actor) (verdict : Tables → Except Verdict δ)
    (post : δ → UInt64 → View Issue → α → View Issue → Prop) (t : Tables) (c : Counters)
    (clock : Nat → Sampled) (a : α) (v' : View Issue) : Prop where
  way : ∃ go v₁, Ready actor verdict (View.start t c clock) go (View.going t c clock) ∧
    post go.plan go.now (View.going t c clock) a v₁ ∧ v' = { v₁ with ticks := v₁.ticks + 1 }

theorem wp_idealWrite (actor : Actor) (c : Counters) (clock : Nat → Sampled)
    {effect : δ → UInt64 → Ideal Issue α} {stages : List Stage}
    {post : δ → UInt64 → View Issue → α → View Issue → Prop} (hd : decision t = .ofExcept (verdict t))
    (hspoken : ∀ d, verdict t = .error d → d.issue ≠ .none)
    (he : ∀ d now v, wp (effect d now) (post d now v) (Stumbled stages v) v) :
    wp (idealWrite actor (idealWork decision effect))
      (fun r v' => ∃ a, r = .ready a ∧ Applied actor verdict post t c clock a v')
      (fun _ _ => True) (View.start t c clock) := by
  refine (wp_congr (idealWrite_approach actor effect hd)).mpr (wp_bind.mpr ?_)
  refine wp_mono (wp_approach actor hspoken) ?_ fun _ _ _ => trivial
  rintro go v₁ hgo
  obtain rfl : v₁ = View.going t c clock := hgo.view
  refine wp_bind.mpr (wp_mono (he go.plan go.now _) ?_ fun _ _ _ => trivial)
  intro a v₂ hpost
  refine wp_bind.mpr (wp_mono (wp_sample fun now _ => rfl) ?_ fun _ _ _ => trivial)
  rintro now v₃ rfl
  unfold idealCheck
  refine wp_bind.mpr ?_
  split
  · exact wp_pure.mpr (wp_pure.mpr ⟨a, rfl, ⟨go, v₂, hgo, hpost, rfl⟩⟩)
  · exact wp_of_error rfl trivial

theorem answer_applied [Inhabited α] (plan : Plan) {entry : Ideal Issue (Settled α)} {P : α → View Issue → Prop}
    (h : wp entry (fun r v' => ∃ a, r = .ready a ∧ P a v') (fun _ _ => True) (View.start t c clock)) :
    let a := answer plan entry t c clock
    (a.commit = .notCommitted ∧ a.tables = t) ∨
      (a.result = .ok ∧ a.commit = .committed ∧ ∃ v', P a.value v' ∧ a.issue = v'.issue ∧
        a.tables = v'.tables ∧ a.counters = v'.counters) := by
  unfold answer
  unfold wp at h
  generalize entry (View.start t c clock) = x at h ⊢
  rcases x with ⟨f | r, v'⟩
  · exact .inl ⟨rfl, rfl⟩
  · obtain ⟨a, rfl, hp⟩ := h
    exact .inr ⟨rfl, rfl, v', hp, rfl, rfl, rfl⟩

/-- Who acts may act: an active user, a session of his own that is not revoked, and a clock inside its
    window. -/
structure Admitted (actor : Actor) (t : Tables) (clock : Nat → Sampled) : Prop where
  inside : ∃ win now, admission actor t = .ok win ∧ (clock 0).millis = .ok now ∧ win.Contains now

theorem wp_idealWrite_unapplied (actor : Actor) (effect : δ → UInt64 → Ideal Issue α) (c : Counters)
    (clock : Nat → Sampled) (hd : ∀ d, decision t ≠ .apply d) :
    wp (idealWrite actor (idealWork decision effect)) (fun r _ => ∃ a, r = .recovered a)
      (fun _ _ => True) (View.start t c clock) := by
  rw [idealWrite_eq]
  refine wp_bind.mpr (wp_bind.mpr (wp_of_ok rfl ?_))
  cases hadm : admission actor (View.start t c clock).tables with
  | error d => exact wp_of_error rfl trivial
  | ok win =>
    refine wp_pure.mpr (wp_bind.mpr ?_)
    unfold idealWork idealSettle
    refine wp_bind.mpr (wp_of_ok rfl (wp_bind.mpr ?_))
    refine wp_mono (wp_sample fun now _ => rfl) ?_ fun _ _ _ => trivial
    rintro now v rfl
    refine wp_bind.mpr ?_
    unfold idealCheck
    split
    · refine wp_pure.mpr ?_
      cases hdec : decision (View.start t c clock).tables with
      | refuse d => exact wp_of_error rfl trivial
      | recover a => exact wp_pure.mpr (wp_pure.mpr ⟨a, rfl⟩)
      | apply d => exact absurd hdec (hd d)
    · exact wp_of_error rfl trivial

theorem answer_unapplied [Inhabited α] (plan : Plan) (actor : Actor) (effect : δ → UInt64 → Ideal Issue α)
    (c : Counters) (clock : Nat → Sampled) (hd : ∀ d, decision t ≠ .apply d) :
    let a := answer plan (idealWrite actor (idealWork decision effect)) t c clock
    a.commit = .notCommitted ∧ a.tables = t := by
  have h := wp_idealWrite_unapplied actor effect c clock hd
  unfold answer
  unfold wp at h
  generalize idealWrite actor (idealWork decision effect) (View.start t c clock) = x at h ⊢
  rcases x with ⟨f | r, v'⟩
  · exact ⟨rfl, rfl⟩
  · obtain ⟨a, rfl⟩ := h
    exact ⟨rfl, rfl⟩

section

variable (effect : δ → UInt64 → Ideal Issue α)

theorem idealWrite_inside (c : Counters) {win : Window} {now : UInt64}
    (hadm : admission actor t = .ok win) (hnow : (clock 0).millis = .ok now) (hin : win.Contains now)
    {d : Decision α δ} (hd : decision t = d) :
    idealWrite actor (idealWork decision effect) (View.start t c clock) = (match d with
        | .refuse v => idealReject v
        | .recover a => pure (.recovered a)
        | .apply d => effect d now >>= fun a => idealClocked win (.ready a) : Ideal Issue (Settled α))
        (View.going t c clock) := by
  have hstart : (look (admission actor) >>= idealSpeak : Ideal Issue Window)
      (View.start t c clock) = (.ok win, View.start t c clock) :=
    congrArg (fun a => idealSpeak a (View.start t c clock)) hadm
  have hsample : (sample : Ideal Issue UInt64) (View.start t c clock) =
      (.ok now, View.going t c clock) := by
    unfold sample
    rw [show ((View.start t c clock).clock (View.start t c clock).ticks).millis = .ok now from hnow]
    rfl
  have hcheck : idealCheck win now (View.going t c clock) = (.ok (), View.going t c clock) := by
    unfold idealCheck
    rw [if_pos hin]
    rfl
  have hlook : (look decision : Ideal Issue (Decision α δ)) (View.start t c clock) =
      (.ok d, View.start t c clock) := congrArg (fun d => (Except.ok d, View.start t c clock)) hd
  rw [idealWrite_eq]
  refine (bind_ok hstart).trans ?_
  unfold idealWork idealSettle
  simp only [bind_assoc]
  refine (bind_ok hlook).trans ((bind_ok hsample).trans ((bind_ok hcheck).trans ?_))
  cases d with
  | refuse v => exact bind_error rfl
  | recover a => rfl
  | apply d =>
    simp only [bind_assoc, pure_bind]

theorem idealWrite_admitted (h : Admitted actor t clock) :
    (∀ a, decision t = .recover a → idealWrite actor (idealWork decision effect)
      (View.start t c clock) = (.ok (.recovered a), View.going t c clock)) ∧
    ∀ d, decision t = .refuse d → idealWrite actor (idealWork decision effect)
      (View.start t c clock) = idealReject d (View.going t c clock) := by
  obtain ⟨win, now, hadm, hnow, hin⟩ := h.inside
  exact ⟨fun a ha => idealWrite_inside effect c hadm hnow hin ha,
    fun d hd => idealWrite_inside effect c hadm hnow hin hd⟩

end

end Way

end Vireo.Persistence.Node
