/-
  File:      Vireo/Persistence/Node/Change.lean
  Subject:   EVERY CALL COMMITS ONE OF SIX CHANGES, OR NONE.
-/
import Vireo.Persistence.Node.Effect

namespace Vireo.Persistence.Node

open Lib Prog

/-! ## 1. The change a call makes -/

/-- The tables after a directory was made. -/
def mkdirTables (actor : Actor) (parent : UInt64) (name : Bytes) (request : Key)
    (now id audit : UInt64) (t : Tables) : Tables :=
  { t with
    nodes := t.nodes ++ [directoryRow actor.userId parent name now id]
    audits := t.audits ++ [nodeAudit 5 request actor id now audit] }

/-- The tables after a node was moved, or left where it is. -/
def moveTables (actor : Actor) (nodeId newParentId : UInt64) (name : Bytes) (request : Key)
    (d : Value × Bool) (now audit : UInt64) (t : Tables) : Tables :=
  { t with
    nodes := if d.2 then
        movedNodes actor.userId nodeId newParentId name (clamp now d.1.updatedAtMs) t.nodes
      else t.nodes
    audits := t.audits ++ [nodeAudit 6 request actor d.1.id now audit] }

/-- The tables after a node was deleted. -/
def deleteTables (actor : Actor) (request : Key) (d : Value × ObjectRead) (now audit : UInt64)
    (t : Tables) : Tables :=
  { t with
    nodes := deletedNodes actor.userId d.1.id (clamp now d.1.updatedAtMs) t.nodes
    objects := if d.1.kind = .file then
        releasedObjects (d.1.objectHash.getD []) d.2 now t.objects
      else t.objects
    audits := t.audits ++ [nodeAudit 7 request actor d.1.id now audit] }

/-- A receipt is left. -/
def withReceipt (r : ReceiptRow) (t : Tables) : Tables := { t with receipts := t.receipts ++ [r] }

def withRemoval (r : RemovalRow) (t : Tables) : Tables := { t with removals := t.removals ++ [r] }

/-- **The change of a committed call**: what was published and what the tables became. -/
inductive Wrote (actor : Actor) (t : Tables) (c : Counters) : WriteCall → Published → Tables → Prop
  | mkdir (i : MkdirInput) (now id audit : UInt64) (hid : id ≠ 0) (haudit : audit ≠ 0)
      (hnode : id.toNat = c.nodes)
      (verdict : mkdirVerdict actor.userId i.parentId i.name t = .ok ()) :
      Wrote actor t c (.mkdir i) ⟨.none, id, audit, 0⟩
        (mkdirTables actor i.parentId i.name i.requestId now id audit t)
  | mkdirOnce (i : MkdirOnceInput) (now id audit : UInt64) (hid : id ≠ 0) (haudit : audit ≠ 0)
      (hnode : id.toNat = c.nodes)
      (unused : t.receipt actor.userId 1027 i.idempotencyKey.val = none)
      (verdict : mkdirVerdict actor.userId i.parentId i.name t = .ok ()) :
      Wrote actor t c (.mkdirOnce i) ⟨.applied, id, audit, 0⟩
        (withReceipt (mkdirReceiptRow actor.userId i.idempotencyKey i.parentId i.name id audit now)
          (mkdirTables actor i.parentId i.name i.requestId now id audit t))
  | move (i : MoveInput) (d : Value × Bool) (now audit : UInt64) (haudit : audit ≠ 0)
      (verdict : moveVerdictOf actor.userId i.nodeId i.newParentId i.name t = .ok d) :
      Wrote actor t c (.move i) ⟨.none, d.1.id, audit, 0⟩
        (moveTables actor i.nodeId i.newParentId i.name i.requestId d now audit t)
  | moveOnce (i : MoveOnceInput) (d : Value × Bool) (now audit : UInt64) (haudit : audit ≠ 0)
      (unused : t.receipt actor.userId 1029 i.idempotencyKey.val = none)
      (verdict : moveVerdictOf actor.userId i.nodeId i.newParentId i.name t = .ok d) :
      Wrote actor t c (.moveOnce i) ⟨.applied, d.1.id, audit, 0⟩
        (withReceipt
          (moveReceiptRow actor.userId i.idempotencyKey i.newParentId i.nodeId i.name d.1.id audit now)
          (moveTables actor i.nodeId i.newParentId i.name i.requestId d now audit t))
  | softDelete (i : SoftDeleteInput) (d : Value × ObjectRead) (now audit : UInt64)
      (haudit : audit ≠ 0) (verdict : deleteVerdictOf actor.userId i.nodeId t = .ok d) :
      Wrote actor t c (.softDelete i) ⟨.none, d.1.id, audit, clamp now d.1.updatedAtMs⟩
        (deleteTables actor i.requestId d now audit t)
  | softDeleteOnce (i : RemoveOnceInput) (d : Value × ObjectRead) (now audit : UInt64)
      (haudit : audit ≠ 0) (unused : t.removal actor.userId i.idempotencyKey.val = none)
      (verdict : deleteVerdictOf actor.userId i.nodeId t = .ok d) :
      Wrote actor t c (.softDeleteOnce i) ⟨.applied, d.1.id, audit, clamp now d.1.updatedAtMs⟩
        (withRemoval
          (removalRow actor.userId i.idempotencyKey d.1.id d.1.id audit (clamp now d.1.updatedAtMs))
          (deleteTables actor i.requestId d now audit t))

/-- What stands in the way of a call is spoken. -/
def Speaks {δ : Type} (r : Except Verdict δ) : Prop := ∀ d, r = .error d → d.issue ≠ .none

theorem Speaks.error {δ : Type} {v : Verdict} (h : v.issue ≠ .none) : Speaks (.error v : Except Verdict δ) := by
  intro d e
  cases e
  exact h

theorem Speaks.ok {δ : Type} (a : δ) : Speaks (.ok a : Except Verdict δ) := by
  intro d e
  cases e

section Verdicts

variable {t : Tables} {user nodeId : UInt64} {name : Bytes}

theorem mkdirVerdict_speaks (parent : UInt64) (name : Bytes) : Speaks (mkdirVerdict user parent name t) := by
  unfold mkdirVerdict
  split
  · exact .error Issue.noConfusion
  split
  · exact .error Issue.noConfusion
  · exact .ok _

theorem walk_spoken {forbidden : Option UInt64} {d : Verdict} (n : Nat) :
    ∀ (visited : List UInt64) (id : UInt64), walk t user forbidden n visited id = some d → d.issue ≠ .none := by
  have hsome : ∀ v : Verdict, v.issue ≠ .none → some v = some d → d.issue ≠ .none := by
    intro v hv e
    cases e
    exact hv
  induction n with
  | zero => exact fun _ _ h => hsome _ Issue.noConfusion h
  | succ n ih =>
    intro visited id h
    unfold walk at h
    split at h
    · exact hsome _ Issue.noConfusion h
    split at h
    · exact hsome _ Issue.noConfusion h
    split at h
    · exact hsome _ Issue.noConfusion h
    split at h
    · exact hsome _ Issue.noConfusion h
    split at h
    · cases h
    · exact ih _ _ h

theorem moveVerdictOf_speaks (nodeId newParentId : UInt64) (name : Bytes) :
    Speaks (moveVerdictOf user nodeId newParentId name t) := by
  unfold moveVerdictOf
  split
  · exact .error Issue.noConfusion
  split
  · exact .error Issue.noConfusion
  split
  · exact .error Issue.noConfusion
  split
  · exact .error (walk_spoken _ _ _ ‹_›)
  split
  · exact .error (walk_spoken _ _ _ ‹_›)
  split
  · exact .error Issue.noConfusion
  · exact .ok _

theorem objectVerdict_speaks (hash : Bytes) (size : UInt64) : Speaks (objectVerdict hash size t) := by
  unfold objectVerdict
  split
  · exact .error Issue.noConfusion
  split
  · exact .error Issue.noConfusion
  · exact .ok _

theorem deleteVerdictOf_speaks (nodeId : UInt64) : Speaks (deleteVerdictOf user nodeId t) := by
  unfold deleteVerdictOf
  split
  · exact .error Issue.noConfusion
  split
  · exact .error Issue.noConfusion
  split
  · exact .error (walk_spoken _ _ _ ‹_›)
  split
  · split
    · exact .error Issue.noConfusion
    · exact .ok _
  · cases ho : objectVerdict (Option.getD _ []) _ t with
    | error e => exact .error (objectVerdict_speaks _ _ _ ho)
    | ok o => exact .ok _

theorem mkdirVerdict_ok {parent : UInt64} (h : mkdirVerdict user parent name t = .ok ()) :
    isDirectory (nodeAt t user parent) = true := by
  unfold mkdirVerdict at h
  split at h
  · cases h
  · exact (Bool.not_eq_false _).mp ‹_›

/-- What a node needs to be moved. -/
structure MoveAllowed (user nodeId newParentId : UInt64) (name : Bytes) (t : Tables)
    (d : Value × Bool) : Prop where
  source : nodeAt t user nodeId = some d.1
  target : isDirectory (nodeAt t user newParentId) = true
  away : ∃ old, d.1.parent = some old ∧ walk t user (some 0) ancestorCapacity [] old = none ∧
    d.2 = decide (old ≠ newParentId ∨ d.1.name ≠ name)
  towards : walk t user (some (if d.1.kind = .directory then d.1.id else 0)) ancestorCapacity []
    newParentId = none
  free : ∀ r, t.occupant user newParentId name = some r → r.id = d.1.id

theorem moveVerdictOf_ok {newParentId : UInt64} {d : Value × Bool}
    (h : moveVerdictOf user nodeId newParentId name t = .ok d) :
    MoveAllowed user nodeId newParentId name t d := by
  unfold moveVerdictOf at h
  split at h
  · cases h
  rename_i source hsource
  split at h
  · cases h
  rename_i hdir
  split at h
  · cases h
  rename_i old hold
  split at h
  · cases h
  rename_i haway
  split at h
  · cases h
  rename_i htowards
  split at h
  · cases h
  rename_i hfree
  injection h with h
  subst h
  refine ⟨hsource, Bool.not_eq_false _ ▸ hdir, ⟨old, hold, haway, rfl⟩, htowards, ?_⟩
  intro r hr
  by_contra hne
  rw [hr] at hfree
  exact hfree (decide_eq_true hne)

/-- What a node needs to be deleted. -/
structure DeleteAllowed (user nodeId : UInt64) (t : Tables) (d : Value × ObjectRead) : Prop where
  source : nodeAt t user nodeId = some d.1
  away : ∃ old, d.1.parent = some old ∧ walk t user none ancestorCapacity [] old = none
  empty : d.1.kind = .directory → t.liveChild user d.1.id = none
  object : d.1.kind ≠ .directory → objectVerdict (d.1.objectHash.getD []) d.1.size t = .ok d.2

theorem deleteVerdictOf_ok {d : Value × ObjectRead} (h : deleteVerdictOf user nodeId t = .ok d) :
    DeleteAllowed user nodeId t d := by
  unfold deleteVerdictOf at h
  split at h
  · cases h
  rename_i source hsource
  split at h
  · cases h
  rename_i old hold
  split at h
  · cases h
  rename_i haway
  split at h
  · rename_i hdir
    split at h
    · cases h
    rename_i hempty
    injection h with h
    subst h
    exact ⟨hsource, ⟨old, hold, haway⟩, fun _ => Option.not_isSome_iff_eq_none.mp hempty,
      fun hnot => absurd hdir hnot⟩
  · rename_i hdir
    cases ho : objectVerdict (source.objectHash.getD []) source.size t with
    | error e =>
      rw [ho] at h
      cases h
    | ok o =>
      rw [ho] at h
      injection h with h
      subst h
      exact ⟨hsource, ⟨old, hold, haway⟩, fun hyes => absurd hyes hdir, fun _ => ho⟩

theorem nodeAt_id {owner id : UInt64} {v : Value} (h : nodeAt t owner id = some v) : v.id = id := by
  unfold nodeAt at h
  obtain ⟨r, hr, rfl⟩ := Option.map_eq_some_iff.mp h
  exact (Tables.mem_of_activeNode hr).2.2.1

end Verdicts

/-! ## 2. Every answer is such a change, or none -/

section Effects

variable (actor : Actor)

theorem wp_mkdirEffect (i : MkdirInput) (now : UInt64) (v : View Issue) : wp (mkdirEffect actor i () now)
      (fun a v' => ∃ r, a = ⟨some (newDirectory actor.userId i.parentId i.name now r.1), r.2⟩ ∧
        DirectoryMade actor i.parentId i.name i.requestId now v r v')
      (Stumbled [.insert, .audit] v) v :=
  wp_bind.mpr (wp_mono (wp_idealMkdir actor i.parentId i.name i.requestId now v)
    (fun r _ h => wp_pure.mpr ⟨r, rfl, h⟩) fun _ _ h => h)

/-- A receipt after a change. -/
structure Receipted (tables : Tables) (v₁ v' : View Issue) : Prop where
  schema : Schema tables
  view : v' = { v₁ with tables := tables }

theorem wp_mkdirOnceEffect (i : MkdirOnceInput) (now : UInt64) (v : View Issue) :
    wp (mkdirOnceEffect actor i () now)
      (fun a v' => ∃ r v₁, a = ⟨.applied, r.1, r.2, i.idempotencyKey.val⟩ ∧
        DirectoryMade actor i.parentId i.name i.requestId now v r v₁ ∧
        Receipted (withReceipt (mkdirReceiptRow actor.userId i.idempotencyKey i.parentId i.name r.1 r.2
          now) v₁.tables) v₁ v')
      (Stumbled [.insert, .audit, .receiptInsert] v) v := by
  refine wp_bind.mpr (wp_mono (wp_idealMkdir actor i.parentId i.name i.requestId now v) ?_
    fun f v' h => h.mono (by simp) rfl rfl)
  rintro r v₁ h
  have hissue : v₁.issue = v.issue ∧ v₁.err = v.err := by
    rw [h.view]
    exact ⟨rfl, rfl⟩
  refine wp_bind.mpr (wp_mono (wp_modified (exec_insertMkdirReceipt ..)) ?_
    fun f v' k => k.mono (by simp) hissue.1 hissue.2)
  rintro - v₂ ⟨-, hs, rfl⟩
  exact wp_pure.mpr ⟨r, v₁, rfl, h, hs, rfl⟩

theorem wp_moveEffect (i : MoveInput) (d : Value × Bool) (now : UInt64) (v : View Issue) :
    wp (moveEffect actor i d now)
      (fun a v' => ∃ audit, a = ⟨some (movedValue i.newParentId i.name d now), audit, d.2⟩ ∧
        NodeMoved actor i.nodeId i.newParentId i.name i.requestId d now v audit v')
      (Stumbled [.update, .audit] v) v :=
  wp_bind.mpr (wp_mono (wp_idealMove actor i.nodeId i.newParentId i.name i.requestId d now v)
    (fun audit _ h => wp_pure.mpr ⟨audit, rfl, h⟩) fun _ _ h => h)

theorem wp_moveOnceEffect (i : MoveOnceInput) (d : Value × Bool) (now : UInt64) (v : View Issue) :
    wp (moveOnceEffect actor i d now)
      (fun a v' => ∃ audit v₁, a = ⟨.applied, d.1.id, audit, i.idempotencyKey.val⟩ ∧
        NodeMoved actor i.nodeId i.newParentId i.name i.requestId d now v audit v₁ ∧
        Receipted (withReceipt (moveReceiptRow actor.userId i.idempotencyKey i.newParentId i.nodeId
          i.name d.1.id audit now) v₁.tables) v₁ v')
      (Stumbled [.update, .audit, .receiptInsert] v) v := by
  refine wp_bind.mpr (wp_mono (wp_idealMove actor i.nodeId i.newParentId i.name i.requestId d now v) ?_
    fun f v' h => h.mono (by simp) rfl rfl)
  rintro audit v₁ h
  have hissue : v₁.issue = v.issue ∧ v₁.err = v.err := by
    rw [h.view]
    exact ⟨rfl, rfl⟩
  refine wp_bind.mpr (wp_mono (wp_modified (exec_insertMoveReceipt ..)) ?_
    fun f v' k => k.mono (by simp) hissue.1 hissue.2)
  rintro - v₂ ⟨-, hs, rfl⟩
  exact wp_pure.mpr ⟨audit, v₁, rfl, h, hs, rfl⟩

theorem wp_softDeleteEffect (i : SoftDeleteInput) (d : Value × ObjectRead) (now : UInt64)
    (v : View Issue) :
    wp (softDeleteEffect actor i d now)
      (fun a v' => ∃ audit, a = ⟨d.1.id, audit, clamp now d.1.updatedAtMs⟩ ∧
        NodeDeleted actor i.requestId d now v audit v')
      (Stumbled [.softDelete, .objectUpdate, .audit] v) v :=
  wp_bind.mpr (wp_mono (wp_idealDelete actor i.requestId d now v)
    (fun audit _ h => wp_pure.mpr ⟨audit, rfl, h⟩) fun _ _ h => h)

theorem wp_softDeleteOnceEffect (i : RemoveOnceInput) (d : Value × ObjectRead) (now : UInt64)
    (v : View Issue) :
    wp (softDeleteOnceEffect actor i d now)
      (fun a v' => ∃ audit v₁, a = ⟨.applied, d.1.id, audit, clamp now d.1.updatedAtMs⟩ ∧
        NodeDeleted actor i.requestId d now v audit v₁ ∧
        Receipted (withRemoval (removalRow actor.userId i.idempotencyKey d.1.id d.1.id audit
          (clamp now d.1.updatedAtMs)) v₁.tables) v₁ v')
      (Stumbled [.softDelete, .objectUpdate, .audit, .receiptInsert] v) v := by
  refine wp_bind.mpr (wp_mono (wp_idealDelete actor i.requestId d now v) ?_
    fun f v' h => h.mono (by simp) rfl rfl)
  rintro audit v₁ h
  have hissue : v₁.issue = v.issue ∧ v₁.err = v.err := by
    rw [h.view]
    exact ⟨rfl, rfl⟩
  refine wp_bind.mpr (wp_mono (wp_modified (exec_insertRemoveReceipt ..)) ?_
    fun f v' k => k.mono (by simp) hissue.1 hissue.2)
  rintro - v₂ ⟨-, hs, rfl⟩
  exact wp_pure.mpr ⟨audit, v₁, rfl, h, hs, rfl⟩

end Effects

/-- An answer leaves the tables alone, or commits a change of its call. -/
def Leaves (actor : Actor) (t : Tables) (c : Counters) (call : WriteCall) (a : Answer Published) : Prop :=
  (a.commit = .notCommitted ∧ a.tables = t) ∨
    (a.result = .ok ∧ a.commit = .committed ∧ a.issue = .none ∧ Wrote actor t c call a.value a.tables)

section Answers

variable (actor : Actor) (t : Tables) (c : Counters) (clock : Nat → Sampled)

theorem leaves_applied {α δ : Type} [Inhabited α] (plan : Plan) {decision : Tables → Decision α δ}
    {effect : δ → UInt64 → Ideal Issue α} {verdict : Tables → Except Verdict δ} {stages : List Stage}
    {post : δ → UInt64 → View Issue → α → View Issue → Prop} {f : α → Published} {call : WriteCall}
    (hdec : decision t = .ofExcept (verdict t)) (hspeaks : Speaks (verdict t))
    (heffect : ∀ d now v, wp (effect d now) (post d now v) (Stumbled stages v) v)
    (hwrote : ∀ d now a v', verdict t = .ok d → post d now (View.going t c clock) a v' →
      v'.issue = .none ∧ Wrote actor t c call (f a) v'.tables) :
    Leaves actor t c call
      ((answer plan (idealWrite actor (idealWork decision effect)) t c clock).map f) := by
  rcases answer_applied plan (wp_idealWrite actor c clock hdec hspeaks heffect) with
    h | ⟨hr, hc, v', ⟨go, v₁, hgo, hpost, rfl⟩, hi, ht, -⟩
  · exact .inl h
  obtain ⟨hissue, hw⟩ := hwrote _ _ _ _ hgo.decided hpost
  refine .inr ⟨hr, hc, hi.trans hissue, ?_⟩
  rw [show v₁.tables = _ from ht.symm] at hw
  exact hw

theorem leaves_mkdir (i : MkdirInput) :
    Leaves actor t c (.mkdir i) ((WriteCall.mkdir i).answer actor t c clock) := by
  refine leaves_applied actor t c clock mkdirPlan
    (show mkdirDecision actor i t = .ofExcept (mkdirVerdict actor.userId i.parentId i.name t) from rfl)
    (mkdirVerdict_speaks _ _) (fun _ now v => wp_mkdirEffect actor i now v) fun _ now a v' hd h => ?_
  obtain ⟨r, rfl, hm⟩ := h
  rw [hm.view]
  exact ⟨rfl, .mkdir i now r.1 r.2 hm.node.1 hm.audit.1 hm.node.2 hd⟩

theorem leaves_mkdirOnce (i : MkdirOnceInput) :
    Leaves actor t c (.mkdirOnce i) ((WriteCall.mkdirOnce i).answer actor t c clock) := by
  cases hrec : t.receipt actor.userId 1027 i.idempotencyKey.val with
  | some r =>
    refine .inl (answer_unapplied mkdirOncePlan actor (mkdirOnceEffect actor i) c clock fun d hd => ?_)
    unfold mkdirOnceDecision at hd
    rw [hrec] at hd
    dsimp only at hd
    split at hd <;> cases hd
  | none =>
    have hdec : mkdirOnceDecision actor i t = .ofExcept (mkdirVerdict actor.userId i.parentId i.name t) := by
      unfold mkdirOnceDecision
      rw [hrec]
    refine leaves_applied actor t c clock mkdirOncePlan hdec (mkdirVerdict_speaks _ _)
      (fun _ now v => wp_mkdirOnceEffect actor i now v) fun _ now a v' hd h => ?_
    obtain ⟨r, v₁, rfl, hm, hrc⟩ := h
    rw [hrc.view, hm.view]
    exact ⟨rfl, .mkdirOnce i now r.1 r.2 hm.node.1 hm.audit.1 hm.node.2 hrec hd⟩

theorem leaves_move (i : MoveInput) :
    Leaves actor t c (.move i) ((WriteCall.move i).answer actor t c clock) := by
  refine leaves_applied actor t c clock movePlan (show moveDecision actor i t =
      .ofExcept (moveVerdictOf actor.userId i.nodeId i.newParentId i.name t) from rfl)
    (moveVerdictOf_speaks _ _ _) (fun d now v => wp_moveEffect actor i d now v) fun d now a v' hd h => ?_
  obtain ⟨audit, rfl, hm⟩ := h
  have hvalue : MoveValue.published ⟨some (movedValue i.newParentId i.name d now), audit, d.2⟩ =
      ⟨.none, d.1.id, audit, 0⟩ := by
    unfold MoveValue.published movedValue
    split <;> rfl
  rw [hm.view, hvalue]
  exact ⟨rfl, .move i d now audit hm.number.1 hd⟩

theorem leaves_moveOnce (i : MoveOnceInput) :
    Leaves actor t c (.moveOnce i) ((WriteCall.moveOnce i).answer actor t c clock) := by
  cases hrec : t.receipt actor.userId 1029 i.idempotencyKey.val with
  | some r =>
    refine .inl (answer_unapplied moveOncePlan actor (moveOnceEffect actor i) c clock fun d hd => ?_)
    unfold moveOnceDecision at hd
    rw [hrec] at hd
    dsimp only at hd
    split at hd <;> cases hd
  | none =>
    have hdec : moveOnceDecision actor i t =
        .ofExcept (moveVerdictOf actor.userId i.nodeId i.newParentId i.name t) := by
      unfold moveOnceDecision
      rw [hrec]
    refine leaves_applied actor t c clock moveOncePlan hdec (moveVerdictOf_speaks _ _ _)
      (fun d now v => wp_moveOnceEffect actor i d now v) fun d now a v' hd h => ?_
    obtain ⟨audit, v₁, rfl, hm, hrc⟩ := h
    rw [hrc.view, hm.view]
    exact ⟨rfl, .moveOnce i d now audit hm.number.1 hrec hd⟩

theorem leaves_softDelete (i : SoftDeleteInput) :
    Leaves actor t c (.softDelete i) ((WriteCall.softDelete i).answer actor t c clock) := by
  refine leaves_applied actor t c clock softDeletePlan
    (show softDeleteDecision actor i t = .ofExcept (deleteVerdictOf actor.userId i.nodeId t) from rfl)
    (deleteVerdictOf_speaks _) (fun d now v => wp_softDeleteEffect actor i d now v) fun d now a v' hd h => ?_
  obtain ⟨audit, rfl, hm⟩ := h
  rw [hm.view]
  exact ⟨rfl, .softDelete i d now audit hm.number.1 hd⟩

theorem leaves_softDeleteOnce (i : RemoveOnceInput) :
    Leaves actor t c (.softDeleteOnce i) ((WriteCall.softDeleteOnce i).answer actor t c clock) := by
  cases hrec : t.removal actor.userId i.idempotencyKey.val with
  | some r =>
    refine .inl (answer_unapplied softDeleteOncePlan actor (softDeleteOnceEffect actor i) c clock
      fun d hd => ?_)
    unfold softDeleteOnceDecision at hd
    rw [hrec] at hd
    dsimp only at hd
    split at hd <;> cases hd
  | none =>
    have hdec : softDeleteOnceDecision actor i t = .ofExcept (deleteVerdictOf actor.userId i.nodeId t) := by
      unfold softDeleteOnceDecision
      rw [hrec]
    refine leaves_applied actor t c clock softDeleteOncePlan hdec (deleteVerdictOf_speaks _)
      (fun d now v => wp_softDeleteOnceEffect actor i d now v) fun d now a v' hd h => ?_
    obtain ⟨audit, v₁, rfl, hm, hrc⟩ := h
    rw [hrc.view, hm.view]
    exact ⟨rfl, .softDeleteOnce i d now audit hm.number.1 hrec hd⟩

/-- **Every answer leaves the tables alone or commits one of the six changes.** -/
theorem reply_leaves (call : WriteCall) (timeout : UInt32) (pending : Bool) :
    Leaves actor t c call (call.reply actor timeout pending t c clock) := by
  unfold WriteCall.reply
  split
  · exact .inl ⟨rfl, rfl⟩
  split
  · cases call with
    | mkdir i => exact leaves_mkdir actor t c clock i
    | mkdirOnce i => exact leaves_mkdirOnce actor t c clock i
    | move i => exact leaves_move actor t c clock i
    | moveOnce i => exact leaves_moveOnce actor t c clock i
    | softDelete i => exact leaves_softDelete actor t c clock i
    | softDeleteOnce i => exact leaves_softDeleteOnce actor t c clock i
  · exact .inl ⟨rfl, rfl⟩

end Answers

/-- **What a write call leaves of the database, whatever fails**: what was there, or one of the six changes.
    -/
theorem write_leaves {t : Tables} {c : Counters} (hs : Schema t) (hb : Below t c) (call : WriteCall)
    (actor : Actor) (timeout : UInt32) (repo : Repo) (clock : Nat → Sampled)
    (faults : Nat → Option Fault) :
    let o := call.run dbOps actor timeout repo (.fresh t c clock faults)
    (o.world.committed = t ∧ o.report.commit ≠ .committed) ∨
      ∃ p, Wrote actor t c call p o.world.committed ∧ (o.report.commit = .committed → o.report.value = p) := by
  intro o
  have h := write_answered hs hb call actor timeout repo clock faults
  rcases reply_leaves actor t c clock call timeout repo.pending with ⟨hc, -⟩ | ⟨-, -, -, hw⟩
  · have hnot : o.report.commit ≠ .committed := fun hcom => by
      have := (h.told hcom).1
      rw [hc] at this
      cases this
    refine .inl ⟨?_, hnot⟩
    rcases h.effect with he | ⟨hcom, -⟩
    · exact he
    · rw [hc] at hcom
      cases hcom
  · by_cases hcom : o.report.commit = .committed
    · obtain ⟨-, he, hv⟩ := h.told hcom
      exact .inr ⟨_, he ▸ hw, fun _ => hv⟩
    · rcases h.effect with he | ⟨-, he⟩
      · exact .inl ⟨he, hcom⟩
      · exact .inr ⟨_, he ▸ hw, fun e => absurd e hcom⟩

end Vireo.Persistence.Node
