/-
  File:      Vireo/Persistence/Node/Depth.lean
  Subject:   HOW DEEP A DIRECTORY MAY LIE TO BE DELETED.

  Making a directory does not count the chain above it, and moving one not the subtree below; a deletion
  counts the chain above.
-/
import Vireo.Persistence.Node.Chain
import Vireo.Persistence.Node.Once

namespace Vireo.Persistence.Node

open Lib Prog

/-! ## 1. Directories only -/

/-- A call that makes or moves a directory. -/
def WriteCall.Builds : WriteCall → Prop
  | .mkdir _ | .mkdirOnce _ | .move _ | .moveOnce _ => True
  | _ => False

/-- What comes of registered users by committed calls that make and move directories, with any ids not given
    out. -/
inductive Grown : Tables → Prop
  | registered {t : Tables} (schema : Schema t) (roots : ∀ r ∈ t.nodes, r.parentId = none) : Grown t
  | call {t : Tables} {c : Counters} (h : Grown t) (below : Below t c) (m : Made) (builds : m.call.Builds)
      (committed : (Database.outcome ⟨t, c⟩ m).report.commit = .committed) : Grown (Database.after ⟨t, c⟩ m).tables

theorem grown_after {d : Database} {m : Made} (h : Grown d.tables) (hb : Below d.tables d.counters)
    (hm : m.call.Builds) (hc : (d.outcome m).report.commit = .committed) : Grown (d.after m).tables :=
  .call h hb m hm hc

/-- Active directories only, each of which leads to a root. -/
structure Grove (t : Tables) : Prop where
  schema : Schema t
  active : ∀ r ∈ t.nodes, r.nodeType = 1 ∧ r.state = 2
  rooted : ∀ r ∈ t.nodes, Rooted t r.ownerId r.id

section Groves

variable {t t' : Tables} {owner o id x : UInt64}

theorem nodeAt_mem (hs : Schema t) {r : NodeRow} (hr : r ∈ t.nodes) (hstate : r.state = 2) :
    nodeAt t r.ownerId r.id = some (valueOf r) := by
  have hfind : t.activeNode r.ownerId r.id = some r := by
    cases h : t.activeNode r.ownerId r.id with
    | none => exact absurd (decide_eq_true ⟨rfl, rfl, hstate⟩) (List.find?_eq_none.mp h r hr)
    | some q =>
      obtain ⟨hq, -, hid, -⟩ := Tables.mem_of_activeNode h
      rw [hs.keys.nodeId.eq hq hr (congrArg some hid) rfl]
  exact congrArg (Option.map valueOf) hfind

theorem Grove.row (h : Grove t) {v : Value} (hat : nodeAt t owner id = some v) :
    ∃ r ∈ t.nodes, r.ownerId = owner ∧ r.id = id ∧ valueOf r = v ∧ v.kind = .directory := by
  obtain ⟨r, hr, rfl⟩ := Option.map_eq_some_iff.mp hat
  obtain ⟨hmem, ho, hi, -⟩ := Tables.mem_of_activeNode hr
  exact ⟨r, hmem, ho, hi, rfl, if_pos (h.active r hmem).1⟩

theorem Grove.rootedAt (h : Grove t) (hdir : isDirectory (nodeAt t owner id) = true) : Rooted t owner id := by
  cases hat : nodeAt t owner id with
  | none =>
    rw [hat] at hdir
    cases hdir
  | some v =>
    obtain ⟨r, hr, rfl, rfl, -⟩ := h.row hat
    exact h.rooted r hr

theorem liveChild_none (h : ∀ r ∈ t.nodes, r.parentId ≠ some x) : t.liveChild owner x = none := by
  unfold Tables.liveChild Tables.liveChildren
  rw [List.filter_eq_nil_iff.mpr fun r hr hsel => h r hr (of_decide_eq_true hsel).2.1, List.mergeSort_nil]
  rfl

/-- A chain stays when the nodes stay that are not moved, and what is moved leads to a root. -/
theorem Rooted.relink (moved : UInt64 → Prop) (h : Rooted t o x)
    (hkeep : ∀ x v, ¬ moved x → nodeAt t o x = some v → nodeAt t' o x = some v)
    (hmoved : ∀ k s, Node.entry t o k x = some s → moved s → Rooted t' o s) : Rooted t' o x := by
  induction h with
  | @root x v hat hdir htop =>
    by_cases hx : moved x
    · exact hmoved 0 x rfl hx
    · exact .root (hkeep x v hx hat) hdir htop
  | @child x p v hat hdir hunder _ ih =>
    by_cases hx : moved x
    · exact hmoved 0 x rfl hx
    · refine .child (hkeep x v hx hat) hdir hunder (ih fun k s hk hs => hmoved (k + 1) s ?_ hs)
      exact (entry_succ (up_eq_some.mpr ⟨v, hat, hdir, hunder⟩) k).trans hk

theorem Grove.put (h : Grove t) (hs : Schema t') (new : NodeRow) {p : UInt64}
    (hactive : new.nodeType = 1 ∧ new.state = 2) (hparent : new.parentId = some p)
    (hnodes : ∀ r, r ∈ t'.nodes ↔ r = new ∨ r ∈ t.nodes ∧ ¬ (r.ownerId = new.ownerId ∧ r.id = new.id))
    (hp : Rooted t new.ownerId p) (hout : ∀ k, entry t new.ownerId k p ≠ some new.id) : Grove t' := by
  have hkeep : ∀ o x v, ¬ (o = new.ownerId ∧ x = new.id) → nodeAt t o x = some v → nodeAt t' o x = some v := by
    intro o x v hx hat
    obtain ⟨r, hr, rfl, rfl, rfl, -⟩ := h.row hat
    exact nodeAt_mem hs ((hnodes r).mpr (.inr ⟨hr, hx⟩)) (h.active r hr).2
  have hnew : Rooted t' new.ownerId new.id := by
    refine .child (nodeAt_mem hs ((hnodes new).mpr (.inl rfl)) hactive.2) (if_pos hactive.1) hparent ?_
    exact hp.relink (fun x => new.ownerId = new.ownerId ∧ x = new.id) (hkeep _) fun k s hk hm =>
      absurd (hm.2 ▸ hk) (hout k)
  refine ⟨hs, fun r hr => ?_, fun r hr => ?_⟩
  · rcases (hnodes r).mp hr with rfl | ⟨hr, -⟩
    · exact hactive
    · exact h.active r hr
  · rcases (hnodes r).mp hr with rfl | ⟨hr, -⟩
    · exact hnew
    · refine (h.rooted r hr).relink (fun x => r.ownerId = new.ownerId ∧ x = new.id) (hkeep _) ?_
      rintro k s - ⟨ho, rfl⟩
      exact ho ▸ hnew

theorem Grove.made (h : Grove t) {c : Counters} (hb : Below t c) (hs : Schema t') {parent now : UInt64}
    {name : Bytes} (hid : id.toNat = c.nodes) (hdir : isDirectory (nodeAt t owner parent) = true)
    (hnodes : t'.nodes = t.nodes ++ [directoryRow owner parent name now id]) : Grove t' := by
  have hfresh : ∀ r ∈ t.nodes, r.id ≠ id := fun r hr e => absurd (hb.nodes r hr) (by rw [e]; omega)
  refine h.put hs (directoryRow owner parent name now id) ⟨rfl, rfl⟩ rfl (fun r => ?_)
    (h.rootedAt hdir) fun k hk => ?_
  · rw [hnodes, List.mem_append, List.mem_singleton, or_comm]
    exact or_congr_right (and_iff_left_of_imp fun hr hsame => hfresh r hr hsame.2).symm
  · cases (h.rootedAt hdir).entry hk with
    | root hat | child hat =>
      obtain ⟨r, hr, -, hid, -⟩ := h.row hat
      exact hfresh r hr hid

theorem Grove.move (h : Grove t) (hs : Schema t') {node parent updated : UInt64} {name : Bytes}
    {d : Value × Bool} (hm : MoveAllowed owner node parent name t d)
    (hnodes : t'.nodes = if d.2 then movedNodes owner node parent name updated t.nodes else t.nodes) :
    Grove t' := by
  cases hd : d.2 with
  | false =>
    rw [hd, if_neg Bool.false_ne_true] at hnodes
    refine ⟨hs, hnodes ▸ h.active, fun r hr => ?_⟩
    rw [hnodes] at hr
    refine (h.rooted r hr).relink (fun _ => False) (fun x v _ hat => ?_) nofun
    obtain ⟨q, hq, ho, rfl, rfl, -⟩ := h.row hat
    exact ho ▸ nodeAt_mem hs (hnodes ▸ hq) (h.active q hq).2
  | true =>
    rw [hd, if_pos rfl] at hnodes
    obtain ⟨q, hq, rfl, rfl, -, hdir⟩ := h.row hm.source
    refine h.put hs (q.moved parent name updated) (h.active q hq) rfl (fun r => ?_)
      (h.rootedAt hm.target) (hm.outside hdir)
    rw [hnodes, movedNodes, mem_updateWhere]
    constructor
    · rintro ⟨a, ha, rfl⟩
      split
      · rename_i hsel
        rw [h.schema.keys.nodeId.eq ha hq (congrArg some (of_decide_eq_true hsel).2.1) rfl]
        exact .inl rfl
      · rename_i hsel
        exact .inr ⟨ha, fun e => hsel (decide_eq_true ⟨e.1, e.2, (h.active a ha).2⟩)⟩
    · rintro (rfl | ⟨hr, hne⟩)
      · exact ⟨q, hq, if_pos (decide_eq_true ⟨rfl, rfl, (h.active q hq).2⟩)⟩
      · exact ⟨r, hr, if_neg fun hsel => hne ⟨(of_decide_eq_true hsel).1, (of_decide_eq_true hsel).2.1⟩⟩

theorem Wrote.grove {actor : Actor} {c : Counters} {call : WriteCall} {p : Published}
    (hw : Wrote actor t c call p t') (hbuilds : call.Builds) (h : Grove t) (hb : Below t c) (hs : Schema t') :
    Grove t' := by
  cases hw with
  | mkdir i now id _ _ _ hnode verdict => exact h.made hb hs hnode (mkdirVerdict_ok verdict) rfl
  | mkdirOnce i now id _ _ _ hnode _ verdict => exact h.made hb hs hnode (mkdirVerdict_ok verdict) rfl
  | move i d now _ _ verdict => exact h.move hs (moveVerdictOf_ok verdict) rfl
  | moveOnce i d now _ _ _ verdict => exact h.move hs (moveVerdictOf_ok verdict) rfl
  | _ => exact hbuilds.elim

theorem Grown.grove (h : Grown t) : Grove t := by
  induction h with
  | @registered t schema roots =>
    have hactive : ∀ r ∈ t.nodes, r.nodeType = 1 ∧ r.state = 2 := fun r hr => by
      rcases (schema.checks.nodes r hr).location with ⟨-, -, h⟩ | ⟨hne, -⟩
      · exact h
      · exact absurd (roots r hr) hne
    exact ⟨schema, hactive, fun r hr => .root (nodeAt_mem schema hr (hactive r hr).2)
      (if_pos (hactive r hr).1) (roots r hr)⟩
  | @call t c _ below m builds committed ih =>
    have hsound : Database.Sound ⟨t, c⟩ := ⟨ih.schema, below⟩
    rcases after_leaves hsound m with ⟨-, hnot⟩ | ⟨p, hwrote, -⟩
    · exact absurd committed hnot
    · exact hwrote.grove builds ih below (hsound.after m).schema

end Groves

/-! ## 2. What the server accepts -/

/-- The server has a number for the audit row of a deletion, and none of the request yet. -/
structure AuditFree (t : Tables) (c : Counters) (request : Key) : Prop where
  number : 0 < c.audits ∧ c.audits < 2 ^ 64
  fresh : ∀ r ∈ t.audits, ¬ (r.requestId = request.val ∧ r.action = 7)

/-- The server accepts the statements of a deletion. -/
def WriteCall.Accepted (t : Tables) (c : Counters) : WriteCall → Prop
  | .softDelete i => AuditFree t c i.requestId
  | .softDeleteOnce i => AuditFree t c i.requestId
  | _ => False

/-- The node is deleted: its row says so, nobody finds it, and no other row changed. -/
structure Gone (user id : UInt64) (t t' : Tables) : Prop where
  row : ∃ r ∈ t'.nodes, r.ownerId = user ∧ r.id = id ∧ r.state = 3 ∧ r.deletedAtMs ≠ none
  absent : nodeAt t' user id = none
  others : ∀ r, ¬ (r.ownerId = user ∧ r.id = id) → (r ∈ t'.nodes ↔ r ∈ t.nodes)

section Accepted

variable {t t' : Tables} {user id time : UInt64} {v : Value} {actor : Actor} {request : Key}

theorem schema_withAudit {r : AuditRow} (h : Schema t) (hv : r.Valid) (hid : ∀ q ∈ t.audits, q.id ≠ r.id)
    (hkey : ∀ q ∈ t.audits, ¬ (q.requestId = r.requestId ∧ q.action = r.action)) : Schema { t with audits := t.audits ++ [r] } where
  checks :=
    { h.checks with
      audits := List.forall_mem_append.mpr ⟨h.checks.audits, List.forall_mem_singleton.mpr hv⟩ }
  keys :=
    { h.keys with
      auditId := h.keys.auditId.append fun a ha _ hk he => hid a ha (Option.some.inj (he.trans hk.symm))
      requestAction := h.keys.requestAction.append fun a ha _ hk he =>
        hkey a ha (Prod.mk.inj (Option.some.inj (he.trans hk.symm))) }
  references := { h.references with }

theorem Grove.gone (h : Grove t) (hat : nodeAt t user id = some v)
    (hnodes : t'.nodes = deletedNodes user id time t.nodes) : Gone user id t t' := by
  obtain ⟨r, hr, rfl, rfl, -⟩ := h.row hat
  have hstate := (h.active r hr).2
  refine ⟨⟨r.deleted time time, ?_, rfl, rfl, rfl, Option.some_ne_none _⟩, ?_, fun q hq => ?_⟩
  · rw [hnodes, deletedNodes, mem_updateWhere]
    exact ⟨r, hr, if_pos (decide_eq_true ⟨rfl, rfl, hstate⟩)⟩
  · refine Option.map_eq_none_iff.mpr (List.find?_eq_none.mpr fun b hb hsel => ?_)
    rw [hnodes] at hb
    obtain ⟨a, -, rfl⟩ := mem_updateWhere.mp hb
    split at hsel
    · exact absurd (of_decide_eq_true hsel).2.2 (by simp [NodeRow.deleted])
    · rename_i hnot
      exact hnot hsel
  · rw [hnodes, deletedNodes, mem_updateWhere]
    constructor
    · rintro ⟨a, ha, rfl⟩
      split at hq
      · rename_i hsel
        exact absurd ⟨(of_decide_eq_true hsel).1, (of_decide_eq_true hsel).2.1⟩ hq
      · rwa [if_neg ‹_›]
    · exact fun hmem => ⟨q, hmem, if_neg fun hsel => hq ⟨(of_decide_eq_true hsel).1, (of_decide_eq_true hsel).2.1⟩⟩

/-- A node that is not a root may be deleted at any time after it was made. -/
theorem schema_deleted (h : Schema t)
    (hrow : ∀ r ∈ t.nodes, isActive user id r = true → r.parentId ≠ none ∧ r.createdAtMs ≤ time) :
    Schema { t with nodes := deletedNodes user id time t.nodes } where
  checks :=
    { h.checks with
      nodes := fun b hb => by
        obtain ⟨a, ha, rfl⟩ := mem_updateWhere.mp hb
        have hv := h.checks.nodes a ha
        split
        · rename_i hsel
          obtain ⟨hparent, hmade⟩ := hrow a ha hsel
          exact { hv with
            state := .inr (.inr rfl)
            location := .inr (hv.location.resolve_left fun hroot => hparent hroot.1)
            payload := hv.payload.imp (fun h => ⟨h.1, .inr rfl, h.2.2⟩) fun h => ⟨h.1, .inr (.inl rfl)⟩
            updated := hmade
            deletion := .inr ⟨rfl, time, rfl, hmade, UInt64.le_refl _⟩ }
        · exact hv }
  keys :=
    { h.keys with
      nodeId := h.keys.nodeId.updateWhere fun _ _ _ => .inl rfl
      liveName := h.keys.liveName.updateWhere fun a _ _ => .inr (by
        cases hp : a.parentId <;> simp [NodeRow.nameKey, NodeRow.liveName, NodeRow.Live, NodeRow.deleted, hp])
      activeRoot := h.keys.activeRoot.updateWhere fun _ _ _ => .inr (by
        simp [NodeRow.activeRootOwner, NodeRow.deleted]) }
  references := by
    have hfrom : ∀ b ∈ deletedNodes user id time t.nodes, ∃ a ∈ t.nodes, b.id = a.id ∧ b.ownerId = a.ownerId ∧
        b.parentId = a.parentId ∧ b.objectHash = a.objectHash := by
      intro b hb
      obtain ⟨a, ha, rfl⟩ := mem_updateWhere.mp hb
      refine ⟨a, ha, ?_⟩
      split <;> exact ⟨rfl, rfl, rfl, rfl⟩
    refine ⟨h.references.session, fun b hb => ?_, fun b hb p hp => ?_, fun b hb => ?_⟩
    · obtain ⟨a, ha, -, ho, -⟩ := hfrom b hb
      exact ho ▸ h.references.owner a ha
    · obtain ⟨a, ha, -, ho, hparent, -⟩ := hfrom b hb
      obtain ⟨q, hq, hqo, hqi⟩ := h.references.parent a ha p (hparent ▸ hp)
      refine ⟨_, mem_updateWhere.mpr ⟨q, hq, rfl⟩, ?_⟩
      rw [ho, ← hqo, ← hqi]
      split <;> exact ⟨rfl, rfl⟩
    · obtain ⟨a, ha, -, -, -, hh⟩ := hfrom b hb
      exact hh ▸ h.references.object a ha

theorem Grove.accepted (h : Grove t) {c : Counters} (hb : Below t c) (hat : nodeAt t actor.userId id = some v)
    (hparent : v.parent ≠ none) (hactor : ¬ actor.Missing) (hrequest : ¬ request.Zero)
    (haudit : AuditFree t c request) (o : ObjectRead) (now : UInt64) (clock : Nat → Sampled) :
    ∃ audit v', audit ≠ 0 ∧ idealDelete actor request (v, o) now (View.going t c clock) = (.ok audit, v') ∧
      Schema v'.tables ∧ v'.tables.removals = t.removals := by
  obtain ⟨r, hr, ho, rfl, rfl, hdir⟩ := h.row hat
  have hsel : isActive actor.userId r.id r = true := decide_eq_true ⟨ho, rfl, (h.active r hr).2⟩
  have hid : ∀ b ∈ t.nodes, isActive actor.userId r.id b = true → some b.id = some r.id :=
    fun b _ hb => congrArg some (of_decide_eq_true hb).2.1
  let time := clamp now r.updatedAtMs
  have hlater : r.updatedAtMs ≤ time := by
    show r.updatedAtMs ≤ if now > r.updatedAtMs then now else r.updatedAtMs
    split
    · exact UInt64.le_of_lt ‹_›
    · exact UInt64.le_refl _
  let deleted : Tables := { t with nodes := deletedNodes actor.userId r.id time t.nodes }
  have hs : Schema deleted := by
    refine schema_deleted h.schema fun b hb hact => ?_
    obtain rfl := h.schema.keys.nodeId.eq hb hr (hid b hb hact) rfl
    exact ⟨hparent, UInt64.le_trans (h.schema.checks.nodes b hb).updated hlater⟩
  have hcount : changed (isActive actor.userId r.id) (.deleted time time) t.nodes = 1 := by
    refine h.schema.keys.nodeId.changed_eq_one hr hsel (fun he => ?_) hid
    have hstate := congrArg NodeRow.state he
    rw [(h.active r hr).2] at hstate
    exact absurd hstate (by simp [NodeRow.deleted])
  have hnumber : (UInt64.ofNat c.audits).toNat = c.audits := by
    rw [UInt64.toNat_ofNat', Nat.mod_eq_of_lt haudit.number.2]
  have hne : UInt64.ofNat c.audits ≠ 0 := fun hzero =>
    Nat.ne_of_gt haudit.number.1 (hnumber.symm.trans (congrArg UInt64.toNat hzero))
  let written : Tables := { deleted with
    audits := deleted.audits ++ [nodeAudit 7 request actor r.id now (UInt64.ofNat c.audits)] }
  have hs' : Schema written := by
    refine schema_withAudit hs ⟨hne, ⟨request.property, key_not_zeros hrequest⟩, ⟨?_, ?_⟩,
      (by decide : (7 : UInt64) ≠ 0), .inr (.inl ⟨.inr (.inr rfl), Option.some_ne_none _, fun e => ?_, rfl⟩)⟩
      (fun a ha e => ?_) haudit.fresh
    · rintro _ ⟨⟩
      exact fun e => hactor (.inl e)
    · rintro _ ⟨⟩
      exact ⟨fun e => hactor (.inr e), Option.some_ne_none _⟩
    · exact (h.schema.checks.nodes r hr).id (Option.some.inj e)
    · exact Nat.ne_of_lt (hb.audits a ha) ((congrArg UInt64.toNat e).trans hnumber)
  have hdelete : exec .deleteNode [.u64 time, .u64 time, .u64 actor.userId, .u64 r.id] t c =
      accept t deleted c 1 0 := by
    rw [← hcount]
    exact exec_deleteNode ..
  refine ⟨_, { View.going t c clock with tables := written, counters.audits := c.audits + 1 }, hne,
    (bind_ok (modified_accepted hs hdelete)).trans ?_, hs', rfl⟩
  rw [if_neg (by rw [hdir]; decide), pure_bind]
  refine inserted_accepted (v := { View.going t c clock with tables := deleted }) (exec_insertNodeAudit ..) haudit.number.2 hne ?_
  exact hs'

end Accepted

/-! ## 3. What is answered -/

/-- A session that lasts over both looks at the clock. -/
def Lasts (actor : Actor) (t : Tables) (clock : Nat → Sampled) : Prop :=
  ∃ win, admission actor t = .ok win ∧ ∀ k < 2, ∃ now, (clock k).millis = .ok now ∧ win.Contains now

/-- The node that a call deletes. -/
def WriteCall.deletes : WriteCall → Option UInt64
  | .softDelete i => some i.nodeId
  | .softDeleteOnce i => some i.nodeId
  | _ => none

/-- The key of a deletion, if it has one, was not used. -/
def WriteCall.Unspent (user : UInt64) (t : Tables) : WriteCall → Prop
  | .softDeleteOnce i => t.removal user i.idempotencyKey.val = none
  | _ => True

section Answers

variable {t : Tables} {c : Counters} {actor : Actor} {clock : Nat → Sampled} {owner id parent : UInt64} {v : Value}

theorem answer_ready {α δ : Type} [Inhabited α] (plan : Plan) {decision : Tables → Decision α δ}
    (effect : δ → UInt64 → Ideal Issue α) {P : α → View Issue → Prop} {E : Failure → View Issue → Prop}
    (h : Lasts actor t clock) {d : δ} (hd : decision t = .apply d)
    (he : ∀ now, wp (effect d now) (fun a v' => v'.clock = clock ∧ v'.ticks = 1 ∧ P a v') E (View.going t c clock)) :
    let a := answer plan (idealWrite actor (idealWork decision effect)) t c clock
    (a.result = .ok ∧ a.commit = .committed ∧ ∃ v', P a.value v' ∧ a.tables = v'.tables) ∨
      ∃ f v', E f v' ∧ a.result = f.val ∧ a.issue = classified plan.shapeStages f.val v' := by
  obtain ⟨win, hadm, hlasts⟩ := h
  obtain ⟨now, hnow, hin⟩ := hlasts 0 (by decide)
  obtain ⟨now', hnow', hin'⟩ := hlasts 1 (by decide)
  have hw := he now
  unfold wp at hw
  unfold answer
  rw [idealWrite_inside effect c hadm hnow hin hd]
  dsimp only
  rcases heff : effect d now (View.going t c clock) with ⟨e | a, v'⟩
  · rw [heff] at hw
    rw [bind_error heff]
    exact .inr ⟨e, v', hw, rfl, rfl⟩
  · rw [heff] at hw
    obtain ⟨hclock, hticks, hp⟩ := hw
    rw [bind_ok heff, clocked_ok (by rw [hclock, hticks]; exact hnow') hin']
    exact .inl ⟨rfl, rfl, v', hp, rfl⟩

/-- Only the length of its chain is in the way of an empty directory. -/
theorem Grove.deleteVerdict (h : Grove t) (hat : nodeAt t owner id = some v) (hp : v.parent = some parent)
    (hempty : t.liveChild owner id = none) :
    (entry t owner 256 parent ≠ none → deleteVerdictOf owner id t = .error ancestryLimit) ∧
    (entry t owner 256 parent = none → deleteVerdictOf owner id t = .ok (v, ⟨0, 0, 0, 0⟩)) := by
  obtain ⟨r, hr, rfl, rfl, rfl, hdir⟩ := h.row hat
  have hrooted : Rooted t r.ownerId parent := (h.rooted r hr).up (up_eq_some.mpr ⟨_, hat, hdir, hp⟩)
  have hfree : ¬ Meets t r.ownerId none ancestorCapacity parent := by
    rintro ⟨_, _, _, _, hf⟩
    cases hf
  obtain ⟨-, hlimit, hroot⟩ := @walk_sound t r.ownerId parent none ancestorCapacity hrooted.sound
  unfold deleteVerdictOf
  rw [hat]
  dsimp only
  rw [hp]
  dsimp only
  constructor
  · intro hdeep
    rw [hlimit.mpr ⟨hdeep, hfree⟩]
  · intro hshort
    rw [hroot.mpr ⟨hshort, hfree⟩]
    dsimp only
    rw [if_pos hdir, show (valueOf r).id = r.id from rfl, hempty]
    rfl

/-- What such a deletion comes to: with too long a chain nothing happens, and else the node is deleted when the
    server accepts the statements. -/
structure Removal (user id : UInt64) (t t' : Tables) (short accepted : Prop) (rc : Result) (commit : Commit)
    (issue : Issue) : Prop where
  deep : ¬ short → commit = .notCommitted ∧ issue = .ancestryLimit ∧ t' = t
  near : short → accepted → rc = .ok ∧ commit = .committed ∧ Gone user id t t'
  refused : short → rc ≠ .ok → ¬ accepted ∧ rc = .database ∧ (issue = .none ∨ issue = .unexpectedResult)

theorem Grove.removal {α : Type} [Inhabited α] (h : Grove t) (hat : nodeAt t actor.userId id = some v)
    (hp : v.parent = some parent) (hempty : t.liveChild actor.userId id = none) (hlasts : Lasts actor t clock)
    (plan : Plan) {decision : Tables → Decision α (Value × ObjectRead)}
    {effect : Value × ObjectRead → UInt64 → Ideal Issue α} {stages : List Stage} {accepted : Prop}
    (hd : decision t = .ofExcept (deleteVerdictOf actor.userId id t))
    (he : ∀ now, wp (effect (v, ⟨0, 0, 0, 0⟩) now) (fun _ v' => v'.clock = clock ∧ v'.ticks = 1 ∧
      ∃ time, v'.tables.nodes = deletedNodes actor.userId v.id time t.nodes)
      (Stumbled stages (View.going t c clock)) (View.going t c clock))
    (hok : accepted → ∀ now, ∃ a v', effect (v, ⟨0, 0, 0, 0⟩) now (View.going t c clock) = (.ok a, v')) :
    let a := answer plan (idealWrite actor (idealWork decision effect)) t c clock
    Removal actor.userId id t a.tables (entry t actor.userId 256 parent = none) accepted a.result a.commit a.issue := by
  obtain ⟨hdeep, hshort⟩ := h.deleteVerdict hat hp hempty
  have hnear : entry t actor.userId 256 parent = none →
      let a := answer plan (idealWrite actor (idealWork decision effect)) t c clock
      (a.result = .ok ∧ a.commit = .committed ∧ Gone actor.userId id t a.tables) ∨
        (¬ accepted ∧ a.result = .database ∧ (a.issue = .none ∨ a.issue = .unexpectedResult)) := by
    intro hnear
    rw [hshort hnear] at hd
    -- a write that is accepted does not stumble
    have hw : ∀ now, wp (effect (v, ⟨0, 0, 0, 0⟩) now) (fun _ v' => v'.clock = clock ∧ v'.ticks = 1 ∧
          ∃ time, v'.tables.nodes = deletedNodes actor.userId v.id time t.nodes)
        (fun f v' => ¬ accepted ∧ Stumbled stages (View.going t c clock) f v') (View.going t c clock) := by
      intro now
      by_cases ha : accepted
      · obtain ⟨a, v', hrun⟩ := hok ha now
        have hpost := he now
        unfold wp at hpost
        rw [hrun] at hpost
        exact wp_of_ok hrun hpost
      · exact wp_mono (he now) (fun _ _ h => h) fun _ _ h => ⟨ha, h⟩
    rcases answer_ready plan effect hlasts hd hw with
      ⟨hrc, hcommit, v', ⟨time, hnodes⟩, ht⟩ | ⟨f, v', ⟨ha, hs⟩, hrc, hissue⟩
    · rw [nodeAt_id hat, ← ht] at hnodes
      exact .inl ⟨hrc, hcommit, h.gone hat hnodes⟩
    · refine .inr ⟨ha, hrc.trans (congrArg Subtype.val hs.result), ?_⟩
      rw [hissue]
      unfold classified
      split
      · exact .inr rfl
      · exact .inl hs.issue
  constructor
  · intro hlong
    rw [hdeep hlong] at hd
    obtain ⟨win, hadm, hclock⟩ := hlasts
    obtain ⟨now, hnow, hin⟩ := hclock 0 (by decide)
    unfold answer
    rw [(idealWrite_admitted effect ⟨win, now, hadm, hnow, hin⟩).2 ancestryLimit hd]
    exact ⟨rfl, rfl, rfl⟩
  · exact fun hs ha => (hnear hs).resolve_right fun h => h.1 ha
  · exact fun hs hrc => (hnear hs).resolve_left fun h => hrc h.1

section

variable {m : Made} (hb : Below t c) (hgood : m.Succeeds ⟨t, c⟩) (hlasts : Lasts m.actor t m.clock)
  (hcall : m.call.deletes = some id) (hkey : m.call.Unspent m.actor.userId t)
  (hat : nodeAt t m.actor.userId id = some v) (hp : v.parent = some parent)
  (hempty : t.liveChild m.actor.userId id = none)
include hb hgood hlasts hcall hkey hat hp hempty

theorem Grove.removed (h : Grove t) :
    let o := Database.outcome ⟨t, c⟩ m
    Removal m.actor.userId id t (Database.after ⟨t, c⟩ m).tables (entry t m.actor.userId 256 parent = none)
      (m.call.Accepted t c) o.result o.report.commit o.report.issue := by
  obtain ⟨hresult, hcommit, hissue, -, htables⟩ := hgood.answered ⟨h.schema, hb⟩
  intro o
  rw [show o.result = _ from hresult, show o.report.commit = _ from hcommit, show o.report.issue = _ from hissue,
    htables]
  have hcheck := hgood.check
  have hparent : v.parent ≠ none := hp ▸ Option.some_ne_none parent
  generalize m.call = call at hcall hkey hcheck
  cases call with
  | softDelete i =>
    cases hcall
    obtain ⟨hin, -⟩ := if_refused (by decide) hcheck
    rw [not_or, not_or] at hin
    refine h.removal hat hp hempty hlasts softDeletePlan rfl (fun now =>
      wp_mono (wp_softDeleteEffect m.actor i _ now _) (fun _ _ ⟨_, _, hm⟩ => hm.view ▸ ⟨rfl, rfl, _, rfl⟩)
        fun _ _ h => h) fun ha now => ?_
    obtain ⟨audit, v', -, hrun, -⟩ := h.accepted hb hat hparent hin.1 hin.2.2 ha ⟨0, 0, 0, 0⟩ now m.clock
    exact ⟨_, _, bind_ok hrun⟩
  | softDeleteOnce i =>
    cases hcall
    obtain ⟨hin, -⟩ := if_refused (by decide) hcheck
    rw [not_or, not_or, not_or] at hin
    refine h.removal hat hp hempty hlasts softDeleteOncePlan ?_ (fun now =>
      wp_mono (wp_softDeleteOnceEffect m.actor i _ now _)
        (fun _ _ ⟨_, _, _, hm, hr⟩ => hr.view ▸ hm.view ▸ ⟨rfl, rfl, _, rfl⟩) fun _ _ h => h) fun ha now => ?_
    · unfold softDeleteOnceDecision
      rw [show t.removal m.actor.userId i.idempotencyKey.val = none from hkey]
    · obtain ⟨audit, v', haudit, hrun, hs, hremovals⟩ := h.accepted hb hat hparent hin.1 hin.2.2.1 ha ⟨0, 0, 0, 0⟩ now m.clock
      have hreceipt := schema_withRemoval hs
        (removalRow_valid hcheck (nodeAt_id hat) haudit (clamp now v.updatedAtMs)) fun a hmem =>
          removal_none.mp hkey a (hremovals ▸ hmem)
      exact ⟨_, _, (bind_ok hrun).trans (bind_ok (modified_accepted hreceipt (exec_insertRemoveReceipt ..)))⟩
  | _ => cases hcall

/-- **An empty directory is deleted when at most 256 lie above it** and the server accepts the statements, and
    refused with ANCESTRY_LIMIT when there are more. -/
theorem removable (h : Grown t) :
    let o := Database.outcome ⟨t, c⟩ m
    Removal m.actor.userId id t (Database.after ⟨t, c⟩ m).tables (entry t m.actor.userId 256 parent = none)
      (m.call.Accepted t c) o.result o.report.commit o.report.issue :=
  h.grove.removed hb hgood hlasts hcall hkey hat hp hempty

end

/-- The user of `oneUser` deletes his first directory, of which the root is all that lies above. -/
def firstRemoved : Made :=
  { firstMade with call := .softDelete ⟨2, ⟨[1, 1, 1, 1, 1, 1, 1, 1, 1, 1, 1, 1, 1, 1, 1, 1], rfl⟩⟩ }

theorem removable_first : ∃ t c, Grown t ∧ nodeAt t 1 2 ≠ none ∧
    let o := Database.outcome ⟨t, c⟩ firstRemoved
    o.result = .ok ∧ o.report.commit = .committed ∧ Gone 1 2 t (Database.after ⟨t, c⟩ firstRemoved).tables := by
  obtain ⟨-, hcommit, -, -, ht⟩ := succeeds_firstMade.answered sound_oneDatabase
  have hgrown := @grown_after _ firstMade (.registered sound_oneDatabase.schema (by decide)) sound_oneDatabase.below
    trivial (hcommit.trans (by decide +kernel))
  -- what the database is, is only looked at through the answer
  generalize (oneDatabase.after firstMade).tables = t at ht hgrown
  have hbelow : Below t ⟨2, 2, 3, 2⟩ := by
    rw [ht]
    exact ⟨by decide +kernel, by decide +kernel, by decide +kernel, by decide +kernel⟩
  have hfacts : admission ⟨1, 1⟩ t = .ok ⟨0, 1000⟩ ∧ t.activeNode 1 2 = some (directoryRow 1 1 [100] 5 2) ∧
      (∀ r ∈ t.nodes, r.parentId ≠ some 2) ∧ entry t 1 256 1 = none ∧ ∀ r ∈ t.audits, r.action ≠ 7 := by
    rw [ht]
    decide +kernel
  obtain ⟨hadm, hnode, hbare, hshort, hfresh⟩ := hfacts
  have hgood : firstRemoved.Succeeds ⟨t, ⟨2, 2, 3, 2⟩⟩ :=
    succeeds_calm rfl rfl (by decide) ⟨⟨0, 1000⟩, 5, hadm, by decide, by decide⟩
  have hlasts : Lasts ⟨1, 1⟩ t firstMade.clock :=
    ⟨⟨0, 1000⟩, hadm, fun _ _ => ⟨5, (by decide : (firstMade.clock 0).millis = .ok 5), by decide⟩⟩
  have hat : nodeAt t 1 2 = some _ := congrArg (Option.map valueOf) hnode
  have h := @removable t ⟨2, 2, 3, 2⟩ 2 1 _ firstRemoved hbelow hgood hlasts rfl trivial hat rfl
    (liveChild_none hbare) hgrown
  exact ⟨t, _, hgrown, hat.symm ▸ Option.some_ne_none _, h.near hshort ⟨by decide, fun r hr e => hfresh r hr e.2⟩⟩

end Answers

/-! ## 4. Digging -/

section Digging

variable {t : Tables} {n : Nat} {x : UInt64}

theorem schema_withNode {r : NodeRow} (h : Schema t) (hv : r.Valid) (hid : ∀ q ∈ t.nodes, q.id ≠ r.id)
    (hname : ∀ q ∈ t.nodes, q.nameKey ≠ r.nameKey) (hroot : r.activeRootOwner = none)
    (howner : ∃ u ∈ t.users, u.id = r.ownerId)
    (hparent : ∀ p ∈ r.parentId, ∃ q ∈ t.nodes, q.ownerId = r.ownerId ∧ q.id = p) (hobject : r.objectHash = none) :
    Schema { t with nodes := t.nodes ++ [r] } where
  checks :=
    { h.checks with
      nodes := List.forall_mem_append.mpr ⟨h.checks.nodes, List.forall_mem_singleton.mpr hv⟩ }
  keys :=
    { h.keys with
      nodeId := h.keys.nodeId.append fun a ha _ hk he => hid a ha (Option.some.inj (he.trans hk.symm))
      liveName := h.keys.liveName.append fun a ha _ hk he => hname a ha (he.trans hk.symm)
      activeRoot := h.keys.activeRoot.append fun _ _ _ hk => nomatch hroot.symm.trans hk }
  references := by
    have hkeep : ∀ o p, (∃ q ∈ t.nodes, q.ownerId = o ∧ q.id = p) → ∃ q ∈ t.nodes ++ [r], q.ownerId = o ∧ q.id = p :=
      fun o p ⟨q, hq, hs⟩ => ⟨q, List.mem_append_left _ hq, hs⟩
    refine ⟨h.references.session, ?_, ?_, ?_⟩
    · exact List.forall_mem_append.mpr ⟨h.references.owner, List.forall_mem_singleton.mpr howner⟩
    · exact List.forall_mem_append.mpr ⟨fun q hq p hp => hkeep _ _ (h.references.parent q hq p hp),
        List.forall_mem_singleton.mpr fun p hp => hkeep _ _ (hparent p hp)⟩
    · refine List.forall_mem_append.mpr ⟨h.references.object, List.forall_mem_singleton.mpr fun _ hh => ?_⟩
      rw [hobject] at hh
      cases hh

/-- The requests of a user who makes directories one below the other. -/
def digRequest (n : Nat) : Key := ⟨UInt8.ofNat (n / 256) :: UInt8.ofNat n :: List.replicate 14 1, rfl⟩

def digClock : Nat → Sampled := fun _ => ⟨0, ⟨0, 5000000⟩⟩

theorem digRequest_inj {m : Nat} (hm : m < 300) (hn : n < 300) (h : (digRequest m).val = (digRequest n).val) :
    m = n := by
  simp only [digRequest, List.cons.injEq, and_true, ← UInt8.toNat_inj, UInt8.toNat_ofNat'] at h
  omega

/-- `x` lies below `n` directories that `oneUser` made. -/
structure Dug (n : Nat) (t : Tables) (x : UInt64) : Prop where
  grown : Grown t
  actors : t.users = oneUser.users ∧ t.sessions = oneUser.sessions
  below : Below t ⟨2, 2, n + 2, n + 1⟩
  requests : ∀ r ∈ t.audits, ∃ k < n, r.requestId = (digRequest k).val
  deep : entry t 1 n x ≠ none
  directory : isDirectory (nodeAt t 1 x) = true
  bare : ∀ r ∈ t.nodes, r.parentId ≠ some x

theorem Dug.lasts (h : Dug n t x) : Lasts ⟨1, 1⟩ t digClock := by
  refine ⟨⟨0, 1000⟩, ?_, fun _ _ => ⟨5, by rw [digClock]; decide, by decide⟩⟩
  unfold admission Tables.user Tables.session
  rw [h.actors.1, h.actors.2]
  rfl

theorem Dug.row (h : Dug n t x) : ∃ q ∈ t.nodes, q.ownerId = 1 ∧ q.id = x := by
  cases h.grown.grove.rootedAt h.directory with
  | root hat | child hat =>
    obtain ⟨q, hq, ho, hx, -⟩ := h.grown.grove.row hat
    exact ⟨q, hq, ho, hx⟩

theorem digRequest_not_zero (n : Nat) : ¬ (digRequest n).Zero := fun h =>
  absurd (h 1 (by simp [digRequest])) (by decide)

theorem Dug.succeeds (h : Dug n t x) (call : WriteCall) (hcheck : call.check ⟨1, 1⟩ 100 = .ok) :
    Made.Succeeds ⟨⟨1, 1⟩, call, 100, {}, digClock, fun _ => none⟩ ⟨t, ⟨2, 2, n + 2, n + 1⟩⟩ := by
  obtain ⟨win, hadm, hclock⟩ := h.lasts
  obtain ⟨now, hnow, hin⟩ := hclock 0 (by decide)
  exact succeeds_calm rfl rfl hcheck ⟨win, now, hadm, hnow, hin⟩

theorem Dug.dig (h : Dug n t x) (hn : n < 300) : ∃ t' x', Dug (n + 1) t' x' := by
  have hgrove := h.grown.grove
  have hs : Schema t := hgrove.schema
  let id := UInt64.ofNat (n + 2)
  let audit := UInt64.ofNat (n + 1)
  have hid : id.toNat = n + 2 := by
    rw [UInt64.toNat_ofNat']
    omega
  have haudit : audit.toNat = n + 1 := by
    rw [UInt64.toNat_ofNat']
    omega
  have hne : ∀ {a : UInt64} {k : Nat}, a.toNat = k + 1 → a ≠ 0 := by
    rintro a k ha rfl
    cases ha
  obtain ⟨q, hq, ho, hx⟩ := h.row
  have hx0 : x ≠ 0 := hx ▸ (hs.checks.nodes q hq).id
  have hfree : ∀ r ∈ t.nodes, r.nameKey ≠ some (1, x, [100]) := fun r hr he =>
    h.bare r hr (NodeRow.nameKey_eq_some.mp he).2.1
  have hname : 1 ≤ [100].length ∧ [100].length ≤ 255 ∧ ValidName [100] := by decide
  have hfresh : ∀ r ∈ t.nodes, r.id ≠ id := fun r hr e => by
    have hlt := h.below.nodes r hr
    rw [e, hid] at hlt
    exact Nat.lt_irrefl _ hlt
  have hnodes : ∀ now, Schema { t with nodes := t.nodes ++ [directoryRow 1 x [100] now id] } := fun now => by
    refine schema_withNode hs ⟨hne hid, .inl rfl, .inr (.inl rfl), nofun, .inr ⟨nofun, hname⟩,
      .inl ⟨rfl, .inl rfl, rfl, rfl⟩, UInt64.le_refl _, .inl ⟨.inr rfl, rfl⟩⟩ hfresh hfree rfl ?_
      (fun p hp => ⟨q, hq, ho, hx.trans (Option.some.inj hp)⟩) rfl
    rw [h.actors.1]
    exact ⟨_, List.mem_singleton_self _, rfl⟩
  have htables : ∀ now, Schema (mkdirTables ⟨1, 1⟩ x [100] (digRequest n) now id audit t) := fun now => by
    refine schema_withAudit (hnodes now) ⟨hne haudit, ⟨rfl, ?_⟩, ⟨?_, ?_⟩, ?_, .inr (.inl ⟨.inr (.inr rfl), nofun,
      fun e => hne hid (Option.some.inj e), rfl⟩)⟩ (fun r hr e => ?_) fun r hr e => ?_
    · exact key_not_zeros (digRequest_not_zero n)
    · rintro _ ⟨⟩
      decide
    · rintro _ ⟨⟩
      exact ⟨by decide, nofun⟩
    · exact (by decide : (5 : UInt64) ≠ 0)
    · have hlt := h.below.audits r hr
      rw [e, show (nodeAudit 5 (digRequest n) ⟨1, 1⟩ id now audit).id = audit from rfl, haudit] at hlt
      exact Nat.lt_irrefl _ hlt
    · obtain ⟨k, hk, hrequest⟩ := h.requests r hr
      exact absurd (digRequest_inj (hk.trans hn) hn (hrequest.symm.trans e.1)) (Nat.ne_of_lt hk)
  let m : Made := ⟨⟨1, 1⟩, .mkdir ⟨x, [100], digRequest n⟩, 100, {}, digClock, fun _ => none⟩
  have hsound : Database.Sound ⟨t, ⟨2, 2, n + 2, n + 1⟩⟩ := ⟨hs, h.below⟩
  have hgood : m.Succeeds ⟨t, ⟨2, 2, n + 2, n + 1⟩⟩ :=
    h.succeeds _ (if_neg (not_or.mpr ⟨(by decide : ¬ Actor.Missing ⟨1, 1⟩), not_or.mpr ⟨hx0, digRequest_not_zero n⟩⟩))
  have hverdict : mkdirVerdict 1 x [100] t = .ok () := by
    unfold mkdirVerdict Tables.occupant
    rw [if_neg (by rw [h.directory]; decide), List.find?_eq_none.mpr fun r hr => by simpa using hfree r hr]
    rfl
  obtain ⟨-, hcommit, -, -, hafter⟩ := hgood.answered hsound
  have hdecision : mkdirDecision ⟨1, 1⟩ ⟨x, [100], digRequest n⟩ t = .apply () := congrArg Decision.ofExcept hverdict
  have hanswer := answer_ready (c := ⟨2, 2, n + 2, n + 1⟩) mkdirPlan (mkdirEffect ⟨1, 1⟩ ⟨x, [100], digRequest n⟩)
    h.lasts hdecision (E := fun _ _ => False) (P := fun _ v' => ∃ now,
      v'.tables = mkdirTables ⟨1, 1⟩ x [100] (digRequest n) now id audit t) fun now => by
      refine wp_bind.mpr (wp_bind.mpr (wp_of_ok (inserted_accepted (exec_insertDirectory ..) ?_ (hne hid) (hnodes now)) ?_))
      · show n + 2 < 2 ^ 64
        omega
      refine wp_bind.mpr (wp_of_ok (inserted_accepted (exec_insertNodeAudit ..) ?_ (hne haudit) (htables now)) ?_)
      · show n + 1 < 2 ^ 64
        omega
      exact wp_pure.mpr (wp_pure.mpr ⟨rfl, rfl, now, rfl⟩)
  obtain ⟨-, hc, v', ⟨now, hv⟩, ht⟩ := hanswer.resolve_right fun ⟨_, _, hf, _⟩ => hf
  let t' : Tables := mkdirTables ⟨1, 1⟩ x [100] (digRequest n) now id audit t
  have hgrown : Grown t' := by
    rw [← show _ = t' from hafter.trans (ht.trans hv)]
    exact .call h.grown h.below m trivial (hcommit.trans hc)
  have hs' : Schema t' := htables now
  have hold : ∀ r ∈ t.nodes, r ∈ t.nodes ++ [directoryRow 1 x [100] now id] := fun _ => List.mem_append_left _
  have hnew : nodeAt t' 1 id = some (valueOf (directoryRow 1 x [100] now id)) := nodeAt_mem hs' (List.mem_append_right t.nodes (List.mem_singleton_self _)) rfl
  have hkeep : ∀ k y z, entry t 1 k y = some z → entry t' 1 k y = some z := by
    intro k
    induction k with
    | zero => exact fun _ _ h => h
    | succ k ih =>
      intro y z hy
      obtain ⟨p, hup, hp⟩ := entry_succ_eq_some.mp hy
      obtain ⟨v, hat, hdir, hunder⟩ := up_eq_some.mp hup
      obtain ⟨r, hr, hro, rfl, rfl, -⟩ := hgrove.row hat
      exact entry_succ_eq_some.mpr ⟨p, up_eq_some.mpr ⟨_, hro ▸ nodeAt_mem hs' (hold r hr) (hgrove.active r hr).2, hdir, hunder⟩, ih p z hp⟩
  refine ⟨t', id, hgrown, h.actors, ⟨h.below.users, h.below.sessions,
    forall_lt_append h.below.nodes (Nat.le_succ _) (hid.trans_lt (Nat.lt_succ_self _)),
    forall_lt_append h.below.audits (Nat.le_succ _) (haudit.trans_lt (Nat.lt_succ_self _))⟩, ?_, ?_, ?_, ?_⟩
  · exact List.forall_mem_append.mpr ⟨fun r hr => (h.requests r hr).imp fun k hk => ⟨hk.1.trans (Nat.lt_succ_self _), hk.2⟩,
      List.forall_mem_singleton.mpr ⟨n, Nat.lt_succ_self _, rfl⟩⟩
  · rw [entry_succ (up_eq_some.mpr ⟨_, hnew, rfl, rfl⟩)]
    obtain ⟨z, hz⟩ := Option.ne_none_iff_exists'.mp h.deep
    rw [hkeep n x z hz]
    exact Option.some_ne_none z
  · rw [hnew]
    rfl
  · refine List.forall_mem_append.mpr ⟨fun r hr e => ?_, List.forall_mem_singleton.mpr fun e => ?_⟩
    · obtain ⟨p, hp, -, hpid⟩ := hs.references.parent r hr id e
      exact hfresh p hp hpid
    · exact hfresh q hq (hx.trans (Option.some.inj e))

/-- **There are directories too deep to be deleted.** -/
theorem deep_directory : ¬ ∀ (t : Tables) (c : Counters), Grown t → Below t c → ∀ (m : Made) (id parent : UInt64)
    (v : Value), m.Succeeds ⟨t, c⟩ → Lasts m.actor t m.clock → m.call.deletes = some id →
    m.call.Unspent m.actor.userId t → nodeAt t m.actor.userId id = some v → v.parent = some parent →
    t.liveChild m.actor.userId id = none → (Database.outcome ⟨t, c⟩ m).report.issue ≠ .ancestryLimit := by
  intro hall
  have hdug : ∀ n < 300, ∃ t x, Dug n t x := by
    intro n
    induction n with
    | zero =>
      exact fun _ => ⟨oneUser, 1, .registered ⟨by decide, by decide, by decide⟩ (by decide), ⟨rfl, rfl⟩,
        ⟨by decide, by decide, by decide, by decide⟩, nofun, nofun, rfl, by decide⟩
    | succ n ih =>
      intro hn
      obtain ⟨t, x, h⟩ := ih (by omega)
      exact h.dig (by omega)
  obtain ⟨t, x, h⟩ := hdug 257 (by decide)
  cases hup : up t 1 x with
  | none => exact h.deep (entry_end hup 256)
  | some parent =>
    obtain ⟨v, hat, -, hp⟩ := up_eq_some.mp hup
    have hempty := @liveChild_none t 1 x h.bare
    obtain ⟨q, hq, -, hx⟩ := h.row
    have hgood := h.succeeds (.softDelete ⟨x, digRequest 0⟩) (if_neg (not_or.mpr ⟨(by decide : ¬ Actor.Missing ⟨1, 1⟩),
      not_or.mpr ⟨hx ▸ (h.grown.grove.schema.checks.nodes q hq).id, digRequest_not_zero 0⟩⟩))
    exact hall t _ h.grown h.below _ x parent v hgood h.lasts rfl trivial hat hp hempty
      ((h.grown.grove.removed h.below hgood h.lasts rfl trivial hat hp hempty).deep
        ((entry_succ hup 256).symm ▸ h.deep)).2.1

end Digging

end Vireo.Persistence.Node
