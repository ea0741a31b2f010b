/-
  File:      Vireo/Persistence/Node/Agree.lean
  Subject:   THE PLAIN AND THE IDEMPOTENT WRITE PATHS AGREE.

  The source keeps two copies of every operation: one leaves a receipt for its key, the other does
  not.
-/
import Vireo.Persistence.Node.Change
import Vireo.Persistence.Node.Respect

namespace Vireo.Persistence.Node

open Lib Prog

/-! ## 1. Entries with a receipt -/

/-- An entry with a receipt, and its input. -/
inductive OnceCall where
  | mkdir (i : MkdirOnceInput)
  | move (i : MoveOnceInput)
  | softDelete (i : RemoveOnceInput)

namespace OnceCall

def once : OnceCall → WriteCall
  | mkdir i => .mkdirOnce i
  | move i => .moveOnce i
  | softDelete i => .softDeleteOnce i

/-- The same request without a key. -/
def plain : OnceCall → WriteCall
  | mkdir i => .mkdir ⟨i.parentId, i.name, i.requestId⟩
  | move i => .move ⟨i.nodeId, i.newParentId, i.name, i.requestId⟩
  | softDelete i => .softDelete ⟨i.nodeId, i.requestId⟩

def key : OnceCall → Key
  | mkdir i => i.idempotencyKey
  | move i => i.idempotencyKey
  | softDelete i => i.idempotencyKey

/-- The user has no receipt for the key of the call. -/
def Unused (call : OnceCall) (user : UInt64) (t : Tables) : Prop :=
  match call with
  | mkdir i => t.receipt user 1027 i.idempotencyKey.val = none
  | move i => t.receipt user 1029 i.idempotencyKey.val = none
  | softDelete i => t.removal user i.idempotencyKey.val = none

instance (call : OnceCall) (user : UInt64) (t : Tables) : Decidable (call.Unused user t) := by
  cases call <;> exact inferInstanceAs (Decidable (_ = none))

/-- `t'` is `t` with one receipt for the key of the call. -/
def Receipted (call : OnceCall) (user : UInt64) (t t' : Tables) : Prop :=
  match call with
  | mkdir i => ∃ r : ReceiptRow, r.key = (user, 1027, i.idempotencyKey.val) ∧ t' = withReceipt r t
  | move i => ∃ r : ReceiptRow, r.key = (user, 1029, i.idempotencyKey.val) ∧ t' = withReceipt r t
  | softDelete i =>
    ∃ r : RemovalRow, r.key = (user, 1028, i.idempotencyKey.val) ∧ t' = withRemoval r t

end OnceCall

/-! ## 2. The receipt of an unused key -/

section Receipts

variable {t : Tables} {user command : UInt64} {key : Bytes} {timeout : UInt32} {actor : Actor}
  {node audit : UInt64}

theorem receipt_none : t.receipt user command key = none ↔ ∀ r ∈ t.receipts, r.key ≠ (user, command, key) := by
  unfold Tables.receipt
  rw [List.find?_eq_none]
  exact forall₂_congr fun r _ => not_congr decide_eq_true_iff

theorem removal_none : t.removal user key = none ↔ ∀ r ∈ t.removals, r.key ≠ (user, 1028, key) := by
  unfold Tables.removal
  rw [List.find?_eq_none]
  exact forall₂_congr fun r _ => not_congr decide_eq_true_iff

theorem schema_withReceipt {r : ReceiptRow} (h : Schema t) (hv : r.Valid)
    (hu : ∀ a ∈ t.receipts, a.key ≠ r.key) : Schema (withReceipt r t) where
  checks :=
    { h.checks with
      receipts := List.forall_mem_append.mpr ⟨h.checks.receipts, List.forall_mem_singleton.mpr hv⟩ }
  keys :=
    { h.keys with
      receipt := h.keys.receipt.append fun a ha _ hk he =>
        hu a ha (Option.some.inj (he.trans hk.symm)) }
  references := { h.references with }

theorem schema_withRemoval {r : RemovalRow} (h : Schema t) (hv : r.Valid)
    (hu : ∀ a ∈ t.removals, a.key ≠ r.key) : Schema (withRemoval r t) where
  checks :=
    { h.checks with
      removals := List.forall_mem_append.mpr ⟨h.checks.removals, List.forall_mem_singleton.mpr hv⟩ }
  keys :=
    { h.keys with
      removal := h.keys.removal.append fun a ha _ hk he =>
        hu a ha (Option.some.inj (he.trans hk.symm)) }
  references := { h.references with }

theorem key_not_zeros {k : Key} (h : ¬ k.Zero) : k.val ≠ List.replicate 16 0 := fun e =>
  h fun _ hb => List.eq_of_mem_replicate (e ▸ hb)

theorem nameCheck_ok {name : Bytes} (h : nameCheck name timeout = .ok) :
    1 ≤ name.length ∧ name.length ≤ 255 ∧ ValidName name := by
  unfold nameCheck at h
  split at h
  · cases h
  rename_i hlen
  split at h
  · rename_i hvalid
    rw [not_or, not_or, show nameCapacity = 255 from rfl] at hlen
    exact ⟨Nat.one_le_iff_ne_zero.mpr hlen.1, Nat.not_lt.mp hlen.2.1, hvalid⟩
  · cases h

theorem if_refused {c : Prop} [Decidable c] {rc rc' : Result} (hrc : rc ≠ .ok)
    (h : (if c then rc else rc') = .ok) : ¬ c ∧ rc' = .ok := by
  split at h
  · exact absurd h hrc
  · rename_i hc
    exact ⟨hc, h⟩

theorem mkdirReceiptRow_valid {i : MkdirOnceInput} (h : mkdirOnceCheck actor i timeout = .ok) (hn : node ≠ 0)
    (ha : audit ≠ 0) (now : UInt64) :
    (mkdirReceiptRow actor.userId i.idempotencyKey i.parentId i.name node audit now).Valid := by
  obtain ⟨hin, hname⟩ := if_refused (by decide) h
  rw [not_or, not_or, not_or] at hin
  obtain ⟨hactor, hparent, -, hkey⟩ := hin
  exact {
    user := fun e => hactor (.inl e)
    command := .inl rfl
    key := ⟨i.idempotencyKey.property, key_not_zeros hkey⟩
    format := rfl
    parent := hparent
    name := nameCheck_ok hname
    node := hn
    audit := ha
    shape := .inl ⟨rfl, rfl⟩ }

theorem moveReceiptRow_valid {i : MoveOnceInput} (h : moveOnceCheck actor i timeout = .ok)
    (hn : node = i.nodeId) (ha : audit ≠ 0) (now : UInt64) :
    (moveReceiptRow actor.userId i.idempotencyKey i.newParentId i.nodeId i.name node audit
      now).Valid := by
  obtain ⟨hin, hname⟩ := if_refused (by decide) h
  rw [not_or, not_or, not_or, not_or] at hin
  obtain ⟨hactor, hnode, hparent, -, hkey⟩ := hin
  subst hn
  exact {
    user := fun e => hactor (.inl e)
    command := .inr rfl
    key := ⟨i.idempotencyKey.property, key_not_zeros hkey⟩
    format := rfl
    parent := hparent
    name := nameCheck_ok hname
    node := hnode
    audit := ha
    shape := .inr ⟨rfl, fun e => hnode (Option.some.inj e), rfl⟩ }

theorem removalRow_valid {i : RemoveOnceInput} (h : removeOnceCheck actor i timeout = .ok)
    (hn : node = i.nodeId) (ha : audit ≠ 0) (now : UInt64) :
    (removalRow actor.userId i.idempotencyKey node node audit now).Valid := by
  obtain ⟨hin, -⟩ := if_refused (by decide) h
  rw [not_or, not_or, not_or] at hin
  obtain ⟨hactor, hnode, -, hkey⟩ := hin
  subst hn
  exact {
    user := fun e => hactor (.inl e)
    command := rfl
    key := ⟨i.idempotencyKey.property, key_not_zeros hkey⟩
    format := rfl
    request := hnode
    result := ⟨hnode, rfl⟩
    audit := ha }

end Receipts

/-! ## 3. Twins -/

/-- The same answer up to what was published and the receipt. -/
structure Twin {α α' : Type} [Inhabited α] [Inhabited α'] (t : Tables)
    (made : α → α' → Tables → Tables → Prop) (a : Answer α) (b : Answer α') : Prop where
  result : b.result = a.result
  commit : b.commit = a.commit
  issue : b.issue = a.issue
  known : a.commit ≠ .unknown
  unchanged : a.commit = .notCommitted → a.value = default ∧ b.value = default ∧ a.tables = t ∧ b.tables = t
  changed : a.commit = .committed → made a.value b.value a.tables b.tables

theorem Twin.map {α α' β β' : Type} [Inhabited α] [Inhabited α'] [Inhabited β] [Inhabited β']
    {t : Tables} {made : α → α' → Tables → Tables → Prop} {a : Answer α} {b : Answer α'}
    (h : Twin t made a b) {f : α → β} {g : α' → β'} (hf : f default = default)
    (hg : g default = default) {made' : β → β' → Tables → Tables → Prop}
    (hmade : ∀ x y u w, made x y u w → made' (f x) (g y) u w) :
    Twin t made' (a.map f) (b.map g) :=
  { h with unchanged := fun hc => ⟨(congrArg f (h.unchanged hc).1).trans hf, (congrArg g (h.unchanged hc).2.1).trans hg,
      (h.unchanged hc).2.2⟩, changed := fun hc => hmade _ _ _ _ (h.changed hc) }

theorem note_stage {e : Diagnosis} (he : e = {}) (stage : Stage) {rc : Result} (hrc : rc ≠ .ok)
    (db : Option DbError) : (e.note stage rc db false).stage = some stage := by
  subst he
  simp only [Diagnosis.note, if_neg hrc, Bool.false_eq_true, false_and, if_false, if_true]

section Twins

variable {stages stages' : List Stage} {v v' : View Issue}

theorem classified_twin (rc : Result)
    (h : v.issue ≠ .none ∨ ∃ st, v.err.stage = some st ∧ stages.contains st = stages'.contains st)
    (hi : v'.issue = v.issue) (he : v'.err = v.err) :
    classified stages' rc v' = classified stages rc v := by
  unfold classified
  rw [hi, he]
  rcases h with h | ⟨st, hst, hsame⟩
  · rw [if_neg fun k => h k.2.1, if_neg fun k => h k.2.1]
  · simp only [hst, Option.any_some, hsame]

variable {α α' β δ : Type} [Inhabited α] [Inhabited α'] {win : Window} {a : α} {now : UInt64}

omit [Inhabited α] in
theorem clocked_error {e : Failure} (h : (v.clock v.ticks).millis = .error e) :
    idealClocked win (.ready a) v = (.error e, { v with
      ticks := v.ticks + 1
      err := v.err.note .utc e.val none false }) := by
  refine bind_error ?_
  unfold Ideal.sample
  rw [h]

section

variable (h : (v.clock v.ticks).millis = .ok now)
include h

theorem sample_ok :
    (Ideal.sample : Ideal Issue UInt64) v = (.ok now, { v with ticks := v.ticks + 1 }) := by
  unfold Ideal.sample
  rw [h]

omit [Inhabited α] in
theorem clocked_ok (hin : win.Contains now) :
    idealClocked win (.ready a) v = (.ok (.ready a), { v with ticks := v.ticks + 1 }) := by
  refine (bind_ok (sample_ok h)).trans ?_
  unfold idealCheck
  rw [if_pos hin]
  rfl

omit [Inhabited α] in
theorem clocked_out (hout : ¬ win.Contains now) :
    idealClocked win (.ready a) v = (.error .notFound, { v with
      ticks := v.ticks + 1
      issue := .authRejected
      err := v.err.note .session .notFound none false }) := by
  refine (bind_ok (sample_ok h)).trans ?_
  unfold idealCheck
  rw [if_neg hout]
  rfl

end

/-- **Two entries with a common decision and common writes, the second of which leaves a receipt.** -/
theorem twin_answers (actor : Actor) (plan plan' : Plan) {t : Tables} {c : Counters}
    {clock : Nat → Sampled} {verdict : Tables → Except Verdict δ} {decision : Tables → Decision α δ}
    {decision' : Tables → Decision α' δ} (core : δ → UInt64 → Ideal Issue β)
    {rest : δ → UInt64 → β → Ideal Issue Unit} (f : δ → UInt64 → β → α) (g : δ → UInt64 → β → α')
    (put : δ → UInt64 → β → Tables → Tables) (stages : List Stage)
    (hd : decision t = .ofExcept (verdict t)) (hd' : decision' t = .ofExcept (verdict t))
    (hspoken : ∀ d, verdict t = .error d → d.issue ≠ .none)
    (hcore : ∀ d now, verdict t = .ok d → wp (core d now) (fun b v => v.err = {} ∧ v.issue = .none ∧
        rest d now b v = (.ok (), { v with tables := put d now b v.tables }))
      (Stumbled stages (View.going t c clock)) (View.going t c clock))
    (hstages : ∀ st ∈ Stage.utc :: stages, plan.shapeStages.contains st = plan'.shapeStages.contains st) :
    Twin t (fun x y u w => ∃ d now b, verdict t = .ok d ∧ x = f d now b ∧ y = g d now b ∧
        w = put d now b u)
      (answer plan (idealWrite actor (idealWork decision fun d now => core d now >>= fun b =>
        pure (f d now b))) t c clock)
      (answer plan' (idealWrite actor (idealWork decision' fun d now => core d now >>= fun b =>
        rest d now b >>= fun _ => pure (g d now b))) t c clock) := by
  have hway := wp_approach actor (v := View.start t c clock) hspoken
  unfold answer
  rw [idealWrite_approach actor _ hd, idealWrite_approach actor _ hd']
  unfold wp at hway
  rcases happ : approach actor verdict (View.start t c clock) with ⟨e | go, v₁⟩
  · -- stopped on the way: the same end on both paths
    rw [happ] at hway
    rw [bind_error happ, bind_error happ]
    refine ⟨rfl, rfl, classified_twin _ ?_ rfl rfl, Commit.noConfusion, fun _ => ⟨rfl, rfl, rfl, rfl⟩,
      Commit.noConfusion⟩
    refine hway.spoken.imp_right ?_
    rintro ⟨-, k, herr⟩
    refine ⟨.utc, ?_, hstages _ List.mem_cons_self⟩
    rw [herr]
    exact note_stage rfl .utc k.property none
  · rw [happ] at hway
    obtain rfl : v₁ = View.going t c clock := hway.view
    rw [bind_ok happ, bind_ok happ]
    have hrun := hcore go.plan go.now hway.decided
    unfold wp at hrun
    rcases hwrite : core go.plan go.now (View.going t c clock) with ⟨e | b, v₂⟩
    · -- a write was refused, on both paths the same
      rw [hwrite] at hrun
      rw [bind_error (bind_error hwrite), bind_error (bind_error hwrite)]
      refine ⟨rfl, rfl, classified_twin _ (.inr ?_) rfl rfl, Commit.noConfusion,
        fun _ => ⟨rfl, rfl, rfl, rfl⟩, Commit.noConfusion⟩
      obtain ⟨st, hst, db, herr⟩ := hrun.stage
      refine ⟨st, ?_, hstages _ (List.mem_cons_of_mem _ hst)⟩
      rw [herr]
      exact note_stage rfl st (by decide) db
    · rw [hwrite] at hrun
      obtain ⟨herr, -, hrest⟩ := hrun
      rw [bind_ok ((bind_ok hwrite).trans rfl), bind_ok ((bind_ok hwrite).trans ((bind_ok hrest).trans rfl))]
      -- the last look at the clock does not depend on the tables
      let w₂ : View Issue := { v₂ with tables := put go.plan go.now b v₂.tables }
      have hclock : (w₂.clock w₂.ticks).millis = (v₂.clock v₂.ticks).millis := rfl
      cases hnow : (v₂.clock v₂.ticks).millis with
      | error e =>
        rw [clocked_error hnow, clocked_error (v := w₂) (hclock.trans hnow)]
        exact ⟨rfl, rfl, classified_twin _ (.inr ⟨.utc, note_stage herr .utc e.property none,
          hstages _ List.mem_cons_self⟩) rfl rfl, Commit.noConfusion, fun _ => ⟨rfl, rfl, rfl, rfl⟩,
          Commit.noConfusion⟩
      | ok now =>
        by_cases hin : go.win.Contains now
        · rw [clocked_ok hnow hin, clocked_ok (v := w₂) (hclock.trans hnow) hin]
          exact ⟨rfl, rfl, rfl, Commit.noConfusion, Commit.noConfusion,
            fun _ => ⟨go.plan, go.now, b, hway.decided, rfl, rfl, rfl⟩⟩
        · rw [clocked_out hnow hin, clocked_out (v := w₂) (hclock.trans hnow) hin]
          let out (v : View Issue) : View Issue := { v with
            ticks := v.ticks + 1
            issue := .authRejected
            err := v.err.note .session .notFound none false }
          have hsame : classified plan'.shapeStages Result.notFound (out w₂) =
              classified plan.shapeStages Result.notFound (out v₂) :=
            classified_twin _ (.inl Issue.noConfusion) rfl rfl
          exact ⟨rfl, rfl, hsame, Commit.noConfusion, fun _ => ⟨rfl, rfl, rfl, rfl⟩, Commit.noConfusion⟩

end Twins

/-! ## 4. The two paths of every operation -/

/-- The ids and the time that a call reports. -/
def Published.ids (p : Published) : UInt64 × UInt64 × UInt64 := (p.nodeId, p.auditId, p.deletedAtMs)

/-- What the two paths report and leave: the same, but for the receipt. -/
def OnceCall.Same (call : OnceCall) (user : UInt64) (p q : Published) (t t' : Tables) : Prop :=
  q.ids = p.ids ∧ call.Receipted user t t'

section Paths

variable {t : Tables} {actor : Actor} {timeout : UInt32} (c : Counters) (clock : Nat → Sampled)

theorem twin_mkdir {i : MkdirOnceInput} (hcheck : mkdirOnceCheck actor i timeout = .ok)
    (hu : t.receipt actor.userId 1027 i.idempotencyKey.val = none) :
    Twin t ((OnceCall.mkdir i).Same actor.userId) ((OnceCall.mkdir i).plain.answer actor t c clock)
      ((OnceCall.mkdir i).once.answer actor t c clock) := by
  have hdec : mkdirOnceDecision actor i t = .ofExcept (mkdirVerdict actor.userId i.parentId i.name t) := by
    unfold mkdirOnceDecision
    rw [hu]
  refine (twin_answers actor mkdirPlan mkdirOncePlan
    (fun _ now => idealMkdir actor i.parentId i.name i.requestId now)
    (fun _ now r => MkdirValue.mk (some (newDirectory actor.userId i.parentId i.name now r.1)) r.2)
    (fun _ _ r => OnceValue.mk .applied r.1 r.2 i.idempotencyKey.val)
    (fun _ now r => withReceipt
      (mkdirReceiptRow actor.userId i.idempotencyKey i.parentId i.name r.1 r.2 now))
    [.insert, .audit] rfl hdec (mkdirVerdict_speaks _ _) ?_ (by decide)).map rfl rfl ?_
  · intro _ now _
    refine wp_mono (wp_idealMkdir actor i.parentId i.name i.requestId now _) (fun r v h => ?_)
      fun _ _ h => h
    refine ⟨congrArg View.err h.view, congrArg View.issue h.view, modified_accepted
      (schema_withReceipt h.schema (mkdirReceiptRow_valid hcheck h.node.1 h.audit.1 now) ?_)
      (exec_insertMkdirReceipt ..)⟩
    rw [h.view]
    exact receipt_none.mp hu
  · rintro x y u w ⟨-, now, r, -, rfl, rfl, rfl⟩
    exact ⟨rfl, _, rfl, rfl⟩

theorem twin_move {i : MoveOnceInput} (hcheck : moveOnceCheck actor i timeout = .ok)
    (hu : t.receipt actor.userId 1029 i.idempotencyKey.val = none) :
    Twin t ((OnceCall.move i).Same actor.userId) ((OnceCall.move i).plain.answer actor t c clock)
      ((OnceCall.move i).once.answer actor t c clock) := by
  have hdec : moveOnceDecision actor i t =
      .ofExcept (moveVerdictOf actor.userId i.nodeId i.newParentId i.name t) := by
    unfold moveOnceDecision
    rw [hu]
  refine (twin_answers actor movePlan moveOncePlan
    (fun d now => idealMove actor i.nodeId i.newParentId i.name i.requestId d now)
    (fun d now audit => MoveValue.mk (some (movedValue i.newParentId i.name d now)) audit d.2)
    (fun d _ audit => OnceValue.mk .applied d.1.id audit i.idempotencyKey.val)
    (fun d now audit => withReceipt (moveReceiptRow actor.userId i.idempotencyKey i.newParentId
      i.nodeId i.name d.1.id audit now))
    [.update, .audit] rfl hdec (moveVerdictOf_speaks _ _ _) ?_ (by decide)).map rfl rfl ?_
  · intro d now hd
    refine wp_mono (wp_idealMove actor i.nodeId i.newParentId i.name i.requestId d now _)
      (fun audit v h => ?_) fun _ _ h => h
    refine ⟨congrArg View.err h.view, congrArg View.issue h.view, modified_accepted
      (schema_withReceipt h.schema (moveReceiptRow_valid hcheck
        (nodeAt_id (moveVerdictOf_ok hd).source) h.number.1 now) ?_)
      (exec_insertMoveReceipt ..)⟩
    rw [h.view]
    exact receipt_none.mp hu
  · rintro x y u w ⟨d, now, audit, -, rfl, rfl, rfl⟩
    refine ⟨?_, _, rfl, rfl⟩
    unfold movedValue
    split
    · rfl
    · rfl

theorem twin_softDelete {i : RemoveOnceInput} (hcheck : removeOnceCheck actor i timeout = .ok)
    (hu : t.removal actor.userId i.idempotencyKey.val = none) :
    Twin t ((OnceCall.softDelete i).Same actor.userId)
      ((OnceCall.softDelete i).plain.answer actor t c clock)
      ((OnceCall.softDelete i).once.answer actor t c clock) := by
  have hdec : softDeleteOnceDecision actor i t = .ofExcept (deleteVerdictOf actor.userId i.nodeId t) := by
    unfold softDeleteOnceDecision
    rw [hu]
  refine (twin_answers actor softDeletePlan softDeleteOncePlan
    (fun d now => idealDelete actor i.requestId d now)
    (fun d now audit => SoftDeleteValue.mk d.1.id audit (clamp now d.1.updatedAtMs))
    (fun d now audit => RemoveValue.mk .applied d.1.id audit (clamp now d.1.updatedAtMs))
    (fun d now audit => withRemoval (removalRow actor.userId i.idempotencyKey d.1.id d.1.id audit
      (clamp now d.1.updatedAtMs)))
    [.softDelete, .objectUpdate, .audit] rfl hdec (deleteVerdictOf_speaks _) ?_
    (by decide)).map rfl rfl ?_
  · intro d now hd
    refine wp_mono (wp_idealDelete actor i.requestId d now _) (fun audit v h => ?_) fun _ _ h => h
    refine ⟨congrArg View.err h.view, congrArg View.issue h.view, modified_accepted
      (schema_withRemoval h.schema (removalRow_valid hcheck
        (nodeAt_id (deleteVerdictOf_ok hd).source) h.number.1 _) ?_)
      (exec_insertRemoveReceipt ..)⟩
    rw [h.view]
    exact removal_none.mp hu
  · rintro x y u w ⟨d, now, audit, -, rfl, rfl, rfl⟩
    exact ⟨rfl, _, rfl, rfl⟩

end Paths

theorem OnceCall.check_eq {call : OnceCall} (hkey : ¬ call.key.Zero) (actor : Actor) (timeout : UInt32) :
    call.once.check actor timeout = call.plain.check actor timeout := by
  cases call with
  | mkdir i => exact if_congr (or_congr_right (or_congr_right (or_iff_left hkey))) rfl rfl
  | move i =>
    exact if_congr (or_congr_right (or_congr_right (or_congr_right (or_iff_left hkey)))) rfl rfl
  | softDelete i => exact if_congr (or_congr_right (or_congr_right (or_iff_left hkey))) rfl rfl

theorem OnceCall.twin {t : Tables} {actor : Actor} {call : OnceCall} (hu : call.Unused actor.userId t)
    (hkey : ¬ call.key.Zero) (timeout : UInt32) (pending : Bool) (c : Counters) (clock : Nat → Sampled) :
    Twin t (call.Same actor.userId) (call.plain.reply actor timeout pending t c clock)
      (call.once.reply actor timeout pending t c clock) := by
  have hrefused : ∀ rc, Twin t (call.Same actor.userId) (refusal rc t c) (refusal rc t c) := fun rc =>
    ⟨rfl, rfl, rfl, Commit.noConfusion, fun _ => ⟨rfl, rfl, rfl, rfl⟩, Commit.noConfusion⟩
  unfold WriteCall.reply
  rw [← call.check_eq hkey]
  split
  · exact hrefused _
  split
  · rename_i hcheck
    cases call with
    | mkdir i => exact twin_mkdir c clock hcheck hu
    | move i => exact twin_move c clock hcheck hu
    | softDelete i => exact twin_softDelete c clock hcheck hu
  · exact hrefused _

/-- What two calls report and leave of the tables `t`, of which the second may leave a receipt. -/
structure Agrees (call : OnceCall) (user : UInt64) (t : Tables) (a b : Outcome World Published) :
    Prop where
  result : b.result = a.result
  commit : b.report.commit = a.report.commit
  issue : b.report.issue = a.report.issue
  ids : b.report.value.ids = a.report.value.ids
  tables : (a.report.commit = .notCommitted ∧ a.world.committed = t ∧ b.world.committed = t) ∨
    (a.report.commit = .committed ∧ call.Receipted user a.world.committed b.world.committed)

/-- **The plain and the idempotent path agree**, in every database in which the key is not used. -/
theorem plain_once_agree {t : Tables} {c : Counters} (hs : Schema t) (hb : Below t c) (call : OnceCall)
    (actor : Actor) (hu : call.Unused actor.userId t) (hkey : ¬ call.key.Zero) (timeout : UInt32)
    (repo : Repo) (clock : Nat → Sampled) :
    Agrees call actor.userId t
      (call.plain.run dbOps actor timeout repo (World.fresh t c clock fun _ => none))
      (call.once.run dbOps actor timeout repo (World.fresh t c clock fun _ => none)) := by
  obtain ⟨hpr, hpc, hpi, hpv, hpt⟩ := (write_answered hs hb call.plain actor timeout repo clock _).faultless
    (run_faultless call.plain actor timeout repo t c clock)
  obtain ⟨hor, hoc, hoi, hov, hot⟩ := (write_answered hs hb call.once actor timeout repo clock _).faultless
    (run_faultless call.once actor timeout repo t c clock)
  have h := OnceCall.twin hu hkey timeout repo.pending c clock
  refine ⟨hor.trans (h.result.trans hpr.symm), hoc.trans (h.commit.trans hpc.symm),
    hoi.trans (h.issue.trans hpi.symm), ?_, ?_⟩
  · rw [hpv, hov]
    cases hc : (call.plain.reply actor timeout repo.pending t c clock).commit with
    | notCommitted => rw [(h.unchanged hc).1, (h.unchanged hc).2.1]
    | committed => exact (h.changed hc).1
    | unknown => exact absurd hc h.known
  · rw [hpc, hpt, hot]
    cases hc : (call.plain.reply actor timeout repo.pending t c clock).commit with
    | notCommitted => exact .inl ⟨rfl, (h.unchanged hc).2.2⟩
    | committed => exact .inr ⟨rfl, (h.changed hc).2⟩
    | unknown => exact absurd hc h.known

/-- One user with a session and a root. -/
def oneUser : Tables where
  users := [⟨1, [97], [98], 1, 0, 0, none⟩]
  sessions := [⟨1, 1, List.replicate 32 0, 1, 0, 1000, none, 0⟩]
  nodes := [⟨1, 1, none, [], 1, 2, none, 0, 0, 0, none⟩]

/-- His first directory, with a key. -/
def firstDirectory : OnceCall := .mkdir ⟨1, [100], ⟨List.replicate 16 1, rfl⟩, ⟨List.replicate 16 2, rfl⟩⟩

theorem plain_once_agree_directory :
    (firstDirectory.plain.reply ⟨1, 1⟩ 100 false oneUser ⟨2, 2, 2, 1⟩ fun _ => ⟨0, ⟨0, 5000000⟩⟩).commit =
      .committed ∧
    Agrees firstDirectory 1 oneUser
      (firstDirectory.plain.run dbOps ⟨1, 1⟩ 100 {} (World.fresh oneUser ⟨2, 2, 2, 1⟩
        (fun _ => ⟨0, ⟨0, 5000000⟩⟩) fun _ => none))
      (firstDirectory.once.run dbOps ⟨1, 1⟩ 100 {} (World.fresh oneUser ⟨2, 2, 2, 1⟩
        (fun _ => ⟨0, ⟨0, 5000000⟩⟩) fun _ => none)) :=
  ⟨by decide +kernel, plain_once_agree ⟨by decide, by decide, by decide⟩
    ⟨by decide, by decide, by decide, by decide⟩ firstDirectory ⟨1, 1⟩ (by decide) (by decide) 100 {} _⟩

/-- The key zero is refused by the path that would have to remember it, and by no other. -/
theorem zero_key_refused :
    ¬ ∀ (t : Tables) (c : Counters), Schema t → Below t c → ∀ (call : OnceCall) (actor : Actor),
      call.Unused actor.userId t → ∀ (timeout : UInt32) (repo : Repo) (clock : Nat → Sampled),
      Agrees call actor.userId t
        (call.plain.run dbOps actor timeout repo (World.fresh t c clock fun _ => none))
        (call.once.run dbOps actor timeout repo (World.fresh t c clock fun _ => none)) := by
  intro h
  let call : OnceCall := .mkdir ⟨1, [100], ⟨List.replicate 16 0, rfl⟩, ⟨List.replicate 16 1, rfl⟩⟩
  let clock : Nat → Sampled := fun _ => ⟨0, ⟨0, 5000000⟩⟩
  have hs : Schema oneUser := ⟨by decide, by decide, by decide⟩
  have hb : Below oneUser ⟨2, 2, 2, 1⟩ := ⟨by decide, by decide, by decide, by decide⟩
  have hsame := (h oneUser ⟨2, 2, 2, 1⟩ hs hb call ⟨1, 1⟩ (by decide) 100 {} clock).result
  have hplain := ((write_answered hs hb call.plain ⟨1, 1⟩ 100 {} clock _).faultless
    (run_faultless call.plain ⟨1, 1⟩ 100 {} oneUser ⟨2, 2, 2, 1⟩ clock)).1
  have honce := ((write_answered hs hb call.once ⟨1, 1⟩ 100 {} clock _).faultless
    (run_faultless call.once ⟨1, 1⟩ 100 {} oneUser ⟨2, 2, 2, 1⟩ clock)).1
  have hne : (call.once.reply ⟨1, 1⟩ 100 false oneUser ⟨2, 2, 2, 1⟩ clock).result ≠
      (call.plain.reply ⟨1, 1⟩ 100 false oneUser ⟨2, 2, 2, 1⟩ clock).result := by decide +kernel
  exact hne (honce.symm.trans (hsame.trans hplain))

end Vireo.Persistence.Node
