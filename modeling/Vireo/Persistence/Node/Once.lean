/-
  File:      Vireo/Persistence/Node/Once.lean
  Subject:   A WRITE WITH A KEY TAKES EFFECT ONCE, over every history of calls.

  A receipt is written with the effect and never taken back, and every later call looks for it before it
  looks at the tree.
-/
import Vireo.Persistence.Node.Agree

namespace Vireo.Persistence.Node

open Lib Prog
open Option (map_eq_none_iff map_eq_some_iff)

/-! ## 1. Histories -/

/-- A call as it is made. -/
structure Made where
  actor : Actor
  call : WriteCall
  timeout : UInt32
  repo : Repo
  clock : Nat → Sampled
  faults : Nat → Option Fault

/-- What is committed, and the next ids. -/
structure Database where
  tables : Tables
  counters : Counters

namespace Database

/-- The schema is satisfied, and the ids in use are below the next ones. -/
structure Sound (d : Database) : Prop where
  schema : Schema d.tables
  below : Below d.tables d.counters

/-- What a call comes to. -/
def outcome (d : Database) (m : Made) : Outcome World Published :=
  m.call.run dbOps m.actor m.timeout m.repo (World.fresh d.tables d.counters m.clock m.faults)

/-- The database after a call. -/
def after (d : Database) (m : Made) : Database :=
  ⟨(d.outcome m).world.committed, (d.outcome m).world.counters⟩

end Database

/-- What can happen next: a call, or a transaction that has nothing to do with receipts. -/
inductive Happening where
  | call (m : Made)
  | outside (d : Database)

namespace Database

def exec (d : Database) : Happening → Database
  | .call m => d.after m
  | .outside d' => d'

/-- Nobody else writes receipts. -/
def Allowed (d : Database) : Happening → Prop
  | .call _ => True
  | .outside d' => d'.Sound ∧ d'.tables.receipts = d.tables.receipts ∧ d'.tables.removals = d.tables.removals

/-- What comes of a database, calls of all users in any order. -/
inductive Later (d : Database) : Database → Prop
  | refl : Later d d
  | step {d' : Database} (h : Later d d') (e : Happening) (allowed : d'.Allowed e) : Later d (d'.exec e)

end Database

/-! ## 2. What the dependencies keep -/

/-- What is committed and what is worked on satisfy the schema. -/
structure Healthy (w : World) : Prop where
  committed : Schema w.committed ∧ Below w.committed w.counters
  working : Schema w.working ∧ Below w.working w.counters

theorem evaluate_healthy {w : World} (h : Healthy w) (sql : Sql) (params : List Param) :
    Healthy (w.evaluate sql params).2 := by
  unfold World.evaluate
  split
  · exact ⟨h.committed, h.committed⟩
  · exact ⟨h.working, h.working⟩
  · exact ⟨h.committed, h.committed⟩
  · have hs := exec_sane sql params w.working w.counters
    exact ⟨⟨h.committed.1, h.committed.2.mono hs.counters⟩, hs.schema h.working.1, hs.below h.working.2⟩

theorem respects_healthy : dbOps.Respects fun w w' => Healthy w → Healthy w' := by
  refine dbOps_respects (fun _ => id) (fun _ _ _ h k => k ∘ h) (fun w w' hi h => ?_) fun w q p h =>
    evaluate_healthy h q p
  constructor
  · rw [hi.committed, hi.counters]
    exact h.committed
  · rw [hi.working, hi.counters]
    exact h.working

theorem Database.Sound.after {d : Database} (h : d.Sound) (m : Made) : (d.after m).Sound := by
  have hstart : Healthy (.fresh d.tables d.counters m.clock m.faults) :=
    ⟨⟨h.schema, h.below⟩, ⟨h.schema, h.below⟩⟩
  have hw := (m.call.run_respects respects_healthy m.actor m.timeout m.repo _ hstart).committed
  exact ⟨hw.1, hw.2⟩

/-! ## 3. What a receipt says -/

namespace OnceCall

/-- What is asked, without the ids of the request and the key. -/
def payload : OnceCall → Option UInt64 × UInt64 × Bytes
  | mkdir i => (none, i.parentId, i.name)
  | move i => (some i.nodeId, i.newParentId, i.name)
  | softDelete i => (some i.nodeId, 0, [])

/-- The command of the key. -/
def command : OnceCall → UInt64
  | mkdir _ => 1027
  | move _ => 1029
  | softDelete _ => 1028

/-- What the receipt of the key says: what was asked, and what is answered again. -/
def recorded (call : OnceCall) (user : UInt64) (t : Tables) :
    Option ((Option UInt64 × UInt64 × Bytes) × Published) :=
  match call with
  | mkdir i => (t.receipt user 1027 i.idempotencyKey.val).map fun r =>
      ((none, r.requestParentId, r.requestName), ⟨.recovered, r.resultNodeId, r.auditId, 0⟩)
  | move i => (t.receipt user 1029 i.idempotencyKey.val).map fun r =>
      ((r.requestNodeId, r.requestParentId, r.requestName), ⟨.recovered, r.resultNodeId, r.auditId, 0⟩)
  | softDelete i => (t.removal user i.idempotencyKey.val).map fun r =>
      ((some r.requestNodeId, 0, []), ⟨.recovered, r.resultNodeId, r.auditId, r.createdAtMs⟩)

end OnceCall

section Receipts

variable {t t' : Tables} {c : Counters} {actor : Actor} {call : OnceCall} {p : Published}
  {x : (Option UInt64 × UInt64 × Bytes) × Published} {user : UInt64} {key : Bytes} {r : RemovalRow}

theorem receipt_stays {user command : UInt64} {r : ReceiptRow} (h : t.receipt user command key = some r)
    (new : ReceiptRow) :
    (withReceipt new t).receipt user command key = some r := by
  unfold Tables.receipt withReceipt at *
  rw [List.find?_append, h]
  rfl

theorem removal_stays (h : t.removal user key = some r) (new : RemovalRow) :
    (withRemoval new t).removal user key = some r := by
  unfold Tables.removal withRemoval at *
  rw [List.find?_append, h]
  rfl

theorem receipt_new {r : ReceiptRow} (h : t.receipt r.userId r.command r.idempotencyKey = none) :
    (withReceipt r t).receipt r.userId r.command r.idempotencyKey = some r := by
  unfold Tables.receipt withReceipt at *
  rw [List.find?_append, h]
  simp [ReceiptRow.key]

theorem removal_new (hcommand : r.command = 1028) (h : t.removal r.userId r.idempotencyKey = none) :
    (withRemoval r t).removal r.userId r.idempotencyKey = some r := by
  unfold Tables.removal withRemoval at *
  rw [List.find?_append, h]
  simp [RemovalRow.key, hcommand]

theorem recorded_congr (user : UInt64) (hr : t'.receipts = t.receipts) (hm : t'.removals = t.removals) :
    call.recorded user t' = call.recorded user t := by
  unfold OnceCall.recorded Tables.receipt Tables.removal
  rw [hr, hm]

theorem recorded_withReceipt (h : call.recorded user t = some x) (new : ReceiptRow) :
    call.recorded user (withReceipt new t) = some x := by
  cases call with
  | softDelete i => exact h
  | _ =>
    obtain ⟨r, hr, e⟩ := map_eq_some_iff.mp h
    exact map_eq_some_iff.mpr ⟨r, receipt_stays hr new, e⟩

theorem recorded_withRemoval (h : call.recorded user t = some x) (new : RemovalRow) :
    call.recorded user (withRemoval new t) = some x := by
  cases call with
  | softDelete i =>
    obtain ⟨r, hr, e⟩ := map_eq_some_iff.mp h
    exact map_eq_some_iff.mpr ⟨r, removal_stays hr new, e⟩
  | _ => exact h

theorem Wrote.recorded {w : WriteCall} (h : Wrote actor t c w p t') (hx : call.recorded user t = some x) :
    call.recorded user t' = some x := by
  cases h with
  | mkdir i now id audit => exact (recorded_congr user rfl rfl).trans hx
  | move i d now audit => exact (recorded_congr user rfl rfl).trans hx
  | softDelete i d now audit => exact (recorded_congr user rfl rfl).trans hx
  | mkdirOnce i now id audit =>
    exact recorded_withReceipt ((recorded_congr user rfl rfl).trans hx) _
  | moveOnce i d now audit =>
    exact recorded_withReceipt ((recorded_congr user rfl rfl).trans hx) _
  | softDeleteOnce i d now audit =>
    exact recorded_withRemoval ((recorded_congr user rfl rfl).trans hx) _

/-- **A call with a key that took effect** found no receipt and left one. -/
theorem Wrote.once (h : Wrote actor t c call.once p t') : call.recorded actor.userId t = none ∧
      call.recorded actor.userId t' = some (call.payload, { p with effect := .recovered }) := by
  cases call with
  | mkdir i =>
    cases h with
    | mkdirOnce _ now id audit hid haudit hnode unused =>
      refine ⟨map_eq_none_iff.mpr unused, map_eq_some_iff.mpr ⟨_, receipt_new ?_, rfl⟩⟩
      exact unused
  | move i =>
    cases h with
    | moveOnce _ d now audit haudit unused verdict =>
      refine ⟨map_eq_none_iff.mpr unused, map_eq_some_iff.mpr ⟨_, receipt_new ?_, rfl⟩⟩
      exact unused
  | softDelete i =>
    cases h with
    | softDeleteOnce _ d now audit haudit unused verdict =>
      have hid := nodeAt_id (deleteVerdictOf_ok verdict).source
      refine ⟨map_eq_none_iff.mpr unused, map_eq_some_iff.mpr
        ⟨_, removal_new rfl ?_, congrArg (fun id => ((some id, (0 : UInt64), ([] : Bytes)), _)) hid⟩⟩
      exact unused

theorem recorded_same {call' : OnceCall} (hcommand : call'.command = call.command)
    (hkey : call'.key = call.key) (user : UInt64) (t : Tables) :
    call'.recorded user t = call.recorded user t := by
  have hother : ∀ n n' : UInt64, n' ≠ n → n' = n → call'.recorded user t = call.recorded user t :=
    fun _ _ hne he => absurd he hne
  cases call with
  | mkdir i =>
    cases call' with
    | mkdir i' => exact congrArg (Option.map _) (congrArg (fun k : Key => t.receipt user 1027 k.val) hkey)
    | move i' => exact hother 1027 1029 (by decide) hcommand
    | softDelete i' => exact hother 1027 1028 (by decide) hcommand
  | move i =>
    cases call' with
    | mkdir i' => exact hother 1029 1027 (by decide) hcommand
    | move i' => exact congrArg (Option.map _) (congrArg (fun k : Key => t.receipt user 1029 k.val) hkey)
    | softDelete i' => exact hother 1029 1028 (by decide) hcommand
  | softDelete i =>
    cases call' with
    | mkdir i' => exact hother 1028 1027 (by decide) hcommand
    | move i' => exact hother 1028 1029 (by decide) hcommand
    | softDelete i' => exact congrArg (Option.map _) (congrArg (fun k : Key => t.removal user k.val) hkey)

end Receipts

/-! ## 4. What a call with a receipt answers -/

/-- The call comes past its checks, its actor is admitted, and nothing failed. -/
structure Made.Succeeds (m : Made) (d : Database) : Prop where
  free : m.repo.pending = false
  check : m.call.check m.actor m.timeout = .ok
  admitted : Admitted m.actor d.tables m.clock
  faultless : (d.outcome m).world.faulted = false

/-- What is answered to a request when a receipt says this. -/
structure AnsweredAgain (asked : Option UInt64 × UInt64 × Bytes)
    (x : (Option UInt64 × UInt64 × Bytes) × Published) (a : Answer Published) : Prop where
  same : asked = x.1 → a.result = .ok ∧ a.issue = .none ∧ a.value = x.2
  other : asked ≠ x.1 → a.result = .database ∧ a.issue = .idempotencyConflict ∧ a.value = {}

section Answers

variable {actor : Actor} {t : Tables} {c : Counters} {clock : Nat → Sampled}
  {x : (Option UInt64 × UInt64 × Bytes) × Published}

theorem answer_admitted {α δ : Type} [Inhabited α] {decision : Tables → Decision α δ} (plan : Plan)
    (effect : δ → UInt64 → Ideal Issue α) (h : Admitted actor t clock) {p : Prop} [Decidable p] {a : α}
    (hd : decision t = if p then .refuse keyConflict else .recover a) {f : α → Published} (hf : f default = {})
    {asked : Option UInt64 × UInt64 × Bytes} (hx : f a = x.2) (hp : ¬ p ↔ asked = x.1) :
    AnsweredAgain asked x
      ((answer plan (idealWrite actor (idealWork decision effect)) t c clock).map f) := by
  obtain ⟨hrecover, hrefuse⟩ := @idealWrite_admitted _ _ actor t decision clock c effect h
  constructor
  · intro hsame
    rw [if_neg (hp.mpr hsame)] at hd
    unfold answer
    rw [hrecover a hd]
    exact ⟨rfl, rfl, hx⟩
  · intro hother
    rw [if_pos (not_not.mp fun hnot => hother (hp.mp hnot))] at hd
    unfold answer
    rw [hrefuse _ hd]
    exact ⟨rfl, rfl, hf⟩

theorem answer_recorded (call : OnceCall) (h : Admitted actor t clock)
    (hx : call.recorded actor.userId t = some x) :
    AnsweredAgain call.payload x (call.once.answer actor t c clock) := by
  cases call with
  | mkdir i =>
    obtain ⟨r, hr, rfl⟩ := map_eq_some_iff.mp hx
    refine answer_admitted mkdirOncePlan (mkdirOnceEffect actor i) h (by unfold mkdirOnceDecision; rw [hr]) rfl rfl ?_
    simp only [not_or, not_not, OnceCall.payload, Prod.mk.injEq, true_and, eq_comm]
  | move i =>
    obtain ⟨r, hr, rfl⟩ := map_eq_some_iff.mp hx
    refine answer_admitted moveOncePlan (moveOnceEffect actor i) h (by unfold moveOnceDecision; rw [hr]) rfl rfl ?_
    simp only [not_or, not_not, OnceCall.payload, Prod.mk.injEq, eq_comm]
  | softDelete i =>
    obtain ⟨r, hr, rfl⟩ := map_eq_some_iff.mp hx
    refine answer_admitted softDeleteOncePlan (softDeleteOnceEffect actor i) h
      (by unfold softDeleteOnceDecision; rw [hr]) rfl rfl ?_
    simp only [not_not, OnceCall.payload, Prod.mk.injEq, Option.some.injEq, and_true, eq_comm]

end Answers

/-! ## 5. Every history -/

section Histories

variable {d d' : Database} {x : (Option UInt64 × UInt64 × Bytes) × Published} {m : Made} {call : OnceCall}

theorem after_leaves (h : d.Sound) (m : Made) :
    ((d.after m).tables = d.tables ∧ (d.outcome m).report.commit ≠ .committed) ∨
      ∃ p, Wrote m.actor d.tables d.counters m.call p (d.after m).tables ∧
        ((d.outcome m).report.commit = .committed → (d.outcome m).report.value = p) :=
  write_leaves h.schema h.below m.call m.actor m.timeout m.repo m.clock m.faults

theorem recorded_later (h : d.Sound) (later : d.Later d') :
    d'.Sound ∧ ∀ (call : OnceCall) (user : UInt64) (x : (Option UInt64 × UInt64 × Bytes) × Published),
      call.recorded user d.tables = some x → call.recorded user d'.tables = some x := by
  induction later with
  | refl => exact ⟨h, fun _ _ _ hx => hx⟩
  | @step d' _ e allowed ih =>
    obtain ⟨hs, hkeep⟩ := ih
    cases e with
    | call m =>
      refine ⟨hs.after m, fun call user x hx => ?_⟩
      have hold := hkeep call user x hx
      rcases after_leaves hs m with ⟨hsame, -⟩ | ⟨p, hwrote, -⟩
      · exact (congrArg (call.recorded user) hsame).trans hold
      · exact hwrote.recorded hold
    | outside d₂ =>
      obtain ⟨hs₂, hreceipts, hremovals⟩ := allowed
      exact ⟨hs₂, fun call user x hx => (recorded_congr user hreceipts hremovals).trans (hkeep call user x hx)⟩

theorem after_recorded (h : d.Sound) (hm : m.call = call.once)
    (hx : call.recorded m.actor.userId d.tables = some x) :
    (d.after m).tables = d.tables := by
  rcases after_leaves h m with ⟨hsame, -⟩ | ⟨p, hwrote, -⟩
  · exact hsame
  rw [hm] at hwrote
  have hnone := hwrote.once.1
  rw [hx] at hnone
  cases hnone

theorem Made.Succeeds.answered (hgood : m.Succeeds d) (h : d.Sound) :
    let a := m.call.answer m.actor d.tables d.counters m.clock
    (d.outcome m).result = a.result ∧ (d.outcome m).report.commit = a.commit ∧
      (d.outcome m).report.issue = a.issue ∧ (d.outcome m).report.value = a.value ∧
      (d.after m).tables = a.tables := by
  have hreply : m.call.reply m.actor m.timeout m.repo.pending d.tables d.counters m.clock =
      m.call.answer m.actor d.tables d.counters m.clock := by
    unfold WriteCall.reply
    rw [hgood.free, if_neg Bool.false_ne_true, if_pos hgood.check]
  exact hreply ▸ (write_answered h.schema h.below m.call m.actor m.timeout m.repo m.clock m.faults).faultless
    hgood.faultless

theorem outcome_recorded (h : d.Sound) (hm : m.call = call.once)
    (hx : call.recorded m.actor.userId d.tables = some x) (hgood : m.Succeeds d) :
    (call.payload = x.1 → (d.outcome m).result = .ok ∧ (d.outcome m).report.issue = .none ∧
      (d.outcome m).report.value = x.2) ∧
    (call.payload ≠ x.1 → (d.outcome m).result = .database ∧
      (d.outcome m).report.issue = .idempotencyConflict ∧ (d.outcome m).report.value = {}) := by
  obtain ⟨hresult, -, hissue, hvalue, -⟩ := hgood.answered h
  rw [hm] at hresult hissue hvalue
  have hagain := answer_recorded call (c := d.counters) hgood.admitted hx
  rw [show (d.outcome m).result = _ from hresult, show (d.outcome m).report.issue = _ from hissue,
    show (d.outcome m).report.value = _ from hvalue]
  exact ⟨hagain.same, hagain.other⟩

/-- **A write with a key takes effect once.** After a call took effect, every call of the same user with the
    same command and key changes nothing: it answers the same request with the ids of the effect, and another
    with a conflict. -/
theorem write_once (hd : d.Sound) {m m' : Made} {call call' : OnceCall} (hm : m.call = call.once)
    (hm' : m'.call = call'.once) (huser : m'.actor.userId = m.actor.userId)
    (hcommand : call'.command = call.command) (hkey : call'.key = call.key)
    (heffect : (d.after m).tables ≠ d.tables) (later : (d.after m).Later d') :
    ∃ p, Wrote m.actor d.tables d.counters m.call p (d.after m).tables ∧
      ((d.outcome m).report.commit = .committed → (d.outcome m).report.value = p) ∧
      (d'.after m').tables = d'.tables ∧
      (m'.Succeeds d' →
        (call'.payload = call.payload → (d'.outcome m').result = .ok ∧
          (d'.outcome m').report.issue = .none ∧
          (d'.outcome m').report.value = { p with effect := .recovered }) ∧
        (call'.payload ≠ call.payload → (d'.outcome m').result = .database ∧
          (d'.outcome m').report.issue = .idempotencyConflict ∧ (d'.outcome m').report.value = {})) := by
  rcases after_leaves hd m with ⟨hsame, -⟩ | ⟨p, hwrote, htold⟩
  · exact absurd hsame heffect
  obtain ⟨hs, hkeep⟩ := recorded_later (hd.after m) later
  have hleft := (hm ▸ hwrote).once.2
  have hx : call'.recorded m'.actor.userId d'.tables = some (call.payload, { p with effect := .recovered }) := by
    rw [recorded_same hcommand hkey, huser]
    exact hkeep _ _ _ hleft
  exact ⟨p, hwrote, htold, after_recorded hs hm' hx, outcome_recorded hs hm' hx⟩

theorem succeeds_calm (hcalm : m.faults = fun _ => none) (hfree : m.repo.pending = false)
    (hcheck : m.call.check m.actor m.timeout = .ok) (hadmitted : Admitted m.actor d.tables m.clock) :
    m.Succeeds d := by
  have hrun := run_faultless m.call m.actor m.timeout m.repo d.tables d.counters m.clock
  rw [← hcalm] at hrun
  exact ⟨hfree, hcheck, hadmitted, hrun⟩

/-- One user makes his first directory. -/
def firstMade : Made :=
  ⟨⟨1, 1⟩, firstDirectory.once, 100, {}, fun _ => ⟨0, ⟨0, 5000000⟩⟩, fun _ => none⟩

def oneDatabase : Database := ⟨oneUser, ⟨2, 2, 2, 1⟩⟩

theorem sound_oneDatabase : oneDatabase.Sound :=
  ⟨⟨by decide, by decide, by decide⟩, ⟨by decide, by decide, by decide, by decide⟩⟩

theorem succeeds_firstMade : firstMade.Succeeds oneDatabase :=
  succeeds_calm rfl rfl (by decide) ⟨⟨0, 1000⟩, 5, by decide, by decide, by decide⟩

/-- The directory is deleted, by another of his calls. -/
def thenDeleted : Made :=
  ⟨⟨1, 1⟩, .softDelete ⟨2, ⟨List.replicate 16 3, rfl⟩⟩, 100, {}, fun _ => ⟨0, ⟨0, 5000000⟩⟩, fun _ => none⟩

/-- The directory is made once: when it is long gone its ids are recovered. -/
theorem write_once_retried :
    let d := oneDatabase.after firstMade
    let d' := d.after thenDeleted
    d.tables ≠ oneDatabase.tables ∧ d'.tables ≠ d.tables ∧ (d'.after firstMade).tables = d'.tables ∧
      (d'.outcome firstMade).result = .ok ∧ (d'.outcome firstMade).report.value = ⟨.recovered, 2, 1, 0⟩ := by
  intro d d'
  have heffect : d.tables ≠ oneDatabase.tables := by decide +kernel
  have later : d.Later d' := .step .refl (.call thenDeleted) trivial
  obtain ⟨p, -, hvalue, hsame, hagain⟩ := @write_once _ _ sound_oneDatabase firstMade firstMade firstDirectory
    firstDirectory rfl rfl rfl rfl rfl heffect later
  have hp : (⟨.applied, 2, 1, 0⟩ : Published) = p :=
    (by decide +kernel : (oneDatabase.outcome firstMade).report.value = ⟨.applied, 2, 1, 0⟩).symm.trans
      (hvalue (by decide +kernel))
  have succeeds : firstMade.Succeeds d' :=
    succeeds_calm rfl rfl (by decide) ⟨⟨0, 1000⟩, 5, by decide +kernel, by decide +kernel, by decide +kernel⟩
  obtain ⟨hok, -, hrecovered⟩ := (hagain succeeds).1 rfl
  exact ⟨heffect, by decide +kernel, hsame, hok, by rw [hrecovered, ← hp]⟩

end Histories

end Vireo.Persistence.Node
