/-
  File:      Vireo/Persistence/Trace.lean
  Subject:   THE TRACE OF A CALL against arbitrary dependencies.

  `Ops.traced` records every dependency call with its outcome. What a call of a repository did to
  the database is then a property of that record, whatever the dependencies answer:

  * `Adds` -- a step adds these events, and holds a statement as they say;
  * **`command_adds`**, **`command_reply`** -- what a command adds, and what it says;
  * **`ended_commit`**, **`endFacts`** -- what the trace says about COMMIT, and in the end about
    ROLLBACK and the lease.
-/
import Vireo.Persistence.Statement

namespace Vireo.Persistence

open Lib List

/-! ## 1. Events -/

/-- One dependency call and its outcome. -/
inductive Event where
  | allocated (ok : Bool)
  | acquired (timeout : UInt32) (o : Acquired)
  | borrowed (rc : Result)
  | prepared (sql : Sql) (limits : Limits) (o : Prepared)
  | executed (sql : Sql) (params : List Param) (o : Executed)
  | fetched (sql : Sql) (o : FetchReply)
  | cell (sql : Sql) (i : Nat) (o : Except Failure Cell)
  | closed (sql : Sql) (o : Closed)
  | sampled (o : Sampled)
  | released (d : Disposition) (o : ReleaseReply)

/-- The same dependencies, with a record of every call. -/
def Ops.traced {W : Type} (ops : Ops W) : Ops (W × List Event) where
  allocate w := let (o, v) := ops.allocate w.1; (o, v, w.2 ++ [.allocated o])
  acquire t w := let (o, v) := ops.acquire t w.1; (o, v, w.2 ++ [.acquired t o])
  borrow w := let (o, v) := ops.borrow w.1; (o, v, w.2 ++ [.borrowed o])
  prepare q l w := let (o, v) := ops.prepare q l w.1; (o, v, w.2 ++ [.prepared q l o])
  execute q p w := let (o, v) := ops.execute q p w.1; (o, v, w.2 ++ [.executed q p o])
  fetch q w := let (o, v) := ops.fetch q w.1; (o, v, w.2 ++ [.fetched q o])
  column q i w := let (o, v) := ops.column q i w.1; (o, v, w.2 ++ [.cell q i o])
  close q w := let (o, v) := ops.close q w.1; (o, v, w.2 ++ [.closed q o])
  utc w := let (o, v) := ops.utc w.1; (o, v, w.2 ++ [.sampled o])
  release d w := let (o, v) := ops.release d w.1; (o, v, w.2 ++ [.released d o])

namespace Event

/-- An event between BEGIN and COMMIT that is not a clock sample. -/
def Inner : Event → Prop
  | prepared q _ _ => ¬ q.Bracket
  | executed q _ _ => ¬ q.Bracket
  | fetched _ _ => True
  | cell _ _ _ => True
  | closed _ _ => True
  | _ => False

/-- An inner event or a clock sample. -/
def Working (e : Event) : Prop := e.Inner ∨ ∃ u, e = .sampled u

/-- An event of the time before COMMIT and cleanup. -/
def Early : Event → Prop
  | prepared q _ _ => q ≠ .commit ∧ q ≠ .rollback
  | executed q _ _ => q ≠ .commit ∧ q ≠ .rollback
  | released _ _ => False
  | _ => True

/-- Whether a statement is open after the event. -/
def opens (b : Bool) : Event → Bool
  | prepared _ _ o => decide (o.result = .ok) || o.left || b
  | closed _ o => o.left
  | _ => b

/-- Whether the lease is held after the event. -/
def leases (b : Bool) : Event → Bool
  | acquired _ o => decide (o.result = .ok) || o.left
  | released _ o => o.left
  | _ => b

/-- The event is not a failed cleanup step: the closing of a statement, or ROLLBACK. -/
def CleanupFine : Event → Prop
  | closed _ o => o.result = .ok
  | prepared q _ o => q = .rollback → o.result = .ok
  | executed q _ o => q = .rollback → o.result = .ok ∧ o.execution.hasResult = false
  | _ => True

def sample? : Event → Option Sampled
  | sampled o => some o
  | _ => none

theorem Working.early {e : Event} (h : e.Working) : e.Early := by
  rcases h with h | ⟨u, rfl⟩
  · cases e with
    | prepared q l o => exact ⟨fun hq => h (.inr (.inl hq)), fun hq => h (.inr (.inr hq))⟩
    | executed q p o => exact ⟨fun hq => h (.inr (.inl hq)), fun hq => h (.inr (.inr hq))⟩
    | released d o => exact h
    | _ => trivial
  · trivial

theorem Working.leases {e : Event} (h : e.Working) (b : Bool) : e.leases b = b := by
  rcases h with h | ⟨u, rfl⟩
  · cases e <;> first | rfl | exact h.elim
  · rfl

end Event

/-- A statement is open at the end of the trace. -/
def openStatement (tr : List Event) : Bool := tr.foldl Event.opens false

/-- The lease is held at the end of the trace. -/
def leaseHeld (tr : List Event) : Bool := tr.foldl Event.leases false

/-- No cleanup step of the trace failed. -/
def CleanupFine (tr : List Event) : Prop := ∀ e ∈ tr, e.CleanupFine

/-- The clock samples of the trace. -/
def samples (tr : List Event) : List Sampled := tr.filterMap Event.sample?

/-- The execution of `sql` started. -/
def Started (sql : Sql) (tr : List Event) : Prop :=
  ∃ params x, Event.executed sql params x ∈ tr ∧ x.execution.started = true

/-- The complete success reply of `sql` was received. -/
def Replied (sql : Sql) (tr : List Event) : Prop :=
  ∃ params x, Event.executed sql params x ∈ tr ∧ x.result = .ok ∧ x.execution.hasResult = false

/-- `sql` was sent to be prepared. -/
def Attempted (sql : Sql) (tr : List Event) : Prop := ∃ limits o, Event.prepared sql limits o ∈ tr

variable {sql : Sql} {tr ev : List Event}

theorem started_append : Started sql (tr ++ ev) ↔ Started sql tr ∨ Started sql ev := by
  simp only [Started, mem_append, or_and_right, exists_or]

theorem replied_append : Replied sql (tr ++ ev) ↔ Replied sql tr ∨ Replied sql ev := by
  simp only [Replied, mem_append, or_and_right, exists_or]

theorem openStatement_append (tr ev : List Event) :
    openStatement (tr ++ ev) = ev.foldl Event.opens (openStatement tr) := foldl_append

theorem leaseHeld_append (tr ev : List Event) :
    leaseHeld (tr ++ ev) = ev.foldl Event.leases (leaseHeld tr) := foldl_append

theorem samples_append (tr ev : List Event) : samples (tr ++ ev) = samples tr ++ samples ev :=
  filterMap_append ..

theorem cleanupFine_append : CleanupFine (tr ++ ev) ↔ CleanupFine tr ∧ CleanupFine ev := forall_mem_append

theorem samples_of_inner (h : ∀ e ∈ ev, e.Inner) : samples ev = [] := by
  refine filterMap_eq_nil_iff.mpr fun e he => ?_
  have := h e he
  cases e <;> first | rfl | exact this.elim

theorem leaseHeld_of_neutral (h : ∀ e ∈ ev, ∀ b, e.leases b = b) :
    leaseHeld (tr ++ ev) = leaseHeld tr := by
  rw [leaseHeld_append]
  generalize leaseHeld tr = b
  induction ev with
  | nil => rfl
  | cons e ev ih =>
    rw [foldl_cons, h e mem_cons_self]
    exact ih fun x hx => h x (mem_cons_of_mem _ hx)

namespace Diagnosis

variable (e : Diagnosis) (stage : Stage) (rc : Result) (db : Option DbError)

theorem note_ok (cleanup : Bool) : e.note stage .ok db cleanup = e := if_pos rfl

theorem note_cleanupResult_false : (e.note stage rc db false).cleanupResult = e.cleanupResult := by
  simp only [note, Bool.false_eq_true, false_and, if_false]
  split
  · rfl
  · split <;> rfl

theorem note_cleanupResult_true (h : (e.note stage rc db true).cleanupResult = .ok) :
    e.cleanupResult = .ok ∧ rc = .ok := by
  simp only [note, true_and] at h
  by_cases hrc : rc = .ok
  · rw [if_pos hrc] at h
    exact ⟨h, hrc⟩
  · rw [if_neg hrc] at h
    by_cases he : e.cleanupResult = .ok
    · simp only [if_pos he] at h
      refine absurd ?_ hrc
      split at h <;> exact h
    · simp only [if_neg he] at h
      refine absurd ?_ he
      split at h <;> exact h

end Diagnosis

/-! ## 2. What a trace says about the end of a call -/

namespace Event

/-- The event belongs to the end of a call: ROLLBACK is prepared, or the lease given back. -/
def ends : Event → Bool
  | prepared q _ _ => decide (q = .rollback)
  | released _ _ => true
  | _ => false

/-- A statement is prepared or executed. -/
def IsStatement : Event → Prop
  | prepared _ _ _ => True
  | executed _ _ _ => True
  | _ => False

/-- `sql` is executed. -/
def Runs (sql : Sql) : Event → Prop
  | executed q _ _ => q = sql
  | _ => False

end Event

/-- The part of the trace before the end of the call. -/
def beforeEnd (tr : List Event) : List Event := tr.takeWhile fun e => !e.ends

/-- No statement comes after an execution of COMMIT. -/
def CommitLast (tr : List Event) : Prop := tr.Pairwise fun e e' => e.Runs .commit → ¬ e'.IsStatement

theorem beforeEnd_append (h : ∀ e ∈ tr, e.ends = false) : beforeEnd (tr ++ ev) = tr ++ beforeEnd ev :=
  takeWhile_append_of_pos fun e he => by rw [h e he]; rfl

theorem not_started (h : ∀ e ∈ ev, ¬ e.Runs sql) : ¬ Started sql ev :=
  fun ⟨_, _, hm, _⟩ => h _ hm rfl

theorem not_replied (h : ∀ e ∈ ev, ¬ e.Runs sql) : ¬ Replied sql ev :=
  fun ⟨_, _, hm, _⟩ => h _ hm rfl

theorem append_singleton_split {α : Type} {l : List α} {a b : α} {l₁ l₂ : List α}
    (h : l ++ [a] = l₁ ++ b :: l₂) (hb : b ∉ l) : l₁ = l ∧ b = a := by
  rcases append_eq_append_iff.mp h with ⟨m, e₁, e₂⟩ | ⟨m, e₁, e₂⟩
  · cases m with
    | nil =>
      obtain ⟨rfl, rfl⟩ : b = a ∧ l₂ = [] := by simpa [eq_comm] using e₂
      exact ⟨by simpa using e₁, rfl⟩
    | cons c m =>
      have : (a :: []).length = (c :: m ++ b :: l₂).length := congrArg List.length e₂
      simp at this
  · cases m with
    | nil =>
      obtain ⟨rfl, rfl⟩ : b = a ∧ l₂ = [] := by simpa using e₂
      exact ⟨by simpa using e₁.symm, rfl⟩
    | cons c m =>
      obtain rfl : b = c := by
        have := congrArg List.head? e₂
        simpa using this
      exact absurd (e₁ ▸ mem_append_right _ mem_cons_self) hb

/-- The closing of statements, and nothing else. -/
def Closes (ev : List Event) : Prop := ∀ e ∈ ev, ∃ q o, e = Event.closed q o

theorem Closes.inner (h : Closes ev) : ∀ e ∈ ev, e.Inner := by
  intro e he
  obtain ⟨q, o, rfl⟩ := h e he
  trivial

theorem Closes.neutral (h : Closes ev) :
    ∀ e ∈ ev, e.ends = false ∧ ¬ e.IsStatement ∧ ∀ sql, ¬ e.Runs sql := by
  intro e he
  obtain ⟨q, o, rfl⟩ := h e he
  exact ⟨rfl, id, fun _ => id⟩

theorem early_neutral (h : ∀ e ∈ tr, e.Early) : ∀ e ∈ tr, e.ends = false ∧ ¬ e.Runs .commit := by
  intro e he
  have := h e he
  cases e with
  | prepared q l o => exact ⟨decide_eq_false this.2, id⟩
  | executed q p o => exact ⟨rfl, this.1⟩
  | released d o => exact this.elim
  | _ => exact ⟨rfl, id⟩

theorem not_started_of_working (h : ∀ e ∈ ev, e.Working) : ¬ Started .begin ev := by
  rintro ⟨p, x, hm, -⟩
  rcases h _ hm with h | ⟨u, h⟩
  · exact h (.inl rfl)
  · cases h

/-- What the commit fact means once a call is at its end: what was said is COMMITTED, UNKNOWN, or neither. -/
structure Ended (committed unknown : Prop) (tr : List Event) : Prop where
  unended : ∀ e ∈ tr, e.ends = false
  replied : committed ↔ Replied .commit tr
  started : unknown ↔ Started .commit tr ∧ ¬ Replied .commit tr
  last : CommitLast tr

theorem ended_of_early (h : ∀ e ∈ tr, e.Early) {committed unknown : Prop} (hc : ¬ committed)
    (hu : ¬ unknown) : Ended committed unknown tr := by
  have hn := early_neutral h
  refine ⟨fun e he => (hn e he).1, ⟨fun h => absurd h hc, fun hr => ?_⟩, ⟨fun h => absurd h hu, fun hr => ?_⟩,
    pairwise_of_forall_mem_list fun e he _ _ hc => absurd hc (hn e he).2⟩
  · exact absurd hr (not_replied fun e he => (hn e he).2)
  · exact absurd hr.1 (not_started fun e he => (hn e he).2)

/-- An event after ROLLBACK was prepared: its execution, or the closing of a statement. -/
def RollbackTail (e : Event) : Prop := (∃ x, e = .executed .rollback [] x) ∨ ∃ q o, e = .closed q o

theorem RollbackTail.neutral {e : Event} (h : RollbackTail e) :
    (∀ b, e.leases b = b) ∧ e.ends = false ∧ ∀ sql, sql ≠ .rollback → ¬ e.Runs sql := by
  rcases h with ⟨x, rfl⟩ | ⟨q, o, rfl⟩
  · exact ⟨fun _ => rfl, rfl, fun _ hq h => hq h.symm⟩
  · exact ⟨fun _ => rfl, rfl, fun _ _ => id⟩

/-- The events of the rollback: none when it is not due, else ROLLBACK and its tail. -/
def Rolls (limits : Limits) (due : Prop) (er : List Event) : Prop :=
  (er = [] ∧ ¬ due) ∨ (due ∧ ∃ o ev, er = .prepared .rollback limits o :: ev ∧ ∀ e ∈ ev, RollbackTail e)

variable {limits : Limits}

theorem Rolls.neutral {due : Prop} {er : List Event} (h : Rolls limits due er) :
    (∀ e ∈ er, ∀ b, e.leases b = b) ∧ (∀ e ∈ er, ∀ sql, sql ≠ .rollback → ¬ e.Runs sql) ∧
      ∀ d r, Event.released d r ∉ er := by
  rcases h with ⟨rfl, -⟩ | ⟨-, o, ev, rfl, hev⟩
  · exact ⟨forall_mem_nil _, forall_mem_nil _, fun _ _ => not_mem_nil⟩
  refine ⟨forall_mem_cons.mpr ⟨fun _ => rfl, fun e he => (hev e he).neutral.1⟩,
    forall_mem_cons.mpr ⟨fun _ _ => id, fun e he => (hev e he).neutral.2.2⟩, fun d r hm => ?_⟩
  rcases mem_cons.mp hm with hm | hm
  · cases hm
  · exact Bool.false_ne_true (hev _ hm).neutral.2.1.symm

/-- The events of the release: none, or the lease is given back with no open statement, for further use only
    after a confirmed end. -/
def Releases (ended : Prop) (fine : List Event → Prop) (before el : List Event) : Prop :=
  el = [] ∨ ∃ d r, el = [.released d r] ∧ openStatement before = false ∧ (d = .recycle → ended ∧ fine before)

section Releases

variable {ended : Prop} {fine : List Event → Prop} {before el : List Event}

theorem Releases.neutral (h : Releases ended fine before el) :
    ∀ e ∈ el, ¬ e.IsStatement ∧ ∀ sql, ¬ e.Runs sql := by
  rcases h with rfl | ⟨d, r, rfl, -⟩
  · exact forall_mem_nil _
  · exact forall_mem_singleton.mpr ⟨id, fun _ => id⟩

theorem Releases.split (h : Releases ended fine before el) (hb : ∀ d r, Event.released d r ∉ before)
    {pre post : List Event} {d : Disposition} {r : ReleaseReply} (e : before ++ el = pre ++ .released d r :: post) :
    pre = before ∧ openStatement before = false ∧ (d = .recycle → ended ∧ fine before) := by
  rcases h with rfl | ⟨d', r', rfl, hopen, hrec⟩
  · rw [List.append_nil] at e
    exact absurd (e ▸ mem_append_right _ mem_cons_self) (hb d r)
  · obtain ⟨rfl, hdr⟩ := append_singleton_split e (hb d r)
    cases hdr
    exact ⟨rfl, hopen, hrec⟩

end Releases

/-- **What the whole trace of a call says** about COMMIT, ROLLBACK and the lease. -/
structure EndFacts (committed unknown : Prop) (fine : List Event → Prop) (tr : List Event) : Prop where
  replied : committed ↔ Replied .commit tr
  started : unknown ↔ Started .commit tr ∧ ¬ Replied .commit tr
  rollback : ¬ (committed ∨ unknown) → ¬ Started .commit tr ∧
    (Attempted .rollback tr ↔ Started .begin tr ∧ openStatement (beforeEnd tr) = false)
  last : committed ∨ unknown → CommitLast tr ∧ ¬ Attempted .rollback tr
  release : ∀ pre d r post, tr = pre ++ .released d r :: post →
    openStatement pre = false ∧ (d = .recycle → (Replied .commit pre ∨ Replied .rollback pre) ∧ fine pre)

/-- **The end of a call**: statements are closed, ROLLBACK is tried when it is due, the lease is given back. -/
theorem endFacts {fine : List Event → Prop} {committed unknown : Prop}
    {ec er el all : List Event} (h : Ended committed unknown tr) (hall : all = tr ++ ec ++ er ++ el) (hec : Closes ec)
    (her : Rolls limits (Started .begin tr ∧ ¬ (committed ∨ unknown) ∧ openStatement (tr ++ ec) = false) er)
    (hel : Releases (committed ∨ Replied .rollback er) fine (tr ++ ec ++ er) el) :
    EndFacts committed unknown fine all := by
  have hruns : ∀ sql, sql ≠ .rollback → ∀ e ∈ ec ++ er ++ el, ¬ e.Runs sql := fun sql hq =>
    forall_mem_append.mpr ⟨forall_mem_append.mpr ⟨fun e he => (hec.neutral e he).2.2 sql,
      fun e he => her.neutral.2.1 e he sql hq⟩, fun e he => (hel.neutral e he).2 sql⟩
  have hassoc : all = tr ++ (ec ++ er ++ el) := by
    simp only [hall, append_assoc]
  have hreplied : Replied .commit all ↔ Replied .commit tr := by
    rw [hassoc, replied_append]
    exact or_iff_left (not_replied (hruns .commit (by decide)))
  have hstarted : ∀ sql, sql ≠ .rollback → (Started sql all ↔ Started sql tr) := by
    intro sql hq
    rw [hassoc, started_append]
    exact or_iff_left (not_started (hruns sql hq))
  have hunended : ∀ e ∈ tr ++ ec, e.ends = false :=
    forall_mem_append.mpr ⟨h.unended, fun e he => (hec.neutral e he).1⟩
  have hno : ∀ d r, .released d r ∉ tr ++ ec := fun d r hm => Bool.false_ne_true (hunended _ hm).symm
  have hnoroll : ∀ l p, .prepared .rollback l p ∉ tr ++ ec := fun l p hm =>
    Bool.false_ne_true (hunended _ hm).symm
  have hcut : beforeEnd all = tr ++ ec := by
    rw [hall, append_assoc (tr ++ ec), beforeEnd_append hunended]
    rcases her with ⟨rfl, -⟩ | ⟨-, p, ev, rfl, -⟩
    · rcases hel with rfl | ⟨d, r, rfl, -⟩ <;> exact List.append_nil _
    · exact List.append_nil _
  have hatt : Attempted .rollback all ↔ er ≠ [] := by
    rw [hall]
    constructor
    · rintro ⟨l, p, hm⟩ rfl
      rcases mem_append.mp hm with hm | hm
      · rw [List.append_nil] at hm
        exact hnoroll l p hm
      · exact (hel.neutral _ hm).1 trivial
    · intro hne
      rcases her with ⟨rfl, -⟩ | ⟨-, p, ev, rfl, -⟩
      · exact absurd rfl hne
      · exact ⟨limits, p, mem_append_left _ (mem_append_right _ mem_cons_self)⟩
  refine ⟨h.replied.trans hreplied.symm, ?_, fun hk => ⟨?_, ?_⟩, fun hk => ?_, fun pre d r post e => ?_⟩
  · rw [hreplied, hstarted .commit (by decide)]
    exact h.started
  · rw [hstarted .commit (by decide)]
    intro hs
    by_cases hr : Replied .commit tr
    · exact hk (.inl (h.replied.mpr hr))
    · exact hk (.inr (h.started.mpr ⟨hs, hr⟩))
  · rw [hatt, hstarted .begin (by decide), hcut]
    rcases her with ⟨rfl, hno⟩ | ⟨⟨hb, -, ho⟩, p, ev, rfl, -⟩
    · exact ⟨fun h => absurd rfl h, fun h => absurd ⟨h.1, hk, h.2⟩ hno⟩
    · exact ⟨fun _ => ⟨hb, ho⟩, fun _ => cons_ne_nil _ _⟩
  · obtain rfl : er = [] := by
      rcases her with ⟨e, -⟩ | ⟨⟨-, hc, -⟩, -⟩
      · exact e
      · exact absurd hk hc
    have hquiet : ∀ e ∈ ec ++ [] ++ el, ¬ e.IsStatement := forall_mem_append.mpr
      ⟨fun e he => (hec.neutral e (List.append_nil ec ▸ he)).2.1, fun e he => (hel.neutral e he).1⟩
    refine ⟨?_, fun ha => absurd rfl (hatt.mp ha)⟩
    rw [hassoc]
    exact pairwise_append.mpr ⟨h.last, pairwise_of_forall_mem_list fun _ _ e he _ => hquiet e he,
      fun _ _ e he _ => hquiet e he⟩
  · rw [hall] at e
    obtain ⟨rfl, hopen, hrec⟩ := hel.split (fun d r hm =>
      (mem_append.mp hm).elim (hno d r) (her.neutral.2.2 d r)) e
    refine ⟨hopen, fun hd => (hrec hd).imp_left fun hended => ?_⟩
    refine hended.imp (fun hc => ?_) fun hr => replied_append.mpr (.inr hr)
    exact replied_append.mpr (.inl (replied_append.mpr (.inl (h.replied.mp hc))))

/-! ## 3. Steps that add events -/

section Steps

variable {W I : Type}

/-- The trace so far. -/
def trace (s : Call (W × List Event) I) : List Event := s.world.2

/-- A step that adds the events `ev`, opens and closes statements as they say, and leaves lease and
    transaction alone. -/
structure Adds (ev : List Event) (s s' : Call (W × List Event) I) : Prop where
  extends' : trace s' = trace s ++ ev
  statement : s'.statement.isSome = ev.foldl Event.opens s.statement.isSome
  lease : s'.lease = s.lease
  transaction : s'.transaction = s.transaction

section Adds

variable {a b c s s' : Call (W × List Event) I} {ev ev' : List Event}

theorem Adds.refl (s : Call (W × List Event) I) : Adds [] s s := ⟨(List.append_nil _).symm, rfl, rfl, rfl⟩

theorem Adds.trans (h : Adds ev a b) (k : Adds ev' b c) : Adds (ev ++ ev') a c := by
  refine ⟨?_, ?_, k.lease.trans h.lease, k.transaction.trans h.transaction⟩
  · rw [k.extends', h.extends', append_assoc]
  · rw [k.statement, h.statement, foldl_append]

theorem Adds.quiet (h : Adds ev s s') {t : Call (W × List Event) I} (hw : t.world = s'.world)
    (hs : t.statement = s'.statement) (hl : t.lease = s'.lease) (ht : t.transaction = s'.transaction) :
    Adds ev s t := by
  refine ⟨?_, ?_, hl.trans h.lease, ht.trans h.transaction⟩
  · rw [← h.extends']
    exact congrArg Prod.snd hw
  · rw [hs]
    exact h.statement

theorem Adds.agrees (h : Adds ev s s') (hs : s.statement.isSome = openStatement (trace s)) :
    s'.statement.isSome = openStatement (trace s') := by
  rw [h.statement, h.extends', openStatement_append, hs]

theorem Adds.leases (h : Adds ev s s') (hl : ∀ e ∈ ev, ∀ b, e.leases b = b) (hs : s.lease = leaseHeld (trace s)) :
    s'.lease = leaseHeld (trace s') := by
  rw [h.lease, h.extends', leaseHeld_of_neutral hl, hs]

end Adds

section Succeed

variable {s s' : Call W I} {rc : Result} {Q : Unit → Call W I → Prop} {E : Failure → Call W I → Prop}
  (hq : rc = .ok → Q () s) (he : ∀ h : rc ≠ .ok, E ⟨rc, h⟩ s)
include hq he

theorem wp_succeed : Prog.wp (succeed rc) Q E s := by
  unfold succeed
  split
  · exact Prog.wp_pure.mpr (hq ‹_›)
  · exact Prog.wp_fail.mpr (he ‹_›)

theorem wp_ran {m : Prog Failure (Call W I) Unit} (hrun : m s' = succeed rc s) : Prog.wp m Q E s' :=
  (Prog.wp_congr hrun).mpr (wp_succeed hq he)

end Succeed

theorem wp_ran_pure {α : Type} {m : Prog Failure (Call W I) α} {s s' : Call W I} {rc : Result} {a : α}
    {Q : α → Call W I → Prop} {E : Failure → Call W I → Prop} (hq : rc = .ok → Q a s)
    (he : ∀ h : rc ≠ .ok, E ⟨rc, h⟩ s) (hrun : m s' = (succeed rc >>= fun _ => pure a) s) : Prog.wp m Q E s' :=
  (Prog.wp_congr hrun).mpr (Prog.wp_bind.mpr (wp_succeed (fun hok => Prog.wp_pure.mpr (hq hok)) he))

theorem isSome_prepared (o : Prepared) (sql : Sql) (held : Option Sql) :
    Option.isSome (if o.result = .ok ∨ o.left then some sql else held) =
      (decide (o.result = .ok) || o.left || held.isSome) := by
  by_cases ho : o.result = .ok ∨ o.left = true
  · rw [if_pos ho]
    rcases ho with ho | ho <;> simp [ho]
  · rw [if_neg ho]
    rw [not_or] at ho
    simp [ho.1, ho.2]

variable (ops : Ops W)

theorem closeStatement_adds (s : Call (W × List Event) I) :
    ∃ ev, Closes ev ∧ Adds ev s (closeStatement ops.traced s).2 := by
  unfold closeStatement
  cases hs : s.statement with
  | none => exact ⟨[], forall_mem_nil _, .refl s⟩
  | some sql =>
    dsimp only
    rw [succeed_state]
    refine ⟨[.closed sql (ops.close sql s.world.1).1], forall_mem_singleton.mpr ⟨sql, _, rfl⟩, rfl, ?_, rfl, rfl⟩
    show Option.isSome (if (ops.close sql s.world.1).1.left then some sql else none) =
      (ops.close sql s.world.1).1.left
    cases (ops.close sql s.world.1).1.left <;> rfl

end Steps

/-! ## 4. A command -/

section Commands

variable {W I : Type} (ops : Ops W) (limits : Limits) (sql : Sql) (params : List Param) (stage : Stage)
  (insert cleanup : Bool) (s : Call (W × List Event) I)

/-- How a command is prepared. -/
def preparedBy : Prepared := (ops.prepare sql limits s.world.1).1

/-- How it is executed, once it is prepared. -/
def executedBy : Executed := (ops.execute sql params (ops.prepare sql limits s.world.1).2).1

/-- The calls of a command in front of its closing. -/
def commandEvents : List Event :=
  .prepared sql limits (preparedBy ops limits sql s) ::
    if (preparedBy ops limits sql s).result = .ok then [.executed sql params (executedBy ops limits sql params s)]
    else []

/-- The command was answered completely. -/
def Answered : Prop :=
  (preparedBy ops limits sql s).result = .ok ∧ (executedBy ops limits sql params s).result = .ok ∧
    (executedBy ops limits sql params s).execution.misshapen insert = false

section Remap

variable {remap : Result → Result} (hremap : ∀ rc, remap rc = .ok ↔ rc = .ok)

include hremap

theorem prepareExecute_adds : Adds (commandEvents ops limits sql params s) s
        (prepareExecute ops.traced remap limits sql params stage cleanup s).2 ∧
      (prepareExecute ops.traced remap limits sql params stage cleanup s).1 =
        if (preparedBy ops limits sql s).result = .ok then
          (remap (executedBy ops limits sql params s).result, (executedBy ops limits sql params s).execution)
        else (remap (preparedBy ops limits sql s).result, {}) := by
  have hopen := isSome_prepared (preparedBy ops limits sql s) sql s.statement
  unfold prepareExecute commandEvents
  by_cases ho : (preparedBy ops limits sql s).result = .ok
  · have hfirst : (prepareSql ops.traced remap limits sql stage cleanup s).1 = .ok := (hremap _).mpr ho
    simp only [if_pos hfirst, if_pos ho]
    refine ⟨⟨?_, hopen, rfl, rfl⟩, rfl⟩
    exact append_assoc (trace s) [_] [_]
  · have hfirst : ¬ (prepareSql ops.traced remap limits sql stage cleanup s).1 = .ok := fun h => ho ((hremap _).mp h)
    simp only [if_neg hfirst, if_neg ho]
    exact ⟨⟨rfl, hopen, rfl, rfl⟩, rfl⟩

theorem command_adds : ∃ ev, Closes ev ∧ Adds (commandEvents ops limits sql params s ++ ev) s
        (command ops.traced remap limits sql params stage insert cleanup s).2 := by
  let run := prepareExecute ops.traced remap limits sql params stage cleanup s
  let bad := decide (run.1.1 = .ok) && run.1.2.misshapen insert
  obtain ⟨hadds, -⟩ := prepareExecute_adds ops limits sql params stage cleanup s hremap
  obtain ⟨ev, hev, hclose⟩ := closeStatement_adds ops
    (if bad then run.2.diagnose stage .database none cleanup else run.2)
  refine ⟨ev, hev, .trans ?_ hclose⟩
  split
  · exact hadds.quiet rfl rfl rfl rfl
  · exact hadds

theorem command_reply :
    let r := command ops.traced remap limits sql params stage insert cleanup s
    r.1.execution =
        (if (preparedBy ops limits sql s).result = .ok then (executedBy ops limits sql params s).execution else {}) ∧
      (r.1.replied = true ↔ Answered ops limits sql params insert s) ∧ (r.1.result = .ok → r.1.replied = true) := by
  let run := prepareExecute ops.traced remap limits sql params stage cleanup s
  let bad := decide (run.1.1 = .ok) && run.1.2.misshapen insert
  intro r
  obtain ⟨-, hrun⟩ := prepareExecute_adds ops limits sql params stage cleanup s hremap
  replace hrun : run.1 = _ := hrun
  have hreplied : r.1.replied = decide ((if bad then Result.database else run.1.1) = .ok) := rfl
  have hresult : r.1.result = .ok → r.1.replied = true := by
    intro h
    rw [hreplied, decide_eq_true_eq]
    by_contra hne
    exact hne ((Result.first_of_ne hne _).symm.trans h)
  by_cases ho : (preparedBy ops limits sql s).result = .ok
  · rw [if_pos ho] at hrun
    refine ⟨?_, ?_, hresult⟩
    · show run.1.2 = _
      rw [hrun, if_pos ho]
    · have hbad : bad = (decide (remap (executedBy ops limits sql params s).result = .ok) &&
          (executedBy ops limits sql params s).execution.misshapen insert) := by
        show (decide (run.1.1 = .ok) && run.1.2.misshapen insert) = _
        rw [hrun]
      rw [hreplied, hbad, hrun]
      unfold Answered
      by_cases hx : (executedBy ops limits sql params s).result = .ok
      · cases hm : (executedBy ops limits sql params s).execution.misshapen insert <;>
          simp [ho, hx, (hremap .ok).mpr rfl]
      · cases hm : (executedBy ops limits sql params s).execution.misshapen insert <;> simp [hx, hremap]
  · rw [if_neg ho] at hrun
    have hfailed : remap (preparedBy ops limits sql s).result ≠ .ok := fun h => ho ((hremap _).mp h)
    refine ⟨?_, ?_, hresult⟩
    · show run.1.2 = _
      rw [hrun, if_neg ho]
    · have hbad : bad = false := by
        show (decide (run.1.1 = .ok) && run.1.2.misshapen insert) = _
        rw [hrun, decide_eq_false hfailed, Bool.false_and]
      rw [hreplied, hbad, hrun]
      simp [Answered, ho, hfailed]

end Remap

variable {s} {ev : List Event} (hc : Closes ev)

include hc

theorem command_leases : ∀ e ∈ commandEvents ops limits sql params s ++ ev, ∀ b, e.leases b = b := by
  refine forall_mem_append.mpr ⟨forall_mem_cons.mpr ⟨fun _ => rfl, ?_⟩, fun e he => ?_⟩
  · split
    · exact forall_mem_singleton.mpr fun _ => rfl
    · exact forall_mem_nil _
  · obtain ⟨q, o, rfl⟩ := hc e he
    exact fun _ => rfl

theorem command_early (hcommit : sql ≠ .commit) (hrollback : sql ≠ .rollback) :
    ∀ e ∈ commandEvents ops limits sql params s ++ ev, e.Early := by
  refine forall_mem_append.mpr ⟨forall_mem_cons.mpr ⟨⟨hcommit, hrollback⟩, ?_⟩, fun e he => ?_⟩
  · split
    · exact forall_mem_singleton.mpr ⟨hcommit, hrollback⟩
    · exact forall_mem_nil _
  · obtain ⟨q, o, rfl⟩ := hc e he
    trivial

theorem command_samples : samples (commandEvents ops limits sql params s ++ ev) = [] := by
  rw [samples_append, samples_of_inner hc.inner, List.append_nil]
  unfold commandEvents
  split <;> rfl

theorem executed_command {q : Sql} {ps : List Param} {x : Executed} :
    Event.executed q ps x ∈ commandEvents ops limits sql params s ++ ev ↔
      q = sql ∧ ps = params ∧ x = executedBy ops limits sql params s ∧ (preparedBy ops limits sql s).result = .ok := by
  have hclose : Event.executed q ps x ∉ ev := fun hm => by
    obtain ⟨_, _, e⟩ := hc _ hm
    cases e
  unfold commandEvents
  rw [mem_append, mem_cons]
  constructor
  · rintro ((h | h) | h)
    · cases h
    · split at h
      · cases mem_singleton.mp h
        exact ⟨rfl, rfl, rfl, ‹_›⟩
      · cases h
    · exact absurd h hclose
  · rintro ⟨rfl, rfl, rfl, ho⟩
    rw [if_pos ho]
    exact .inl (.inr mem_cons_self)

theorem started_command (q : Sql) :
    Started q (commandEvents ops limits sql params s ++ ev) ↔ q = sql ∧ (preparedBy ops limits sql s).result = .ok ∧
      (executedBy ops limits sql params s).execution.started = true := by
  constructor
  · rintro ⟨ps, x, hm, hx⟩
    obtain ⟨rfl, rfl, rfl, ho⟩ := (executed_command ops limits sql params hc).mp hm
    exact ⟨rfl, ho, hx⟩
  · rintro ⟨rfl, ho, hx⟩
    exact ⟨params, _, (executed_command ops limits q params hc).mpr ⟨rfl, rfl, rfl, ho⟩, hx⟩

theorem replied_command (q : Sql) :
    Replied q (commandEvents ops limits sql params s ++ ev) ↔ q = sql ∧ Answered ops limits sql params false s := by
  have hshape : ∀ ex : Execution, ex.misshapen false = ex.hasResult := fun ex => by simp [Execution.misshapen]
  constructor
  · rintro ⟨ps, x, hm, hx, hshaped⟩
    obtain ⟨rfl, rfl, rfl, ho⟩ := (executed_command ops limits sql params hc).mp hm
    exact ⟨rfl, ho, hx, (hshape _).trans hshaped⟩
  · rintro ⟨rfl, ho, hx, hshaped⟩
    exact ⟨params, _, (executed_command ops limits q params hc).mpr ⟨rfl, rfl, rfl, ho⟩, hx,
      (hshape _).symm.trans hshaped⟩

omit hc in
/-- A command whose reply is complete, or that started without one, in the trace that it leaves. -/
theorem command_shown {remap : Result → Result} (hremap : ∀ rc, remap rc = .ok ↔ rc = .ok)
    (s : Call (W × List Event) I) :
    let r := command ops.traced remap limits sql params stage false cleanup s
    (¬ Replied sql (trace s) → (Replied sql (trace r.2) ↔ r.1.replied = true)) ∧
      (¬ Started sql (trace s) → (Started sql (trace r.2) ↔ r.1.execution.started = true)) := by
  obtain ⟨ev, hc, hadds⟩ := command_adds ops limits sql params stage false cleanup s hremap
  obtain ⟨hex, hrep, -⟩ := command_reply ops limits sql params stage false cleanup s hremap
  refine ⟨fun hr => ?_, fun hs => ?_⟩
  · rw [hadds.extends', replied_append, replied_command ops limits sql params hc sql, hrep]
    simp [hr]
  · rw [hadds.extends', started_append, started_command ops limits sql params hc sql, hex]
    split <;> simp_all

theorem rolls_command {due : Prop} (hdue : due) :
    Rolls limits due (commandEvents ops limits .rollback [] s ++ ev) := by
  refine .inr ⟨hdue, preparedBy ops limits .rollback s, _, rfl,
    forall_mem_append.mpr ⟨?_, fun e he => .inr (hc e he)⟩⟩
  split
  · exact forall_mem_singleton.mpr (.inl ⟨_, rfl⟩)
  · exact forall_mem_nil _

end Commands

/-! ## 5. COMMIT and the release of the lease -/

section Ends

variable {W I : Type} (ops : Ops W) (s : Call (W × List Event) I)

theorem ended_commit {remap : Result → Result} (hremap : ∀ rc, remap rc = .ok ↔ rc = .ok) (limits : Limits)
    (h : ∀ e ∈ trace s, e.Early) :
    let r := command ops.traced remap limits .commit [] .commit false false s
    Ended (r.1.replied = true) (r.1.execution.started = true ∧ r.1.replied = false) (trace r.2) ∧
      (Started .begin (trace r.2) ↔ Started .begin (trace s)) := by
  intro r
  have hn := early_neutral h
  obtain ⟨ev, hc, hadds⟩ := command_adds ops limits .commit [] .commit false false s hremap
  obtain ⟨hrep, hst⟩ := command_shown ops limits .commit [] .commit false hremap s
  replace hrep := hrep (not_replied fun e he => (hn e he).2)
  replace hst := hst (not_started fun e he => (hn e he).2)
  have hends : ∀ e ∈ commandEvents ops limits .commit [] s ++ ev, e.ends = false := by
    refine forall_mem_append.mpr ⟨forall_mem_cons.mpr ⟨rfl, ?_⟩, fun e he => (hc.neutral e he).1⟩
    split
    · exact forall_mem_singleton.mpr rfl
    · exact forall_mem_nil _
  refine ⟨⟨?_, ?_, ?_, ?_⟩, ?_⟩
  · rw [hadds.extends']
    exact forall_mem_append.mpr ⟨fun e he => (hn e he).1, hends⟩
  · rw [hrep]
  · rw [hrep, hst, Bool.not_eq_true]
  · rw [hadds.extends']
    refine pairwise_append.mpr ⟨(ended_of_early h id id).last, ?_, fun e he _ _ hk => absurd hk (hn e he).2⟩
    refine pairwise_append.mpr ⟨?_, ?_, fun _ _ e' he' _ => (hc.neutral e' he').2.1⟩
    · unfold commandEvents
      refine pairwise_cons.mpr ⟨fun _ _ hk => hk.elim, ?_⟩
      split
      · exact pairwise_singleton _ _
      · exact List.Pairwise.nil
    · exact pairwise_of_forall_mem_list fun _ _ e' he' _ => (hc.neutral e' he').2.1
  · rw [hadds.extends', started_append, started_command ops limits .commit [] hc .begin]
    simp

theorem releaseLease_trace (healthy : Bool) (rc : Result) (hs : s.statement.isSome = openStatement (trace s))
    (hl : s.lease = leaseHeld (trace s)) {ended : Prop} {fine : List Event → Prop}
    (hh : healthy = true → ended ∧ fine (trace s)) :
    let r := releaseLease ops.traced healthy rc s
    (∃ el, trace r.2 = trace s ++ el ∧ Releases ended fine (trace s) el) ∧
      r.2.statement.isSome = openStatement (trace r.2) ∧ r.2.lease = leaseHeld (trace r.2) ∧
      r.2.issue = s.issue ∧ (r.1 = .ok → rc = .ok) := by
  intro r
  by_cases hc : s.statement = none ∧ s.lease = true
  · let d : Disposition := if healthy then .recycle else .discard
    let o := (ops.release d s.world.1).1
    let s' : Call (W × List Event) I := { s with
      world := ((ops.release d s.world.1).2, s.world.2 ++ [Event.released d o])
      lease := o.left
      connection := s.connection && !o.released }
    have hr : r = (rc.first o.result, s'.diagnose .release o.result none true) := if_pos hc
    have hopen : openStatement (trace s) = false := by
      rw [← hs, hc.1]
      rfl
    rw [hr]
    refine ⟨⟨[.released d o], rfl, .inr ⟨d, o, rfl, hopen, fun hd => hh ?_⟩⟩, ?_, ?_, rfl, fun h => ?_⟩
    · by_contra hk
      exact absurd ((if_neg hk).symm.trans hd) (by decide)
    · show s.statement.isSome = openStatement (trace s ++ [.released d o])
      rw [openStatement_append, hs]
      rfl
    · show o.left = leaseHeld (trace s ++ [.released d o])
      rw [leaseHeld_append]
      rfl
    · by_contra hne
      exact hne ((Result.first_of_ne hne _).symm.trans h)
  · have hr : r = (rc, s) := if_neg hc
    rw [hr]
    exact ⟨⟨[], (List.append_nil _).symm, .inl rfl⟩, hs, hl, rfl, id⟩

end Ends

end Vireo.Persistence
