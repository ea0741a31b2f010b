/-
  File:      Vireo/Persistence/User/Trace.lean
  Subject:   THE STEPS OF THE USER REPOSITORY BY THE DEPENDENCY CALLS THEY MAKE.
-/
import Vireo.Persistence.Trace
import Vireo.Persistence.User.Entry

namespace Vireo.Persistence.User

open Lib Prog List
open Diagnosis (note note_ok)

variable {W I α β ε : Type}

/-! ## 1. Between BEGIN and COMMIT -/

section Worked

variable {s s' : Call (W × List Event) I}

/-- Between BEGIN and COMMIT. -/
def Worked (s s' : Call (W × List Event) I) : Prop := ∃ ev, Adds ev s s' ∧ ∀ e ∈ ev, e.Inner

theorem Worked.refl (s : Call (W × List Event) I) : Worked s s := ⟨[], .refl s, forall_mem_nil _⟩

theorem Worked.trans (a b c : Call (W × List Event) I) (h : Worked a b) (k : Worked b c) : Worked a c := by
  obtain ⟨ev, h, hev⟩ := h
  obtain ⟨ev', k, hev'⟩ := k
  exact ⟨ev ++ ev', h.trans k, forall_mem_append.mpr ⟨hev, hev'⟩⟩

theorem Worked.quiet (hw : s'.world = s.world) (hs : s'.statement = s.statement) (hl : s'.lease = s.lease)
    (ht : s'.transaction = s.transaction) : Worked s s' :=
  ⟨[], (Adds.refl s).quiet hw hs hl ht, forall_mem_nil _⟩

theorem Worked.event (s : Call (W × List Event) I) (w : W) {e : Event} (he : e.Inner) (ho : ∀ b, e.opens b = b) :
    Worked s { s with world := (w, s.world.2 ++ [e]) } :=
  ⟨[e], ⟨rfl, (ho _).symm, rfl, rfl⟩, forall_mem_singleton.mpr he⟩

end Worked

/-! ## 2. The helpers between BEGIN and COMMIT -/

section Helpers

variable (ops : Ops W) {p : Prog ε (Call (W × List Event) I) α} {f : α → Prog ε (Call (W × List Event) I) β}
  {sql : Sql} {q : Reading (W × List Event) I α}

theorem worked_pure (a : α) : Keeps Worked (pure a : Prog ε (Call (W × List Event) I) α) := Keeps.pure Worked.refl a

theorem worked_fail (e : ε) : Keeps Worked (Prog.fail e : Prog ε (Call (W × List Event) I) α) :=
  Keeps.fail Worked.refl e

theorem worked_bind (hp : Keeps Worked p) (hf : ∀ a, Keeps Worked (f a)) : Keeps Worked (p >>= f) :=
  Keeps.bind Worked.trans hp hf

theorem worked_ite {c : Prop} [Decidable c] {q : Prog ε (Call (W × List Event) I) α} (hp : Keeps Worked p)
    (hq : Keeps Worked q) : Keeps Worked (if c then p else q) := by
  split
  · exact hp
  · exact hq

theorem worked_succeed (rc : Result) : Keeps Worked (succeed rc : Step (W × List Event) I Unit) := by
  unfold succeed
  split
  · exact worked_pure ()
  · exact worked_fail _

theorem worked_passed (rc : Result) (db : DbError) :
    Keeps Worked (passed rc db : Reading (W × List Event) I Unit) := by
  unfold passed
  split
  · exact worked_pure ()
  · exact worked_fail _

theorem worked_closeStatement : Keeps Worked (closeStatement ops.traced : Step (W × List Event) I Unit) := by
  intro s
  obtain ⟨ev, hc, h⟩ := closeStatement_adds ops s
  exact ⟨ev, h, hc.inner⟩

theorem worked_readPrepare (limits : Limits) (hq : ¬ sql.Bracket) :
    Keeps Worked (readPrepare ops.traced limits sql : Reading (W × List Event) I Unit) := by
  intro s
  refine .trans _ _ _ ?_ (worked_passed _ _ _)
  refine ⟨[.prepared sql limits (ops.prepare sql limits s.world.1).1], ⟨rfl, ?_, rfl, rfl⟩,
    forall_mem_singleton.mpr hq⟩
  exact isSome_prepared _ sql s.statement

theorem worked_readExecute (hq : ¬ sql.Bracket) (params : List Param) :
    Keeps Worked (readExecute ops.traced sql params : Reading (W × List Event) I Executed) := by
  intro s
  let o := ops.execute sql params s.world.1
  refine .trans _ _ _ (.event s o.2 (e := .executed sql params o.1) hq fun _ => rfl) ?_
  exact (worked_bind (worked_passed _ _) fun _ => worked_pure _) _

theorem worked_readFetch (sql : Sql) :
    Keeps Worked (readFetch ops.traced sql : Reading (W × List Event) I FetchReply) := by
  intro s
  let o := ops.fetch sql s.world.1
  refine .trans _ _ _ (.event s o.2 (e := .fetched sql o.1) trivial fun _ => rfl) ?_
  exact (worked_bind (worked_passed _ _) fun _ => worked_pure _) _

theorem worked_readColumn (sql : Sql) (db : DbError) (i : Nat) :
    Keeps Worked (readColumn ops.traced sql db i : Reading (W × List Event) I Cell) := by
  intro s
  have h := Worked.event s (ops.column sql i s.world.1).2
    (e := .cell sql i (ops.column sql i s.world.1).1) trivial fun _ => rfl
  rw [readColumn]
  split
  · exact h
  · exact h

theorem worked_readCells (sql : Sql) (db : DbError) (n : Nat) :
    ∀ i, Keeps Worked (readCells ops.traced sql db i n : Reading (W × List Event) I (List Cell)) := by
  induction n with
  | zero => exact fun _ => worked_pure _
  | succ n ih =>
    exact fun i => worked_bind (worked_readColumn ops sql db i) fun _ =>
      worked_bind (ih (i + 1)) fun _ => worked_pure _

theorem worked_readNumbers (sql : Sql) (nullable : Option Nat) (db : DbError) (n : Nat) :
    ∀ i, Keeps Worked (readNumbers ops.traced sql nullable db i n :
      Reading (W × List Event) I (Option (List (Option UInt64)))) := by
  induction n with
  | zero => exact fun _ => worked_pure _
  | succ n ih =>
    intro i
    refine worked_bind (worked_readColumn ops sql db i) fun c => ?_
    split
    · exact worked_pure _
    · exact worked_bind (ih (i + 1)) fun _ => worked_pure _

theorem worked_malformed (issue : Option I) (db : DbError) :
    Keeps Worked (malformed issue db : Reading (W × List Event) I α) := fun _ => .quiet rfl rfl rfl rfl

theorem worked_rejected (issue : Option I) (f : Failure) (db : DbError) :
    Keeps Worked (rejected issue f db : Reading (W × List Event) I α) := fun _ => .quiet rfl rfl rfl rfl

theorem worked_refuseWith (stage : Stage) (issue : Option I) (f : Failure) :
    Keeps Worked (refuseWith stage issue f : Step (W × List Event) I α) := fun _ => .quiet rfl rfl rfl rfl

theorem worked_readUnique (limits : Limits) (hq : ¬ sql.Bracket) (params : List Param) (absent bad : Option I)
    {row : DbError → Reading (W × List Event) I (Option β)} (hrow : ∀ db, Keeps Worked (row db)) :
    Keeps Worked (readUnique ops.traced limits sql params absent bad row) := by
  refine worked_bind (worked_readPrepare ops limits hq) fun _ => ?_
  refine worked_bind (worked_readExecute ops hq params) fun x => ?_
  refine worked_ite (worked_malformed _ _) (worked_bind (worked_readFetch ops sql) fun o => ?_)
  cases o.outcome with
  | done => exact worked_rejected _ _ _
  | other => exact worked_malformed _ _
  | row =>
    refine worked_bind (hrow o.error) fun r => ?_
    cases r with
    | none => exact worked_malformed _ _
    | some v =>
      refine worked_bind (worked_readFetch ops sql) fun o => ?_
      exact worked_ite (worked_pure _) (worked_malformed _ _)

theorem worked_noting (hq : Keeps Worked q) (stage : Stage) : Keeps Worked (noting stage q) := by
  intro s
  have h := hq s
  unfold noting
  split
  · rename_i e
    rw [e] at h
    exact h
  · rename_i e
    rw [e] at h
    exact h.trans _ _ _ (.quiet rfl rfl rfl rfl)

theorem worked_endRead (hq : Keeps Worked q) (stage : Stage) : Keeps Worked (endRead ops.traced stage q) :=
  Keeps.always Worked.trans (worked_noting hq stage) (worked_closeStatement ops)

end Helpers

/-! ## 3. What is noted -/

/-- The driver says that the execution found a key taken. -/
def TakenKey (db : DbError) : Prop := db.stage = .execute ∧ db.code = duplicateKey

section Notes

variable {e : Diagnosis} {stage stage' : Stage} {rc : Result} {db : Option DbError} {cleanup : Bool}

theorem duplicateAt_note_other (h : stage' ≠ stage) :
    duplicateAt (e.note stage' rc db cleanup) stage = duplicateAt e stage := by
  unfold note duplicateAt
  cases hs : e.stage with
  | none => split <;> [rw [hs]; (split <;> simp [hs, h])]
  | some st => split <;> [rw [hs]; (split <;> simp [hs])]

theorem duplicateAt_note_first (h : rc ≠ .ok) :
    duplicateAt (({} : Diagnosis).note stage rc db cleanup) stage = true ↔ ∃ d, db = some d ∧ TakenKey d := by
  unfold note duplicateAt TakenKey
  rw [if_neg h]
  cases cleanup <;> cases db <;> simp

theorem closeStatement_err (ops : Ops W) (stage : Stage) (s : Call W I) :
    ((closeStatement ops s).1 = .ok () → (closeStatement ops s).2.err = s.err) ∧
      (stage ≠ .statementClose → duplicateAt (closeStatement ops s).2.err stage = duplicateAt s.err stage) := by
  unfold closeStatement
  cases s.statement with
  | none => exact ⟨fun _ => rfl, fun _ => rfl⟩
  | some sql =>
    dsimp only
    rw [succeed_state]
    refine ⟨fun h => ?_, fun h => duplicateAt_note_other h.symm⟩
    have hok : (ops.close sql s.world).1.result = .ok := by
      by_contra hne
      unfold succeed at h
      rw [dif_neg hne] at h
      cases h
    show s.err.note .statementClose (ops.close sql s.world).1.result _ true = s.err
    rw [hok]
    exact note_ok ..

end Notes

/-! ## 4. A command -/

section Commands

variable (ops : Ops W) (sql : Sql) (params : List Param) (stage : Stage) (insert cleanup : Bool)
  (s : Call (W × List Event) I)

theorem userCommand_adds : ∃ ev, Closes ev ∧ Adds (commandEvents ops writeLimits sql params s ++ ev) s
      (userCommand ops.traced sql params stage insert cleanup s).2 :=
  command_adds ops writeLimits sql params stage insert cleanup s fun _ => .rfl

theorem userCommand_err (hs : s.err = {}) :
    let r := userCommand ops.traced sql params stage insert cleanup s
    (r.1.result = .ok → r.2.err = {}) ∧ (stage ≠ .statementClose → (duplicateAt r.2.err stage = true ↔
        ((preparedBy ops writeLimits sql s).result ≠ .ok ∧ TakenKey (preparedBy ops writeLimits sql s).error) ∨
          ((preparedBy ops writeLimits sql s).result = .ok ∧ (executedBy ops writeLimits sql params s).result ≠ .ok ∧
            TakenKey (executedBy ops writeLimits sql params s).error))) := by
  let o := preparedBy ops writeLimits sql s
  let x := executedBy ops writeLimits sql params s
  let run := prepareExecute ops.traced id writeLimits sql params stage cleanup s
  let bad := decide (run.1.1 = .ok) && run.1.2.misshapen insert
  intro r
  obtain ⟨-, hrun⟩ := prepareExecute_adds ops writeLimits sql params stage cleanup s fun _ => .rfl
  replace hrun : run.1 = _ := hrun
  obtain ⟨hquiet, hkept⟩ := closeStatement_err ops.traced stage
    (if bad then run.2.diagnose stage .database none cleanup else run.2)
  have hok : r.1.result = .ok → bad = false ∧ run.1.1 = .ok ∧ r.2.err = run.2.err := by
    intro h
    have hrc : (if bad then Result.database else run.1.1) = .ok := by
      by_contra hne
      exact hne ((Result.first_of_ne hne _).symm.trans h)
    have hbad : bad = false := by
      by_contra hb
      rw [if_pos (by simpa using hb)] at hrc
      cases hrc
    rw [hbad, if_neg Bool.false_ne_true] at hrc hquiet
    have hstate : r.2 = (closeStatement ops.traced run.2).2 := by
      show (closeStatement ops.traced (if bad then run.2.diagnose stage .database none cleanup else run.2)).2 = _
      rw [hbad]
      rfl
    refine ⟨hbad, hrc, (congrArg Call.err hstate).trans (hquiet ?_)⟩
    have hclosed : Result.ofExcept (closeStatement ops.traced run.2).1 = .ok := by
      have hr : r.1.result = (if bad then Result.database else run.1.1).first
        (.ofExcept (closeStatement ops.traced (if bad then run.2.diagnose stage .database none cleanup else run.2)).1) :=
        rfl
      rw [hr, hbad, if_neg Bool.false_ne_true, if_neg Bool.false_ne_true, hrc] at h
      exact h
    cases hc : (closeStatement ops.traced run.2).1 with
    | ok u => rfl
    | error f =>
      rw [hc] at hclosed
      exact absurd hclosed f.property
  -- the note of the calls themselves, before the shape of the reply is looked at
  have herr : run.2.err = if o.result = .ok then ({} : Diagnosis).note stage x.result (some x.error) cleanup
      else ({} : Diagnosis).note stage o.result (some o.error) cleanup := by
    show (prepareExecute ops.traced id writeLimits sql params stage cleanup s).2.err = _
    unfold prepareExecute
    by_cases ho : o.result = .ok
    · have hfirst : (prepareSql ops.traced id writeLimits sql stage cleanup s).1 = .ok := ho
      simp only [if_pos hfirst, if_pos ho]
      show (s.err.note stage o.result (some o.error) cleanup).note stage x.result (some x.error) cleanup = _
      rw [hs, ho, note_ok]
    · have hfirst : ¬ (prepareSql ops.traced id writeLimits sql stage cleanup s).1 = .ok := ho
      simp only [if_neg hfirst, if_neg ho]
      show s.err.note stage o.result (some o.error) cleanup = _
      rw [hs]
  refine ⟨fun h => ?_, fun hstage => ?_⟩
  · obtain ⟨-, hrc, he⟩ := hok h
    rw [he, herr]
    rw [hrun] at hrc
    split at hrc
    · rename_i ho
      rw [if_pos ho, show x.result = .ok from hrc, note_ok]
    · rename_i ho
      exact absurd hrc ho
  · have hr : duplicateAt r.2.err stage =
        duplicateAt (if bad then run.2.diagnose stage .database none cleanup else run.2).err stage := hkept hstage
    rw [hr]
    by_cases ho : o.result = .ok
    · rw [if_pos ho] at hrun herr
      by_cases hx : x.result = .ok
      · have hclean : run.2.err = {} := by rw [herr, hx, note_ok]
        have hno : duplicateAt (if bad then run.2.diagnose stage .database none cleanup else run.2).err stage ≠ true := by
          split
          · show duplicateAt (run.2.err.note stage .database none cleanup) stage ≠ true
            rw [hclean, ne_eq, duplicateAt_note_first (by decide)]
            rintro ⟨d, hd, -⟩
            cases hd
          · rw [hclean]
            exact Bool.false_ne_true
        refine ⟨fun h => absurd h hno, ?_⟩
        rintro (⟨h, -⟩ | ⟨-, h, -⟩)
        · exact absurd ho h
        · exact absurd hx h
      · have hbad : bad = false := by
          show (decide (run.1.1 = .ok) && _) = false
          rw [hrun, decide_eq_false hx, Bool.false_and]
        rw [hbad, if_neg Bool.false_ne_true, herr, duplicateAt_note_first hx]
        simp [x, show (preparedBy ops writeLimits sql s).result = .ok from ho,
          show (executedBy ops writeLimits sql params s).result ≠ .ok from hx]
    · rw [if_neg ho] at hrun herr
      have hbad : bad = false := by
        show (decide (run.1.1 = .ok) && _) = false
        rw [hrun, decide_eq_false ho, Bool.false_and]
      rw [hbad, if_neg Bool.false_ne_true, herr, duplicateAt_note_first ho]
      simp [o, show (preparedBy ops writeLimits sql s).result ≠ .ok from ho]

variable {sql}

theorem worked_commanding (hq : ¬ sql.Bracket) :
    Keeps Worked (commanding ops.traced sql params stage insert : Step (W × List Event) I Execution) := by
  intro s
  obtain ⟨ev, hclose, h⟩ := userCommand_adds ops sql params stage insert false s
  refine .trans _ _ _ ⟨_, h, ?_⟩ ((worked_bind (worked_succeed _) fun _ => worked_pure _) _)
  refine forall_mem_append.mpr ⟨forall_mem_cons.mpr ⟨hq, ?_⟩, hclose.inner⟩
  split
  · exact forall_mem_singleton.mpr hq
  · exact forall_mem_nil _

theorem worked_insertRow (hq : ¬ sql.Bracket) :
    Keeps Worked (insertRow ops.traced sql params stage : Step (W × List Event) I UInt64) :=
  worked_bind (worked_commanding ops params stage true hq) fun _ => worked_pure _

theorem worked_insertUnique (hq : ¬ sql.Bracket) (conflict : I) :
    Keeps Worked (insertUnique ops.traced sql params stage conflict) := by
  refine .onError Worked.trans (worked_insertRow ops params stage hq) fun _ s => ?_
  split
  · exact .quiet rfl rfl rfl rfl
  · exact .refl s

end Commands

/-! ## 5. The entries between BEGIN and COMMIT -/

section Entries

variable (ops : Ops W)

theorem worked_registerWork (input : RegistrationInput) : Keeps Worked (registerWork ops.traced input) :=
  worked_bind (worked_insertUnique ops _ _ (by decide) _) fun _ =>
    worked_bind (worked_insertRow ops _ _ (by decide)) fun _ =>
      worked_bind (worked_insertUnique ops _ _ (by decide) _) fun _ => worked_pure _

theorem worked_lockAccount (input : LoginInput) : Keeps Worked (lockAccount ops.traced input) := by
  refine worked_endRead ops (worked_bind ?_ fun _ => ?_) _
  · exact worked_readUnique ops _ (by decide) _ _ _ fun _ =>
      worked_bind (worked_readCells ops _ _ _ _) fun _ => worked_pure _
  · exact worked_ite (worked_rejected _ _ _) (worked_ite (worked_rejected _ _ _)
      (worked_ite (worked_rejected _ _ _) (worked_pure _)))

theorem worked_loginWork (input : LoginInput) : Keeps Worked (loginWork ops.traced input) := by
  refine worked_bind (worked_lockAccount ops input) fun _ => ?_
  refine worked_bind (worked_insertUnique ops _ _ (by decide) _) fun _ => ?_
  refine worked_bind (worked_commanding ops _ _ _ (by decide)) fun _ => worked_ite (worked_refuseWith _ _ _) ?_
  exact worked_bind (worked_insertUnique ops _ _ (by decide) _) fun _ => worked_pure _

theorem worked_naming {p : Step (W × List Event) I α} (hp : Keeps Worked p) (issue : I) :
    Keeps Worked (Prog.onError p fun f s => if f.val = .notFound then { s with issue := issue } else s) := by
  refine .onError Worked.trans hp fun f s => ?_
  split
  · exact .quiet rfl rfl rfl rfl
  · exact .refl s

theorem worked_lockLogoutUser (id : UInt64) : Keeps Worked (lockLogoutUser ops.traced id) :=
  worked_naming (worked_endRead ops (worked_bind (worked_readUnique ops _ (by decide) _ _ _ fun _ =>
    worked_bind (worked_readNumbers ops _ _ _ _ _) fun _ => worked_pure _) fun _ => worked_pure _) _) _

theorem worked_lockLogoutSession (id : UInt64) : Keeps Worked (lockLogoutSession ops.traced id) :=
  worked_naming (worked_endRead ops (worked_bind (worked_readUnique ops _ (by decide) _ _ _ fun _ =>
    worked_bind (worked_readNumbers ops _ _ _ _ _) fun _ => worked_pure _) fun _ => worked_pure _) _) _

theorem worked_revokeWork (input : LogoutInput) : Keeps Worked (revokeWork ops.traced input) :=
  worked_bind (worked_commanding ops _ _ _ (by decide)) fun _ =>
    worked_ite (worked_refuseWith _ _ _) (worked_insertUnique ops _ _ (by decide) _)

theorem worked_logoutWork (input : LogoutInput) : Keeps Worked (logoutWork ops.traced input) := by
  refine worked_bind (worked_lockLogoutUser ops _) fun _ => worked_bind (worked_lockLogoutSession ops _) fun _ => ?_
  refine worked_ite (worked_refuseWith _ _ _) (worked_ite (worked_refuseWith _ _ _) (worked_ite (worked_pure _) ?_))
  exact worked_bind (worked_revokeWork ops input) fun _ => worked_pure _

end Entries

end Vireo.Persistence.User
