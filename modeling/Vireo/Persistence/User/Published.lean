/-
  File:      Vireo/Persistence/User/Published.lean
  Subject:   WHAT THE ENTRIES OF THE USER REPOSITORY PUBLISH, whatever their dependencies do.
-/
import Vireo.Persistence.User.Entry

namespace Vireo.Persistence.User

open Lib Prog

variable {W I α β : Type}

/-! ## 1. Transactions -/

/-- A committed transaction publishes a value with `P`, any other nothing; a success was committed. -/
structure Publishes (P : α → Prop) (o : WriteOutcome W I α) : Prop where
  committed : o.report.commit = .committed → ∃ v, o.report.value = some v ∧ P v
  otherwise : o.report.commit ≠ .committed → o.report.value = none
  succeeds : o.result = .ok → o.report.commit = .committed

theorem wp_any {ε σ : Type} (p : Prog ε σ α) (s : σ) : wp p (fun _ _ => True) (fun _ _ => True) s :=
  Keeps.wp (R := fun _ _ => True) (fun _ => trivial) s

section Transactions

variable (ops : Ops W)

theorem command_shape (remap : Result → Result) (limits : Limits) (sql : Sql) (params : List Param) (stage : Stage)
    (insert cleanup : Bool) (s : Call W I)
    (h : (command ops remap limits sql params stage insert cleanup s).1.result = .ok) :
    (command ops remap limits sql params stage insert cleanup s).1.execution.misshapen insert = false ∧
      (command ops remap limits sql params stage insert cleanup s).1.replied = true := by
  let run := prepareExecute ops remap limits sql params stage cleanup s
  let bad := decide (run.1.1 = .ok) && run.1.2.misshapen insert
  have hrc : (if bad then Result.database else run.1.1) = .ok := by
    by_contra hne
    exact hne ((Result.first_of_ne hne _).symm.trans h)
  have hbad : bad = false := by
    by_contra hb
    rw [if_pos (by simpa using hb)] at hrc
    cases hrc
  rw [hbad, if_neg Bool.false_ne_true] at hrc
  refine ⟨?_, ?_⟩
  · show run.1.2.misshapen insert = false
    rw [← Bool.true_and (run.1.2.misshapen insert), ← decide_eq_true hrc]
    exact hbad
  · show decide ((if bad then Result.database else run.1.1) = .ok) = true
    rw [hbad, if_neg Bool.false_ne_true]
    exact decide_eq_true hrc

theorem wp_insertRow_id (sql : Sql) (params : List Param) (stage : Stage) (s : Call W I) :
    wp (insertRow ops sql params stage) (fun id _ => id ≠ 0) (fun _ _ => True) s := by
  let reply := userCommand ops sql params stage true false s
  have hrun : commanding ops sql params stage true s =
      (do succeed reply.1.result; pure reply.1.execution : Step W I Execution) reply.2 := rfl
  refine wp_bind.mpr ((wp_congr hrun).mpr (wp_bind.mpr ?_))
  unfold succeed
  split
  · rename_i hrc
    obtain ⟨hshape, -⟩ := command_shape ops id writeLimits sql params stage true false s hrc
    refine wp_pure.mpr (wp_pure.mpr (wp_pure.mpr fun hzero => ?_))
    replace hshape : reply.1.execution.misshapen true = false := hshape
    simp [Execution.misshapen, hzero] at hshape
  · exact wp_fail.mpr trivial

theorem wp_insertUnique_id (sql : Sql) (params : List Param) (stage : Stage) (conflict : I) (s : Call W I) :
    wp (insertUnique ops sql params stage conflict) (fun id _ => id ≠ 0) (fun _ _ => True) s :=
  wp_onError.mpr (wp_insertRow_id ops sql params stage s)

variable [Inhabited I] [DecidableEq I]

theorem finish_result (plan : Plan I) (rc : Result) (commit : Commit) (value : Option α) (s : Call W I)
    (h : (finish ops plan rc commit value s).result = .ok) : rc = .ok := by
  have hroll : (rollbackWork ops commit rc (classify plan rc s)).1.1 = .ok := by
    unfold finish releaseLease at h
    dsimp only at h
    split at h
    · by_contra hne
      exact hne ((Result.first_of_ne hne _).symm.trans h)
    · exact h
  unfold rollbackWork at hroll
  split at hroll
  · by_contra hne
    exact hne ((Result.first_of_ne hne _).symm.trans hroll)
  · exact hroll

theorem publishes_finish (P : α → Prop) (plan : Plan I) (rc : Result) (commit : Commit) (value : Option α)
    (s : Call W I) (hc : commit = .committed → ∃ v, value = some v ∧ P v) (hn : commit ≠ .committed → value = none)
    (hrc : rc = .ok → commit = .committed) : Publishes P (finish ops plan rc commit value s) :=
  ⟨hc, hn, fun h => hrc (finish_result ops plan rc commit value s h)⟩

theorem publishes_commitWork (P : α → Prop) (plan : Plan I) {value : α} (hv : P value) (s : Call W I) :
    Publishes P (commitWork ops plan value s) := by
  have hreplied := command_shape ops id writeLimits .commit [] .commit false false s
  rw [commitWork]
  split
  · exact publishes_finish ops P plan _ _ _ _ (fun _ => ⟨value, rfl, hv⟩) (fun h => absurd rfl h) fun _ => rfl
  rename_i hr
  split
  · exact publishes_finish ops P plan _ _ _ _ nofun (fun _ => rfl) fun h => absurd (hreplied h).2 hr
  · exact publishes_finish ops P plan _ _ _ _ nofun (fun _ => rfl) fun h => absurd (hreplied h).2 hr

theorem publishes_writeEntry (P : α → Prop) (plan : Plan I) (check : Result) (wait : UInt32) {work : Step W I α}
    (hw : ∀ s, wp work (fun v _ => P v) (fun _ _ => True) s) (repo : Repo) (w : W) :
    Publishes P (writeEntry ops plan check wait work repo w) := by
  have hrefused : ∀ rc, rc ≠ .ok → Publishes P (refuse rc repo w : WriteOutcome W I α) := fun rc hrc =>
    ⟨nofun, fun _ => rfl, fun h => absurd h hrc⟩
  have hprepare : ∀ s, wp (prepareCommit ops wait work) (fun v _ => P v) (fun _ _ => True) s := fun s =>
    wp_bind.mpr (wp_mono (wp_any _ s) (fun _ s₁ _ => wp_bind.mpr (wp_mono (wp_any _ s₁) (fun _ s₂ _ =>
      wp_bind.mpr (wp_mono (wp_any _ s₂) (fun _ s₃ _ => hw s₃) fun _ _ h => h)) fun _ _ h => h)) fun _ _ h => h)
  unfold writeEntry
  split
  · exact hrefused _ (by decide)
  split
  · unfold transact
    rcases wp_cases (hprepare (.enter repo w)) with ⟨v, s, e, hv⟩ | ⟨f, s, e, -⟩
    · rw [e]
      exact publishes_commitWork ops P plan hv s
    · rw [e]
      exact publishes_finish ops P plan _ _ _ _ nofun (fun _ => rfl) fun h => absurd h f.property
  · exact hrefused _ ‹_›

end Transactions

/-! ## 2. The three -/

section Entries

variable (ops : Ops W) (policy : Security.PasswordPolicy) (wait : UInt32) (repo : Repo) (w : W)

theorem register_publishes (input : RegistrationInput) :
    Publishes (fun ids => ids.userId ≠ 0 ∧ ids.rootNodeId ≠ 0 ∧ ids.auditId ≠ 0)
      (register ops policy input wait repo w) := by
  refine publishes_writeEntry ops _ _ _ _ (fun s => ?_) repo w
  refine wp_bind.mpr (wp_mono (wp_insertUnique_id ops _ _ _ _ s) (fun user s₁ huser => ?_) fun _ _ h => h)
  refine wp_bind.mpr (wp_mono (wp_insertRow_id ops _ _ _ s₁) (fun root s₂ hroot => ?_) fun _ _ h => h)
  refine wp_bind.mpr (wp_mono (wp_insertUnique_id ops _ _ _ _ s₂) (fun audit s₃ haudit => ?_) fun _ _ h => h)
  exact wp_pure.mpr ⟨huser, hroot, haudit⟩

theorem login_publishes (input : LoginInput) :
    Publishes (fun ids => ids.sessionId ≠ 0 ∧ ids.auditId ≠ 0) (login ops policy input wait repo w) := by
  refine publishes_writeEntry ops _ _ _ _ (fun s => ?_) repo w
  refine wp_bind.mpr (wp_mono (wp_any _ s) (fun _ s₁ _ => ?_) fun _ _ h => h)
  refine wp_bind.mpr (wp_mono (wp_insertUnique_id ops _ _ _ _ s₁) (fun session s₂ hsession => ?_) fun _ _ h => h)
  refine wp_bind.mpr (wp_mono (wp_any _ s₂) (fun ex s₃ _ => ?_) fun _ _ h => h)
  split
  · exact wp_of_error rfl trivial
  · refine wp_bind.mpr (wp_mono (wp_insertUnique_id ops _ _ _ _ s₃) (fun audit s₄ haudit => ?_) fun _ _ h => h)
    exact wp_pure.mpr ⟨hsession, haudit⟩

omit repo w wait policy in
theorem wp_revokeWork_id (input : LogoutInput) (s : Call W LogoutIssue) :
    wp (revokeWork ops input) (fun id _ => id ≠ 0) (fun _ _ => True) s := by
  refine wp_bind.mpr (wp_mono (wp_any _ s) (fun ex s₁ _ => ?_) fun _ _ h => h)
  split
  · exact wp_of_error rfl trivial
  · exact wp_insertUnique_id ops _ _ _ _ s₁

theorem logout_publishes (input : LogoutInput) :
    Publishes (fun fields => fields.sessionId = input.sessionId ∧ (fields.alreadyRevoked = true ↔ fields.auditId = 0))
      (logout ops input wait repo w) := by
  refine publishes_writeEntry ops _ _ _ _ (fun s => ?_) repo w
  refine wp_bind.mpr (wp_mono (wp_any _ s) (fun _ s₁ _ => ?_) fun _ _ h => h)
  refine wp_bind.mpr (wp_mono (wp_any _ s₁) (fun lock s₂ _ => ?_) fun _ _ h => h)
  split
  · exact wp_of_error rfl trivial
  split
  · exact wp_of_error rfl trivial
  split
  · exact wp_pure.mpr ⟨rfl, by simp⟩
  refine wp_bind.mpr (wp_mono (wp_revokeWork_id ops input s₂) (fun audit s₃ haudit => ?_) fun _ _ h => h)
  exact wp_pure.mpr ⟨rfl, by simp [haudit]⟩

end Entries

/-! ## 3. Lookups -/

/-- A close and a release that succeed leave nothing (`vireo_mysql_statement_destroy`,
    `vireo_mysql_pool_release`). -/
structure Consumes (ops : Ops W) : Prop where
  close : ∀ sql w, (ops.close sql w).1.result = .ok → (ops.close sql w).1.left = false
  release : ∀ d w, (ops.release d w).1.result = .ok → (ops.release d w).1.left = false

section Lookups

variable (ops : Ops W) (hops : Consumes ops)

theorem wp_readUnique (P : β → Prop) (limits : Limits) (sql : Sql) (params : List Param) (absent bad : Option I)
    {row : DbError → Reading W I (Option β)}
    (hrow : ∀ db s, wp (row db) (fun r _ => ∀ v ∈ r, P v) (fun _ _ => True) s) (s : Call W I) :
    wp (readUnique ops limits sql params absent bad row) (fun v _ => P v.1) (fun _ _ => True) s := by
  have hbad : ∀ {γ : Type} (db : DbError) {Q : γ → Call W I → Prop} (s : Call W I),
      wp (malformed bad db : Reading W I γ) Q (fun _ _ => True) s := fun _ _ _ => wp_of_error rfl trivial
  refine wp_bind.mpr (wp_mono (wp_any _ s) (fun _ s₁ _ => ?_) fun _ _ h => h)
  refine wp_bind.mpr (wp_mono (wp_any _ s₁) (fun x s₂ _ => ?_) fun _ _ h => h)
  split
  · exact hbad _ _
  refine wp_bind.mpr (wp_mono (wp_any _ s₂) (fun o s₃ _ => ?_) fun _ _ h => h)
  split
  · exact wp_of_error rfl trivial
  · exact hbad _ _
  refine wp_bind.mpr (wp_mono (hrow o.error s₃) (fun r s₄ hr => ?_) fun _ _ h => h)
  cases r with
  | none => exact hbad _ _
  | some v =>
    refine wp_bind.mpr (wp_mono (wp_any _ s₄) (fun o s₅ _ => ?_) fun _ _ h => h)
    split
    · exact wp_pure.mpr (hr v rfl)
    · exact hbad _ _

include hops in
theorem wp_endRead (P : α → Prop) (stage : Stage) {p : Reading W I α}
    (hp : ∀ s, wp p (fun a _ => P a) (fun _ _ => True) s) (s : Call W I) :
    wp (endRead ops stage p) (fun a s' => P a ∧ s'.statement = none) (fun _ _ => True) s := by
  have hnoting : wp (noting stage p) (fun a _ => P a) (fun _ _ => True) s := by
    rcases wp_cases (hp s) with ⟨a, t, e, ha⟩ | ⟨f, t, e, -⟩
    · exact wp_of_ok (a := a) (t := t) (by simp only [noting, e]) ha
    · exact wp_of_error (by simp only [noting, e]; rfl) trivial
  refine wp_always.mpr (wp_mono hnoting (fun a s₁ ha => ?_) fun _ s₁ _ => wp_mono (wp_any _ s₁) (fun _ _ h => h)
    fun _ _ h => h)
  cases hs : s₁.statement with
  | none =>
    have hclose : closeStatement ops s₁ = (.ok (), s₁) := by
      unfold closeStatement
      rw [hs]
    exact wp_of_ok hclose ⟨ha, hs⟩
  | some sql =>
    let o := (ops.close sql s₁.world).1
    have hclose : closeStatement ops s₁ = succeed o.result (({ s₁ with
        world := (ops.close sql s₁.world).2
        statement := if o.left then some sql else none }).diagnose .statementClose o.result o.error true) := by
      unfold closeStatement
      rw [hs]
    refine (wp_congr hclose).mpr ?_
    unfold succeed
    split
    · rename_i hok
      refine wp_pure.mpr ⟨ha, ?_⟩
      show (if o.left = true then some sql else none) = none
      rw [show o.left = false from hops.close sql s₁.world hok]
      rfl
    · exact wp_fail.mpr trivial

/-- A lookup that succeeds gives a value with `P` and leaves nothing; any other gives none. -/
structure Found (P : α → Prop) (o : ReadOutcome W I α) : Prop where
  found : o.result = .ok → ∃ a, o.value = some a ∧ P a
  finished : o.result = .ok → o.cleanupPending = false
  otherwise : o.result ≠ .ok → o.value = none

include hops in
theorem releaseLease_ok (healthy : Bool) (rc : Result) (s : Call W I) (h : (releaseLease ops healthy rc s).1 = .ok) :
    rc = .ok ∧ (s.statement = none → (releaseLease ops healthy rc s).2.repo.pending = false) := by
  by_cases hheld : s.statement = none ∧ s.lease = true
  · let o := (ops.release (if healthy then .recycle else .discard) s.world).1
    have hrun : (releaseLease ops healthy rc s).1 = rc.first o.result := by
      unfold releaseLease
      rw [if_pos hheld]
    have hleft : (releaseLease ops healthy rc s).2.repo = ⟨o.left, s.connection && !o.released, s.statement⟩ := by
      unfold releaseLease
      rw [if_pos hheld]
      rfl
    have hrc : rc = .ok := by
      by_contra hne
      exact hne ((Result.first_of_ne hne _).symm.trans (hrun.symm.trans h))
    have ho : o.result = .ok := by
      rw [hrun, hrc] at h
      exact h
    refine ⟨hrc, fun hs => ?_⟩
    rw [hleft, show o.left = false from hops.release _ s.world ho, hs]
    rfl
  · have hrun : releaseLease ops healthy rc s = (rc, s) := if_neg hheld
    rw [hrun] at h ⊢
    refine ⟨h, fun hs => ?_⟩
    have hlease : s.lease = false := by
      by_contra hne
      exact hheld ⟨hs, (Bool.not_eq_false _).mp hne⟩
    show (s.statement.isSome || s.lease) = false
    rw [hs, hlease]
    rfl

include hops in
theorem found_finishRead (P : α → Prop) (got : Except Failure α) (s : Call W I)
    (h : ∀ a, got = .ok a → P a ∧ s.statement = none) : Found P (finishRead ops got s) := by
  have hrelease : (finishRead ops got s).result = .ok → Result.ofExcept got = .ok ∧
      (s.statement = none → (finishRead ops got s).cleanupPending = false) := releaseLease_ok ops hops _ _ s
  have hgot : (finishRead ops got s).result = .ok → ∃ a, got = .ok a := fun hok => by
    obtain ⟨hrc, -⟩ := hrelease hok
    cases got with
    | ok a => exact ⟨a, rfl⟩
    | error f => exact absurd hrc f.property
  refine ⟨fun hok => ?_, fun hok => ?_, fun hne => if_neg hne⟩
  · obtain ⟨a, e⟩ := hgot hok
    refine ⟨a, ?_, (h a e).1⟩
    rw [show (finishRead ops got s).value = got.toOption from if_pos hok, e]
    rfl
  · obtain ⟨a, e⟩ := hgot hok
    exact (hrelease hok).2 (h a e).2

include hops in
/-- **What a lookup gives** is what it read, and then nothing of it is left. -/
theorem found_readEntry [Inhabited I] (P : α → Prop) (check : Result) (wait : UInt32) {read : Step W I α}
    (hread : ∀ s, wp read (fun a s' => P a ∧ s'.statement = none) (fun _ _ => True) s) (repo : Repo) (w : W) :
    Found P (readEntry ops check wait read repo w) := by
  have hrefused : ∀ rc, rc ≠ .ok → Found P (refuseRead rc repo w : ReadOutcome W I α) := fun rc hrc =>
    ⟨fun h => absurd h hrc, fun h => absurd h hrc, fun _ => rfl⟩
  have hall : ∀ s, wp (do acquireLease ops wait; borrowConnection ops; read : Step W I α)
      (fun a s' => P a ∧ s'.statement = none) (fun _ _ => True) s := fun s =>
    wp_bind.mpr (wp_mono (wp_any _ s) (fun _ s₁ _ => wp_bind.mpr (wp_mono (wp_any _ s₁) (fun _ s₂ _ => hread s₂)
      fun _ _ h => h)) fun _ _ h => h)
  unfold readEntry
  split
  · exact hrefused _ (by decide)
  split
  · refine found_finishRead ops hops P _ _ fun a e => ?_
    rcases wp_cases (hall (.enter repo w)) with ⟨b, s, eb, hb⟩ | ⟨f, s, ef, -⟩
    · rw [eb] at e ⊢
      cases e
      exact hb
    · rw [ef] at e
      cases e
  · exact hrefused _ ‹_›

/-- A session that can be used: it has a user, and ends after it began. -/
def SessionIdentity.Usable (i : SessionIdentity) : Prop := i.userId ≠ 0 ∧ i.sessionId ≠ 0 ∧ i.issuedAtMs < i.expiresAtMs

theorem sessionRow_usable {values : List (Option UInt64)} {found : SessionFound} (h : sessionRow values = some found) :
    found.identity.Usable := by
  unfold sessionRow at h
  split at h
  · rw [Option.ite_none_left_eq_some] at h
    obtain ⟨hgood, e⟩ := h
    cases e
    rw [not_or, not_or, not_or, not_or] at hgood
    obtain ⟨hid, huser, -, hexpires, -⟩ := hgood
    exact ⟨huser, hid, UInt64.not_le.mp hexpires⟩
  · cases h

include hops in
/-- **A session that is found** can be used, and nothing of the lookup is left. -/
theorem findSession_found (digest : Vector UInt8 32) (now : UInt64) (wait : UInt32) (repo : Repo) (w : W) :
    Found SessionIdentity.Usable (findSession ops digest now wait repo w) := by
  refine found_readEntry ops hops _ _ wait (fun s => wp_endRead ops hops _ _ (fun s => ?_) s) repo w
  refine wp_bind.mpr (wp_mono (wp_readUnique ops (fun f => f.identity.Usable) _ _ _ _ _ (fun db s => ?_) s)
    (fun row s₁ hrow => ?_) fun _ _ h => h)
  · refine wp_bind.mpr (wp_mono (wp_any _ s) (fun values s₁ _ => wp_pure.mpr fun v hv => ?_) fun _ _ h => h)
    obtain ⟨vs, -, hvs⟩ := Option.bind_eq_some_iff.mp hv
    exact sessionRow_usable hvs
  · split
    · exact wp_pure.mpr hrow
    · exact wp_of_error rfl trivial

end Lookups

end Vireo.Persistence.User
