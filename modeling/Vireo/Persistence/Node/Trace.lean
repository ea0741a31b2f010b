/-
  File:      Vireo/Persistence/Node/Trace.lean
  Subject:   THE HELPERS OF THE NODE REPOSITORY IN THE TRACE OF A CALL.
-/
import Vireo.Persistence.Node.Helpers
import Vireo.Persistence.Node.Read
import Vireo.Persistence.Trace

namespace Vireo.Persistence.Node

open Lib Prog List

variable {W α β : Type}

/-! ## 1. What is coherent -/

/-- The repository's statement and the cleanup record are those of the trace. -/
structure Coherent (s : Call (W × List Event) Issue) : Prop where
  statement : s.statement.isSome = openStatement (trace s)
  cleanup : s.err.cleanupResult = .ok → CleanupFine (trace s)

/-! ## 2. Inner steps -/

/-- What an inner helper keeps. -/
structure Inner (s s' : Call (W × List Event) Issue) : Prop where
  extends' : ∃ ev, trace s' = trace s ++ ev ∧ ∀ e ∈ ev, e.Inner
  lease : s'.lease = s.lease
  connection : s'.connection = s.connection
  transaction : s'.transaction = s.transaction
  issue : s'.issue = s.issue ∨ s'.issue = .receiptInvalid
  coherent : Coherent s → Coherent s'

variable (s : Call (W × List Event) Issue)

theorem Inner.refl : Inner s s :=
  ⟨⟨[], (List.append_nil _).symm, fun _ h => (not_mem_nil h).elim⟩, rfl, rfl, rfl, .inl rfl, id⟩

theorem Inner.trans (a b c : Call (W × List Event) Issue) (h : Inner a b) (k : Inner b c) : Inner a c := by
  obtain ⟨ev, e, hev⟩ := h.extends'
  obtain ⟨ev', e', hev'⟩ := k.extends'
  refine ⟨⟨ev ++ ev', ?_, ?_⟩, k.lease.trans h.lease, k.connection.trans h.connection,
    k.transaction.trans h.transaction, ?_, k.coherent ∘ h.coherent⟩
  · rw [e', e, append_assoc]
  · exact forall_mem_append.mpr ⟨hev, hev'⟩
  rcases k.issue with hi | hi
  · rw [hi]
    exact h.issue
  · exact .inr hi

theorem Inner.event (w : W) {e : Event} (he : e.Inner) (ho : ∀ b, e.opens b = b) (hc : e.CleanupFine) :
    Inner s { s with world := (w, s.world.2 ++ [e]) } := by
  refine ⟨⟨[e], rfl, forall_mem_singleton.mpr he⟩, rfl, rfl, rfl, .inl rfl, fun h =>
    ⟨?_, fun hk => ?_⟩⟩
  · show s.statement.isSome = openStatement (trace s ++ [e])
    rw [h.statement, openStatement_append]
    exact (ho _).symm
  · exact cleanupFine_append.mpr ⟨h.cleanup hk, forall_mem_singleton.mpr hc⟩

theorem Inner.quiet {s s' : Call (W × List Event) Issue} (hw : s'.world = s.world)
    (hl : s'.lease = s.lease) (hn : s'.connection = s.connection)
    (ht : s'.transaction = s.transaction) (hs : s'.statement = s.statement)
    (hi : s'.issue = s.issue ∨ s'.issue = .receiptInvalid)
    (hc : s'.err.cleanupResult = s.err.cleanupResult) : Inner s s' := by
  have htr : trace s' = trace s := congrArg Prod.snd hw
  refine ⟨⟨[], ?_, fun _ h => (not_mem_nil h).elim⟩, hl, hn, ht, hi, fun h =>
    ⟨?_, fun hk => ?_⟩⟩
  · rw [htr, List.append_nil]
  · rw [hs, htr]
    exact h.statement
  · rw [htr]
    exact h.cleanup (hc ▸ hk)

theorem Inner.diagnose (stage : Stage) (rc : Result) (db : Option DbError) :
    Inner s (s.diagnose stage rc db false) :=
  .quiet rfl rfl rfl rfl rfl (.inl rfl) (Diagnosis.note_cleanupResult_false ..)

/-- A helper that only takes inner steps. -/
abbrev InnerStep (p : NodeStep (W × List Event) α) : Prop := Keeps Inner p

section Statements

variable (ops : Ops W) {sql : Sql}

theorem inner_prepareSql (remap : Result → Result) (limits : Limits) (hq : ¬ sql.Bracket) (stage : Stage)
    (s : Call (W × List Event) Issue) :
    Inner s (prepareSql ops.traced remap limits sql stage false s).2 := by
  let o := (ops.prepare sql limits s.world.1).1
  refine ⟨⟨[.prepared sql limits o], rfl, forall_mem_singleton.mpr hq⟩, rfl, rfl, rfl, .inl rfl,
    fun h => ⟨?_, fun hk => ?_⟩⟩
  · show Option.isSome (if o.result = .ok ∨ o.left then some sql else s.statement) =
      openStatement (trace s ++ [.prepared sql limits o])
    rw [openStatement_append, foldl_cons, foldl_nil, ← h.statement]
    exact isSome_prepared o sql s.statement
  · refine cleanupFine_append.mpr ⟨h.cleanup ?_, forall_mem_singleton.mpr fun hr => ?_⟩
    · exact (Diagnosis.note_cleanupResult_false ..).symm.trans hk
    · exact absurd (.inr (.inr hr)) hq

theorem inner_executeSql (remap : Result → Result) (hq : ¬ sql.Bracket) (params : List Param) (stage : Stage)
    (s : Call (W × List Event) Issue) :
    Inner s (executeSql ops.traced remap sql params stage false s).2 := by
  refine .trans _ _ _ (.event s _ ?_ (fun _ => rfl) ?_) (.diagnose _ stage _ _)
  · exact hq
  · exact fun hr => absurd (.inr (.inr hr)) hq

end Statements

/-- **The helpers of an entry take inner steps**, whatever the dependencies answer. -/
theorem inner (ops : Ops W) : KeptByHelpers ops.traced Inner where
  refl := Inner.refl
  trans := Inner.trans
  diagnose := Inner.diagnose
  closeStatement := by
    intro s
    unfold closeStatement
    cases hs : s.statement with
    | none => exact .refl s
    | some sql =>
      dsimp only
      rw [succeed_state]
      refine ⟨⟨[.closed sql _], rfl, forall_mem_singleton.mpr trivial⟩, rfl, rfl, rfl, .inl rfl,
        fun h => ⟨?_, fun hk => ?_⟩⟩
      · show Option.isSome (if _ then some sql else none) = openStatement (trace s ++ [.closed sql _])
        rw [openStatement_append, foldl_cons, foldl_nil]
        show Option.isSome (if (ops.close sql s.world.1).1.left then some sql else none) =
          (ops.close sql s.world.1).1.left
        cases (ops.close sql s.world.1).1.left <;> rfl
      · obtain ⟨hc, hrc⟩ := Diagnosis.note_cleanupResult_true _ _ _ _ hk
        exact cleanupFine_append.mpr ⟨h.cleanup hc, forall_mem_singleton.mpr hrc⟩
  fetching _ s := Inner.event s _ trivial (fun _ => rfl) trivial
  column _ _ s := Inner.event s _ trivial (fun _ => rfl) trivial
  prepareExecute remap limits sql params stage s hq := by
    have hp := inner_prepareSql ops remap limits hq stage s
    rw [prepareExecute]
    split
    · exact hp.trans _ _ _ (inner_executeSql ops remap hq params stage _)
    · exact hp
  retag stage s := by
    unfold retag
    split
    · exact .quiet rfl rfl rfl rfl rfl (.inl rfl) rfl
    · exact .refl s
  receiptInvalid _ _ := .quiet rfl rfl rfl rfl rfl (.inr rfl) (Diagnosis.note_cleanupResult_false ..)

end Vireo.Persistence.Node
