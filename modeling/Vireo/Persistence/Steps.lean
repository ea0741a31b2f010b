/-
  File:      Vireo/Persistence/Steps.lean
  Subject:   THE STEPS OF A STATEMENT KEEP WHAT ITS DEPENDENCY CALLS KEEP.
-/
import Vireo.Persistence.Statement

namespace Vireo.Persistence

open Lib Prog

variable {W I α β : Type} {ops : Ops W} {R : Call W I → Call W I → Prop} {p : Step W I α} {f : α → Step W I β}

/-- A preorder that the reading of a result keeps. -/
structure KeptByReads (ops : Ops W) (R : Call W I → Call W I → Prop) : Prop where
  refl : ∀ s, R s s
  trans : ∀ a b c, R a b → R b c → R a c
  diagnose : ∀ s stage rc db, R s (s.diagnose stage rc db false)
  closeStatement : Keeps R (closeStatement ops)
  fetching : ∀ sql, Keeps R (fetching ops sql)
  column : ∀ sql i, Keeps R (column ops sql i)

/-- A preorder that the statements between BEGIN and COMMIT keep. -/
structure KeptByRuns (ops : Ops W) (R : Call W I → Call W I → Prop) : Prop extends KeptByReads ops R where
  prepareExecute : ∀ remap limits sql params stage s, ¬ sql.Bracket →
    R s (prepareExecute ops remap limits sql params stage false s).2

namespace KeptByReads

variable (h : KeptByReads ops R)
include h

theorem pure (a : α) : Keeps R (Pure.pure a : Step W I α) := Keeps.pure h.refl a

theorem fail (e : Failure) : Keeps R (Prog.fail e : Step W I α) := Keeps.fail h.refl e

theorem bind (hp : Keeps R p) (hf : ∀ a, Keeps R (f a)) : Keeps R (p >>= f) := Keeps.bind h.trans hp hf

theorem succeed (rc : Result) : Keeps R (Persistence.succeed rc : Step W I Unit) := by
  intro s
  rw [succeed_state]
  exact h.refl s

theorem diagnosing (hp : Keeps R p) (stage : Stage) (db : Option DbError) :
    Keeps R (Persistence.diagnosing stage db p) :=
  Keeps.onError h.trans hp fun f s => h.diagnose s stage f.val db

theorem closing (hp : Keeps R p) (stage : Stage) : Keeps R (Persistence.closing ops stage p) :=
  Keeps.always h.trans (h.diagnosing hp stage none) h.closeStatement

theorem columnsFrom (sql : Sql) (n : Nat) : ∀ i, Keeps R (Persistence.columnsFrom ops sql i n) := by
  induction n with
  | zero => exact fun _ => h.pure _
  | succ n ih => exact fun i => h.bind (h.column sql i) fun _ => h.bind (ih (i + 1)) fun _ => h.pure _

theorem readRow (sql : Sql) (stage : Stage) (count : Nat) :
    Keeps R (Persistence.readRow ops sql stage count) := by
  refine h.bind (h.fetching sql) fun o => h.diagnosing (.mapError ?_ _) _ _
  refine h.bind (h.succeed _) fun _ => ?_
  cases o.outcome with
  | row => exact h.bind (h.columnsFrom sql count 0) fun _ => h.pure _
  | done => exact h.pure _
  | other => exact h.fail _

theorem uniqueEnd (sql : Sql) (stage : Stage) : Keeps R (Persistence.uniqueEnd ops sql stage) := by
  refine h.bind (h.fetching sql) fun o => h.diagnosing (.mapError ?_ _) _ _
  exact h.bind (h.succeed _) fun _ => .ite (h.pure _) (h.fail _)

end KeptByReads

theorem KeptByRuns.executing (h : KeptByRuns ops R) (remap : Result → Result) (limits : Limits) {sql : Sql}
    (hq : ¬ sql.Bracket) (params : List Param) (stage : Stage) :
    Keeps R (Persistence.executing ops remap limits sql params stage) :=
  fun s => h.trans _ _ _ (h.prepareExecute remap limits sql params stage s hq)
    (h.bind (h.succeed _) (fun _ => h.pure _) _)

end Vireo.Persistence
