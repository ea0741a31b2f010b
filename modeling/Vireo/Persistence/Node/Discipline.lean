/-
  File:      Vireo/Persistence/Node/Discipline.lean
  Subject:   THE CLOCK DISCIPLINE of the write entries, against arbitrary dependencies.

  Between BEGIN and COMMIT an entry reads, looks at the clock, and only then speaks or writes. The
  phases of that are predicates on the state:

  * `Before` -- no clock sample yet, no verdict yet;
  * `After` -- every sample so far was inside the session's window, still no verdict;
  * `Failed` -- the session was rejected, or every sample was inside the window, or nothing was said.

  **`Sound`** says that an entry's work goes through these phases, and `soundRules` shows it for all six.
-/
import Vireo.Persistence.Node.Trace

namespace Vireo.Persistence.Node

open Lib Prog List

variable {W α β : Type}

/-! ## 1. Working steps -/

/-- What an entry's work keeps. -/
structure Outer (s s' : Call (W × List Event) Issue) : Prop where
  extends' : ∃ ev, trace s' = trace s ++ ev ∧ ∀ e ∈ ev, e.Working
  lease : s'.lease = s.lease
  connection : s'.connection = s.connection
  transaction : s'.transaction = s.transaction
  coherent : Coherent s → Coherent s'

theorem Outer.refl (s : Call (W × List Event) Issue) : Outer s s :=
  ⟨⟨[], (List.append_nil _).symm, fun _ h => (not_mem_nil h).elim⟩, rfl, rfl, rfl, id⟩

theorem Outer.trans {a b c : Call (W × List Event) Issue} (h : Outer a b) (k : Outer b c) : Outer a c := by
  obtain ⟨ev, e, hev⟩ := h.extends'
  obtain ⟨ev', e', hev'⟩ := k.extends'
  refine ⟨⟨ev ++ ev', ?_, ?_⟩, k.lease.trans h.lease, k.connection.trans h.connection,
    k.transaction.trans h.transaction, k.coherent ∘ h.coherent⟩
  · rw [e', e, append_assoc]
  · exact forall_mem_append.mpr ⟨hev, hev'⟩

variable {s s' : Call (W × List Event) Issue}

theorem Inner.outer (h : Inner s s') : Outer s s' := by
  obtain ⟨ev, e, hev⟩ := h.extends'
  exact { h with extends' := ⟨ev, e, fun x hx => .inl (hev x hx)⟩ }

theorem Inner.samples (h : Inner s s') : samples (trace s') = samples (trace s) := by
  obtain ⟨ev, e, hev⟩ := h.extends'
  rw [e, samples_append, samples_of_inner hev, List.append_nil]

theorem outer_sampled (s : Call (W × List Event) Issue) (w : W) (u : Sampled) :
    Outer s { s with world := (w, s.world.2 ++ [.sampled u]) } := by
  refine ⟨⟨[.sampled u], rfl, forall_mem_singleton.mpr (.inr ⟨u, rfl⟩)⟩, rfl, rfl, rfl,
    fun h => ⟨?_, fun hk => ?_⟩⟩
  · show s.statement.isSome = openStatement (trace s ++ [.sampled u])
    rw [openStatement_append, h.statement]
    rfl
  · exact cleanupFine_append.mpr ⟨h.cleanup hk, forall_mem_singleton.mpr trivial⟩

theorem outer_verdict (s : Call (W × List Event) Issue) (v : Verdict) :
    Outer s ({ s with issue := v.issue }.diagnose v.stage v.result.val none false) := by
  refine ⟨⟨[], (List.append_nil _).symm, fun _ h => (not_mem_nil h).elim⟩, rfl, rfl, rfl,
    fun h => ⟨h.statement, fun hk => h.cleanup ?_⟩⟩
  exact (Diagnosis.note_cleanupResult_false ..).symm.trans hk

/-! ## 2. Phases -/

/-- Every sample converts and is inside the window. -/
def AllIn (win : Window) (l : List Sampled) : Prop := ∀ u ∈ l, ∃ now, u.millis = .ok now ∧ win.Contains now

/-- No sample that converts is outside the window. -/
def NoneOut (win : Window) (l : List Sampled) : Prop :=
  ∀ u ∈ l, ∀ now, u.millis = .ok now → win.Contains now

theorem AllIn.noneOut {win : Window} {l : List Sampled} (h : AllIn win l) : NoneOut win l := by
  intro u hu now e
  obtain ⟨now', e', hc⟩ := h u hu
  rw [e] at e'
  exact Except.ok.inj e' ▸ hc

/-- Nothing was said about the session or the tree. -/
def NoVerdict (s : Call (W × List Event) Issue) : Prop := s.issue = .none ∨ s.issue = .receiptInvalid

theorem Inner.noVerdict (h : Inner s s') (hs : NoVerdict s) : NoVerdict s' := by
  rcases h.issue with hi | hi
  · unfold NoVerdict
    rw [hi]
    exact hs
  · exact .inr hi

/-- The phase before the first clock sample. -/
structure Before (s₀ s : Call (W × List Event) Issue) : Prop where
  outer : Outer s₀ s
  verdict : NoVerdict s
  unsampled : samples (trace s) = []

/-- The phase after a clock sample that was inside the window. -/
structure After (win : Window) (s₀ s : Call (W × List Event) Issue) : Prop where
  outer : Outer s₀ s
  verdict : NoVerdict s
  sampled : samples (trace s) ≠ []
  inside : AllIn win (samples (trace s))

/-- The end of a call that failed: rejected, or with every sample inside the window, or without a word about
    the tree. -/
structure Failed (win : Window) (s₀ : Call (W × List Event) Issue) (f : Failure)
    (s : Call (W × List Event) Issue) : Prop where
  outer : Outer s₀ s
  cause : (s.issue = .authRejected ∧ f = .notFound) ∨
    (samples (trace s) ≠ [] ∧ AllIn win (samples (trace s))) ∨
    (NoVerdict s ∧ NoneOut win (samples (trace s)))

section Rules

variable {win : Window} {s₀ s s' : Call (W × List Event) Issue}
  {p : NodeStep (W × List Event) α} {f : α → NodeStep (W × List Event) β}
  {Q : β → Call (W × List Event) Issue → Prop} (ops : Ops W) {k : UInt64 → NodeStep (W × List Event) β}

theorem Before.inner (h : Before s₀ s) (k : Inner s s') : Before s₀ s' :=
  ⟨h.outer.trans k.outer, k.noVerdict h.verdict, k.samples.trans h.unsampled⟩

theorem After.inner (h : After win s₀ s) (k : Inner s s') : After win s₀ s' :=
  ⟨h.outer.trans k.outer, k.noVerdict h.verdict, k.samples ▸ h.sampled, k.samples ▸ h.inside⟩

theorem Before.failed (h : Before s₀ s) (e : Failure) : Failed win s₀ e s :=
  ⟨h.outer, .inr (.inr ⟨h.verdict, fun u hu => by rw [h.unsampled] at hu; cases hu⟩)⟩

theorem After.failed (h : After win s₀ s) (e : Failure) : Failed win s₀ e s :=
  ⟨h.outer, .inr (.inl ⟨h.sampled, h.inside⟩)⟩

theorem wp_before (hs : Before s₀ s) (hp : InnerStep p)
    (hf : ∀ a s', Before s₀ s' → wp (f a) Q (Failed win s₀) s') :
    wp (p >>= f) Q (Failed win s₀) s :=
  wp_bind.mpr (wp_mono (hp.wp s) (fun a s' k => hf a s' (hs.inner k)) (fun e _ k => (hs.inner k).failed e))

theorem wp_after (hs : After win s₀ s) (hp : InnerStep p)
    (hf : ∀ a s', After win s₀ s' → wp (f a) Q (Failed win s₀) s') :
    wp (p >>= f) Q (Failed win s₀) s :=
  wp_bind.mpr (wp_mono (hp.wp s) (fun a s' k => hf a s' (hs.inner k)) (fun e _ k => (hs.inner k).failed e))

/-- Reading the clock and testing the window, from any state whose samples are inside it. -/
theorem wp_clock (ho : Outer s₀ s) (hv : NoVerdict s) (hin : AllIn win (samples (trace s)))
    (hk : ∀ now s', After win s₀ s' → wp (k now) Q (Failed win s₀) s') :
    wp (captureUtc ops.traced >>= fun now => checkWindow win now >>= fun _ => k now) Q
      (Failed win s₀) s := by
  let u := (ops.utc s.world.1).1
  let s₁ : Call (W × List Event) Issue :=
    { s with world := ((ops.utc s.world.1).2, s.world.2 ++ [.sampled u]) }
  have ho₁ : Outer s₀ s₁ := ho.trans (outer_sampled s _ u)
  have hsm : samples (trace s₁) = samples (trace s) ++ [u] := samples_append ..
  refine wp_bind.mpr (wp_onError.mpr ?_)
  cases hm : u.millis with
  | error e =>
    refine wp_of_error (e := e) (t := s₁) (by show (u.millis, s₁) = _; rw [hm]) ?_
    refine ⟨ho₁.trans (Inner.diagnose s₁ .utc e.val none).outer, .inr (.inr ⟨hv, ?_⟩)⟩
    show NoneOut win (samples (trace s₁))
    rw [hsm]
    intro x hx now e'
    rcases mem_append.mp hx with hx | hx
    · exact hin.noneOut x hx now e'
    · rw [mem_singleton.mp hx, hm] at e'
      cases e'
  | ok now =>
    refine wp_of_ok (a := now) (t := s₁) (by show (u.millis, s₁) = _; rw [hm]) ?_
    refine wp_bind.mpr ?_
    unfold checkWindow
    by_cases hc : win.Contains now
    · rw [if_pos hc]
      refine wp_pure.mpr (hk now s₁ ⟨ho₁, hv, ?_, ?_⟩)
      · rw [hsm]
        exact append_ne_nil_of_right_ne_nil _ (cons_ne_nil _ _)
      · rw [hsm]
        intro x hx
        rcases mem_append.mp hx with hx | hx
        · exact hin x hx
        · rw [mem_singleton.mp hx]
          exact ⟨now, hm, hc⟩
    · rw [if_neg hc]
      exact wp_of_error rfl ⟨ho₁.trans (outer_verdict s₁ _), .inl ⟨rfl, rfl⟩⟩

theorem wp_clock_before (hs : Before s₀ s) (hk : ∀ now s', After win s₀ s' → wp (k now) Q (Failed win s₀) s') :
    wp (captureUtc ops.traced >>= fun now => checkWindow win now >>= fun _ => k now) Q (Failed win s₀) s :=
  wp_clock ops hs.outer hs.verdict (fun u hu => by rw [hs.unsampled] at hu; cases hu) hk

theorem wp_verdict (hs : After win s₀ s) (v : Verdict) :
    wp (reject v : NodeStep (W × List Event) β) Q (Failed win s₀) s :=
  wp_of_error rfl ⟨hs.outer.trans (outer_verdict s v), .inr (.inl ⟨hs.sampled, hs.inside⟩)⟩

end Rules

/-! ## 3. The six entries -/

/-- **The work of an entry keeps the clock discipline**; what it returns as recovered satisfies
    `recovered`. -/
def Sound (win : Window) (recovered : α → Prop) (work : NodeStep (W × List Event) (Settled α)) :
    Prop :=
  ∀ s₀ s, Before s₀ s → wp work
    (fun r s' => After win s₀ s' ∧ ∀ a, r = .recovered a → recovered a) (Failed win s₀) s

theorem soundRules (ops : Ops W) (win : Window) (recovered : α → Prop) :
    WorkRules ops.traced Inner win (Sound win recovered) (fun work => ∀ s₀ s, After win s₀ s → wp work
        (fun r s' => After win s₀ s' ∧ ∀ a, r = .recovered a → recovered a) (Failed win s₀) s) recovered where
  toKeptByHelpers := inner ops
  read hp hf _ _ hs := wp_before hs hp fun b _ hs => hf b _ _ hs
  clock hk _ _ hs := wp_clock_before ops hs fun now _ hs => hk now _ _ hs
  step hp hf _ _ hs := wp_after hs hp fun b _ hs => hf b _ _ hs
  reject v _ _ hs := wp_verdict hs v
  ready _ _ _ hs := wp_pure.mpr ⟨hs, nofun⟩
  again _ ha _ _ hs := wp_pure.mpr ⟨hs, fun _ e => Settled.recovered.inj e ▸ ha⟩

end Vireo.Persistence.Node
