/-
  File:      Vireo/Thread/TaskCancel.lean
  Subject:   THE SHARED CANCEL STATE: any number of references, in any order of atomic steps.

  A reference is a variable that points to the state. A step is one atomic access of one call, together
  with what the call does to its own variables; a call uses variables that no other call is about to
  change. The log has every access to the state, in order.
-/
import Mathlib.Algebra.Group.Nat.Defs
import Mathlib.Data.List.Nodup
import Vireo.Lib.EventLog

namespace Vireo.Thread

open Vireo.Lib Function List

/-- Where a call stands between two accesses: filling its variable from `cancel`, with the last count it saw,
    or about to free the state. -/
inductive CancelCall (κ : Type) where
  | none
  | retain (cancel : κ) (count : UInt64)
  | free
deriving DecidableEq

/-- The call reads the state through `k`. -/
def CancelCall.borrows {κ : Type} [DecidableEq κ] (k : κ) : CancelCall κ → Bool
  | .retain cancel _ => cancel = k
  | _ => false

/-- An access to the state. -/
inductive CancelEvent where
  | touched
  | requested
  | reported (value : Bool)
  | freed
deriving DecidableEq

/-- `vireo_task_cancel_t` with the variables that may point to it, and the calls in progress on them. -/
structure TaskCancel (κ : Type) where
  references : UInt64
  requested : Bool
  owner : κ → Bool
  call : κ → CancelCall κ
  log : List CancelEvent

/-- One step: the first or only access of a call, or a later one of a call in progress. -/
inductive CancelStep (κ : Type) where
  | retain (cancel out : κ)
  | exchange (out : κ) (spurious : Bool)
  | request (cancel : κ)
  | isRequested (cancel : κ)
  | move (source destination : κ)
  | destroy (owner : κ)
  | deallocate (owner : κ)

namespace TaskCancel

variable {κ : Type} [DecidableEq κ]

/-- What `create` leaves: one reference. -/
def create (out : κ) : TaskCancel κ := ⟨1, false, update (fun _ => false) out true, fun _ => .none, []⟩

variable (s : TaskCancel κ)

/-- One step. What a call refuses changes nothing. -/
def exec : CancelStep κ → TaskCancel κ
  | .retain cancel out =>
    if s.owner cancel = false ∨ s.owner out = true then s
    else { s with call := update s.call out (.retain cancel s.references), log := s.log ++ [.touched] }
  | .exchange out spurious =>
    match s.call out with
    | .retain cancel count =>
      -- VIREO_RESULT_OVERFLOW, seen in the count of the last access
      if count = 0xFFFFFFFFFFFFFFFF then { s with call := update s.call out .none }
      else if s.references = count ∧ spurious = false then
        { s with
          references := count + 1
          owner := update s.owner out true
          call := update s.call out .none
          log := s.log ++ [.touched] }
      else { s with call := update s.call out (.retain cancel s.references), log := s.log ++ [.touched] }
    | _ => s
  | .request cancel =>
    if s.owner cancel then { s with requested := true, log := s.log ++ [.requested] } else s
  | .isRequested cancel => if s.owner cancel then { s with log := s.log ++ [.reported s.requested] } else s
  | .move source destination =>
    if source = destination ∨ s.owner destination = true ∨ s.owner source = false then s
    else { s with owner := update (update s.owner source false) destination true }
  | .destroy owner =>
    if s.owner owner = false then s
    else if s.references = 1 then
      { s with references := s.references - 1, call := update s.call owner .free, log := s.log ++ [.touched] }
    else
      { s with references := s.references - 1, owner := update s.owner owner false, log := s.log ++ [.touched] }
  | .deallocate owner =>
    if s.call owner = .free then
      { s with owner := update s.owner owner false, call := update s.call owner .none, log := s.log ++ [.freed] }
    else s

/-- A reference: the variable points to the state, and no `destroy` has given it up. -/
def Outstanding (k : κ) : Prop := s.owner k = true ∧ s.call k ≠ .free

instance (k : κ) : Decidable (s.Outstanding k) := inferInstanceAs (Decidable (_ ∧ _))

/-- No call in progress uses the variable. -/
def Unused (k : κ) : Prop := s.call k = .none ∧ ∀ out, (s.call out).borrows k = false

/-- What a holder may start. A reference may be read by many calls; only an unused one is given away. -/
def Allowed : CancelStep κ → Prop
  | .retain cancel out => s.call cancel = .none ∧ s.call out = .none
  | .request cancel | .isRequested cancel => s.call cancel = .none
  | .move source destination => s.Unused source ∧ s.call destination = .none
  | .destroy owner => s.Unused owner
  | .exchange _ _ | .deallocate _ => True

/-- What a step does to the references, to the log and to its call. A `retain` that saw another count, or whose
    exchange failed without cause, has the new count and tries again; the last `destroy` frees the state. -/
def Effect (s s' : TaskCancel κ) : CancelStep κ → Prop
  | .retain cancel out =>
    if s.Outstanding cancel ∧ ¬ s.Outstanding out then
      (∀ k, s'.Outstanding k ↔ s.Outstanding k) ∧ s'.log = s.log ++ [.touched] ∧
        s'.call = update s.call out (.retain cancel s.references)
    else s' = s
  | .exchange out spurious =>
    match s.call out with
    | .retain cancel count =>
      if count.toNat = 2 ^ 64 - 1 then
        (∀ k, s'.Outstanding k ↔ s.Outstanding k) ∧ s'.log = s.log ∧ s'.call = update s.call out .none
      else if s.references = count ∧ spurious = false then
        (∀ k, s'.Outstanding k ↔ k = out ∨ s.Outstanding k) ∧ s'.log = s.log ++ [.touched] ∧
          s'.call = update s.call out .none
      else
        (∀ k, s'.Outstanding k ↔ s.Outstanding k) ∧ s'.log = s.log ++ [.touched] ∧
          s'.call = update s.call out (.retain cancel s.references)
    | _ => s' = s
  | .request cancel =>
    (∀ k, s'.Outstanding k ↔ s.Outstanding k) ∧ s'.call = s.call ∧
      s'.log = s.log ++ if s.Outstanding cancel then [.requested] else []
  | .isRequested cancel =>
    (∀ k, s'.Outstanding k ↔ s.Outstanding k) ∧ s'.call = s.call ∧
      s'.log = s.log ++ if s.Outstanding cancel then [.reported (decide (.requested ∈ s.log))] else []
  | .move source destination =>
    s'.log = s.log ∧ s'.call = s.call ∧
      ∀ k, s'.Outstanding k ↔
        if s.Outstanding source ∧ ¬ s.Outstanding destination then k = destination ∨ k ≠ source ∧ s.Outstanding k
        else s.Outstanding k
  | .destroy owner =>
    (∀ k, s'.Outstanding k ↔ k ≠ owner ∧ s.Outstanding k) ∧
      s'.log = s.log ++ (if s.Outstanding owner then [.touched] else []) ∧
      (∀ k, k ≠ owner → s'.call k = s.call k) ∧
      (s'.call owner = .free ↔ s.Outstanding owner ∧ ∀ k, s.Outstanding k → k = owner)
  | .deallocate owner =>
    (∀ k, s'.Outstanding k ↔ s.Outstanding k) ∧
      s'.log = s.log ++ (if s.call owner = .free then [.freed] else []) ∧
      s'.call = if s.call owner = .free then update s.call owner .none else s.call

end TaskCancel

open TaskCancel

/-- The states reached from a created one. -/
inductive CancelRun {κ : Type} [DecidableEq κ] : TaskCancel κ → Prop
  | create (out : κ) : CancelRun (create out)
  | step {s : TaskCancel κ} (h : CancelRun s) (e : CancelStep κ) (allowed : s.Allowed e) : CancelRun (s.exec e)

/-- Nothing comes after the state was freed, and `false` is not reported after a request. -/
def cancelLaw (before : List CancelEvent) (e : CancelEvent) : Prop :=
  .freed ∉ before ∧ (e = .reported false → .requested ∉ before)

/-- What holds between two steps; `held` are the references. -/
structure CancelInv {κ : Type} (s : TaskCancel κ) (held : List κ) : Prop where
  nodup : held.Nodup
  mem : ∀ k, k ∈ held ↔ s.Outstanding k
  count : s.references.toNat = held.length
  retains : ∀ out cancel count, s.call out = .retain cancel count → s.owner out = false ∧ cancel ∈ held
  gone : held = [] ↔ .freed ∈ s.log ∨ ∃ k, s.call k = .free
  last : ∀ {k}, s.call k = .free → s.owner k = true ∧ .freed ∉ s.log ∧ ∀ k', s.call k' = .free → k' = k
  requested : s.requested = true ↔ .requested ∈ s.log
  lawful : Lawful cancelLaw s.log

section

variable {κ : Type} {s s' : TaskCancel κ} {held held' : List κ} {k : κ} {e : CancelEvent}

section

variable (inv : CancelInv s held)
include inv

theorem CancelInv.alive (hk : k ∈ held) : .freed ∉ s.log ∧ ∀ k, s.call k ≠ .free := by
  have hne : held ≠ [] := ne_nil_of_mem hk
  rw [Ne, inv.gone, not_or, not_exists] at hne
  exact hne

theorem CancelInv.access (hk : k ∈ held) (he : e ≠ .freed) (hsaid : e = .reported false → s.requested = false)
    (hlog : s'.log = s.log ++ [e]) (hrequested : s'.requested = (s.requested || decide (e = .requested)))
    (hne : held' ≠ []) (nodup : held'.Nodup) (hfree : ∀ k, s'.call k ≠ .free)
    (mem : ∀ k, k ∈ held' ↔ s'.owner k = true) (count : s'.references.toNat = held'.length)
    (retains : ∀ out cancel count, s'.call out = .retain cancel count → s'.owner out = false ∧ cancel ∈ held') :
    CancelInv s' held' where
  nodup := nodup
  mem k := (mem k).trans (and_iff_left (hfree k)).symm
  count := count
  retains := retains
  gone := by
    simp only [hne, hfree, hlog, false_iff, exists_false, or_false, mem_append, mem_singleton, not_or]
    exact ⟨(inv.alive hk).1, he.symm⟩
  last h := absurd h (hfree _)
  requested := by
    rw [hlog, mem_append, mem_singleton, hrequested, Bool.or_eq_true, decide_eq_true_eq, inv.requested,
      eq_comm (a := e)]
  lawful := hlog ▸ inv.lawful.snoc
    ⟨(inv.alive hk).1, fun h hmem => nomatch (hsaid h).symm.trans (inv.requested.mpr hmem)⟩

theorem CancelInv.mem_of_none (howner : s.owner k = true) (hcall : s.call k = .none) : k ∈ held :=
  (inv.mem k).mpr ⟨howner, by rw [hcall]; nofun⟩

theorem CancelInv.owner_iff (hk : k ∈ held) (j : κ) : j ∈ held ↔ s.owner j = true :=
  (inv.mem j).trans (and_iff_left ((inv.alive hk).2 j))

/-- The count is at 1 when the reference is the last one. -/
theorem CancelInv.last_iff (hk : k ∈ held) : s.references = 1 ↔ ∀ j, s.Outstanding j → j = k := by
  have hone : s.references = 1 ↔ held.length = 1 := by
    rw [← inv.count]
    exact UInt64.toNat_inj.symm
  rw [hone, length_eq_one_iff]
  constructor
  · rintro ⟨a, rfl⟩ j hj
    rw [mem_singleton.mp hk]
    exact mem_singleton.mp ((inv.mem j).mpr hj)
  · intro hall
    refine ⟨k, perm_singleton.mp ((perm_ext_iff_of_nodup inv.nodup (nodup_singleton k)).mpr fun j => ?_)⟩
    rw [mem_singleton]
    exact ⟨fun hj => hall j ((inv.mem j).mp hj), fun hj => hj ▸ hk⟩

variable [DecidableEq κ]

theorem CancelInv.retaining {cancel out : κ} (hk : cancel ∈ held) (hout : s.owner out = false)
    (count : UInt64) :
    CancelInv { s with call := update s.call out (.retain cancel count), log := s.log ++ [.touched] } held := by
  refine inv.access hk (e := .touched) nofun nofun rfl (by simp) (ne_nil_of_mem hk) inv.nodup
    (fun k => ?_) (inv.owner_iff hk) inv.count ?_
  · have := (inv.alive hk).2 k
    grind [update_apply]
  · have := inv.retains
    grind [update_apply]

theorem cancelInv_exec (step : CancelStep κ) (allowed : s.Allowed step) :
    ∃ held', CancelInv (s.exec step) held' := by
  cases step with
  | retain cancel out =>
    rw [exec]
    split
    · exact ⟨held, inv⟩
    rename_i h
    rw [not_or, Bool.not_eq_false, Bool.not_eq_true] at h
    exact ⟨held, inv.retaining (inv.mem_of_none h.1 allowed.1) h.2 _⟩
  | exchange out spurious =>
    rw [exec]
    split
    · rename_i cancel count hcall
      obtain ⟨hout, hk⟩ := inv.retains _ _ _ hcall
      have hfree := (inv.alive hk).2
      have howner := inv.owner_iff hk
      split
      · refine ⟨held, { inv with mem := ?_, retains := ?_, gone := ?_, last := ?_ }⟩
        · grind [update_apply, Outstanding]
        · have := inv.retains
          grind [update_apply]
        · have := inv.gone
          grind [update_apply]
        · grind [update_apply]
      rename_i hmax
      split
      · rename_i hsame
        refine ⟨out :: held, inv.access hk (e := .touched) nofun nofun rfl (by simp) (cons_ne_nil _ _)
          (nodup_cons.mpr ⟨?_, inv.nodup⟩) (fun k => ?_) (fun k => ?_) ?_ ?_⟩
        · grind
        · grind [update_apply]
        · grind [update_apply]
        · have := inv.count
          have hlt : count.toNat ≠ 2 ^ 64 - 1 := fun h => hmax (UInt64.toNat_inj.mp h)
          have hadd : (count + 1).toNat = (count.toNat + 1) % 2 ^ 64 := UInt64.toNat_add _ _
          have hlt' := count.toNat_lt
          rw [length_cons, ← inv.count, hsame.1, hadd]
          omega
        · have := inv.retains
          grind [update_apply]
      · exact ⟨held, inv.retaining hk hout _⟩
    · exact ⟨held, inv⟩
  | request cancel =>
    rw [exec]
    split
    · rename_i h
      have hk := inv.mem_of_none h allowed
      exact ⟨held, inv.access hk (e := .requested) nofun nofun rfl (by simp) (ne_nil_of_mem hk)
        inv.nodup (inv.alive hk).2 (inv.owner_iff hk) inv.count inv.retains⟩
    · exact ⟨held, inv⟩
  | isRequested cancel =>
    rw [exec]
    split
    · rename_i h
      have hk := inv.mem_of_none h allowed
      exact ⟨held, inv.access hk (e := .reported s.requested) nofun CancelEvent.reported.inj rfl (by simp)
        (ne_nil_of_mem hk) inv.nodup (inv.alive hk).2 (inv.owner_iff hk) inv.count inv.retains⟩
    · exact ⟨held, inv⟩
  | move source destination =>
    obtain ⟨⟨hsource, hunused⟩, hdestination⟩ := allowed
    rw [exec]
    split
    · exact ⟨held, inv⟩
    rename_i h
    rw [not_or, not_or, Bool.not_eq_false] at h
    have hk := inv.mem_of_none h.2.2 hsource
    have howner := inv.owner_iff hk
    have hfree := (inv.alive hk).2
    refine ⟨destination :: held.erase source, { inv with
      nodup := nodup_cons.mpr ⟨fun hmem => h.2.1 ((howner _).mp (mem_of_mem_erase hmem)), inv.nodup.erase _⟩
      mem := fun k => ?_, count := ?_, retains := fun j cancel count hj => ?_, gone := ?_
      last := fun hj => absurd hj (hfree _) }⟩
    · have := inv.nodup.mem_erase_iff (a := k) (b := source)
      grind [update_apply, Outstanding]
    · rw [length_cons, length_erase_of_mem hk, Nat.sub_add_cancel (length_pos_of_mem hk)]
      exact inv.count
    · have := inv.retains j cancel count hj
      have := hunused j
      have := inv.nodup.mem_erase_iff (a := cancel) (b := source)
      grind [update_apply, CancelCall.borrows]
    · exact iff_of_false (cons_ne_nil _ _) (mt inv.gone.mpr (ne_nil_of_mem hk))
  | destroy owner =>
    obtain ⟨hcall, hunused⟩ := allowed
    rw [exec]
    split
    · exact ⟨held, inv⟩
    rename_i h
    have hk := inv.mem_of_none ((Bool.not_eq_false _).mp h) hcall
    have howner := inv.owner_iff hk
    have hfree := (inv.alive hk).2
    have herase := fun k => inv.nodup.mem_erase_iff (a := k) (b := owner)
    have hpos := length_pos_of_mem hk
    have hsub : (s.references - 1).toNat = held.length - 1 := by
      rw [UInt64.toNat_sub_of_le, inv.count]
      · rfl
      · exact UInt64.le_iff_toNat_le.mpr (inv.count ▸ hpos)
    have hretains : ∀ out cancel count, s.call out = .retain cancel count →
        s.owner out = false ∧ cancel ∈ held.erase owner := by
      intro out cancel count ho
      have := inv.retains out cancel count ho
      have := hunused out
      grind [CancelCall.borrows]
    have hlength := length_erase_of_mem hk
    split
    · rename_i hone
      have hnil : held.erase owner = [] := by
        rw [← length_eq_zero_iff, hlength, ← inv.count, hone]
        rfl
      rw [hnil] at herase hretains hlength
      refine ⟨[], nodup_nil, fun k => ?_, hsub.trans hlength.symm, ?_, ?_, fun {k} hfreeing => ?_, ?_,
        inv.lawful.snoc ⟨(inv.alive hk).1, nofun⟩⟩
      · have := herase k
        grind [update_apply, Outstanding]
      · grind [update_apply]
      · exact iff_of_true rfl (.inr ⟨owner, update_self ..⟩)
      · have := (inv.alive hk).1
        grind [update_apply]
      · simpa using inv.requested
    · rename_i hone
      refine ⟨held.erase owner, inv.access hk (e := .touched) nofun nofun rfl (by simp)
        (fun hnil => hone ?_) (inv.nodup.erase _) hfree (fun k => ?_) (hsub.trans hlength.symm) ?_⟩
      · rw [hnil, length_nil] at hlength
        refine UInt64.toNat_inj.mp (inv.count.trans ?_)
        show held.length = 1
        omega
      · grind [update_apply]
      · grind [update_apply]
  | deallocate owner =>
    rw [exec]
    split
    · rename_i hcall
      obtain ⟨-, hnot, honly⟩ := inv.last hcall
      obtain rfl := inv.gone.mpr (.inr ⟨owner, hcall⟩)
      refine ⟨[], nodup_nil, fun k => ?_, inv.count, ?_, ?_, fun {k} hk => ?_, ?_,
        inv.lawful.snoc ⟨hnot, nofun⟩⟩
      · have := inv.mem k
        grind [update_apply, Outstanding]
      · have := inv.retains
        grind [update_apply]
      · simp
      · have := honly k
        grind [update_apply]
      · simpa using inv.requested
    · exact ⟨held, inv⟩

theorem cancelEffect_exec (step : CancelStep κ) (allowed : s.Allowed step) : s.Effect (s.exec step) step := by
  have hheld : ∀ {k}, s.call k = .none → (s.Outstanding k ↔ s.owner k = true) :=
    fun h => and_iff_left fun hfree => nomatch h.symm.trans hfree
  -- a call with one access logs it iff its variable is a reference
  have hlogged : ∀ {k} (es : List CancelEvent), s.call k = .none →
      s.log ++ (if s.Outstanding k then es else []) = if s.owner k = true then s.log ++ es else s.log := by
    intro k es h
    rw [if_congr (hheld h) rfl rfl]
    split
    · rfl
    · exact append_nil _
  cases step with
  | retain cancel out =>
    have hcancel := hheld allowed.1
    have hout := hheld allowed.2
    rw [exec]
    split
    · rw [Effect, if_neg (by grind)]
    · rw [Effect, if_pos (by grind)]
      exact ⟨fun k => by grind [update_apply, Outstanding], rfl, rfl⟩
  | exchange out spurious =>
    cases hcall : s.call out with
    | retain cancel count =>
      obtain ⟨hout, hk⟩ := inv.retains _ _ _ hcall
      have hfree := (inv.alive hk).2
      have hmax : count.toNat = 2 ^ 64 - 1 ↔ count = 0xFFFFFFFFFFFFFFFF :=
        UInt64.toNat_inj (b := 0xFFFFFFFFFFFFFFFF)
      simp only [exec, Effect, hcall, hmax]
      split
      · exact ⟨fun k => by grind [update_apply, Outstanding], rfl, rfl⟩
      split
      · exact ⟨fun k => by grind [update_apply, Outstanding], rfl, rfl⟩
      · exact ⟨fun k => by grind [update_apply, Outstanding], rfl, rfl⟩
    | none | free => simp only [exec, Effect, hcall]
  | request cancel =>
    rw [exec]
    split
    · rename_i h
      exact ⟨fun _ => Iff.rfl, rfl, ((hlogged _ allowed).trans (if_pos h)).symm⟩
    · rename_i h
      exact ⟨fun _ => Iff.rfl, rfl, ((hlogged _ allowed).trans (if_neg h)).symm⟩
  | isRequested cancel =>
    have hrequested : s.requested = decide (.requested ∈ s.log) := by
      rw [Bool.eq_iff_iff, inv.requested, decide_eq_true_eq]
    rw [exec, hrequested]
    split
    · rename_i h
      exact ⟨fun _ => Iff.rfl, rfl, ((hlogged _ allowed).trans (if_pos h)).symm⟩
    · rename_i h
      exact ⟨fun _ => Iff.rfl, rfl, ((hlogged _ allowed).trans (if_neg h)).symm⟩
  | move source destination =>
    obtain ⟨⟨hsource, -⟩, hdestination⟩ := allowed
    have := hheld hsource
    have := hheld hdestination
    rw [exec]
    split
    · exact ⟨rfl, rfl, fun k => by rw [if_neg (by grind)]⟩
    · exact ⟨rfl, rfl, fun k => by rw [if_pos (by grind)]; grind [update_apply, Outstanding]⟩
  | destroy owner =>
    obtain ⟨hcall, -⟩ := allowed
    have howner := hheld hcall
    rw [exec]
    split
    · exact ⟨fun k => by grind, by grind, fun k _ => rfl, by grind⟩
    rename_i h
    rw [Bool.not_eq_false] at h
    have hk := inv.mem_of_none h hcall
    have hfree := (inv.alive hk).2
    have hlast := inv.last_iff hk
    split
    · exact ⟨fun k => by grind [update_apply, Outstanding], by rw [if_pos (howner.mpr h)],
        fun k hne => update_of_ne hne .., by grind [update_apply]⟩
    · exact ⟨fun k => by grind [update_apply, Outstanding], by rw [if_pos (howner.mpr h)], fun k _ => rfl,
        by grind⟩
  | deallocate owner =>
    rw [exec]
    split
    · rename_i h
      exact ⟨fun k => by grind [update_apply, Outstanding], by rw [if_pos h], (if_pos h).symm⟩
    · rename_i h
      exact ⟨fun _ => Iff.rfl, by rw [if_neg h, append_nil], (if_neg h).symm⟩

end

end

/-- **The law of a cancel state**, in every reachable state: the count is the number of the references; it is
    freed once, by the `destroy` that took the last, and nothing is done with it afterwards; a holder may do any
    step, and it does what it has to. -/
theorem cancel_law {κ : Type} [DecidableEq κ] {s : TaskCancel κ} (h : CancelRun s) :
    (∃ held : List κ, held.Nodup ∧ (∀ k, k ∈ held ↔ s.Outstanding k) ∧ s.references.toNat = held.length) ∧
    ((∀ k, ¬ s.Outstanding k) ↔ s.log.count .freed = 1 ∨ ∃ k, s.call k = .free) ∧
    (∀ k, s.call k = .free → .freed ∉ s.log ∧ ∀ k', s.call k' = .free → k' = k) ∧
    s.log.count .freed ≤ 1 ∧ Lawful cancelLaw s.log ∧
    ∀ e, s.Allowed e → s.Effect (s.exec e) e := by
  obtain ⟨held, inv⟩ : ∃ held, CancelInv s held := by
    induction h with
    | create out =>
      refine ⟨[out], nodup_singleton _, fun k => ?_, rfl, nofun, by simp [create], nofun, by simp [create], lawful_nil⟩
      rw [mem_singleton]
      simp [Outstanding, create, update_apply]
    | step _ e allowed ih =>
      obtain ⟨held, inv⟩ := ih
      exact cancelInv_exec inv e allowed
  have hone : s.log.count .freed ≤ 1 := inv.lawful.countP_le_one fun before e hlaw he e' he' => by
    have := hlaw.1
    grind
  refine ⟨⟨held, inv.nodup, inv.mem, inv.count⟩, ?_, fun k hk => (inv.last hk).2, hone, inv.lawful,
    cancelEffect_exec inv⟩
  have hfreed : s.log.count .freed = 1 ↔ .freed ∈ s.log := by
    rw [← count_pos_iff]
    omega
  rw [hfreed, ← inv.gone, eq_nil_iff_forall_not_mem]
  exact forall_congr' fun k => not_congr (inv.mem k).symm

/-- Two references: the second exchange makes the other one, which sees the request; the last one frees it. -/
theorem cancel_law_two :
    let s := [.retain true false, .exchange false true, .exchange false false, .request true, .destroy true,
      .isRequested false, .destroy false, .deallocate false].foldl exec (create true)
    s.log.count .freed = 1 ∧ .reported true ∈ s.log := by
  intro s
  have h : CancelRun s := (((((((CancelRun.create true).step (.retain true false) ⟨rfl, rfl⟩).step
    (.exchange false true) trivial).step (.exchange false false) trivial).step (.request true) rfl).step
    (.destroy true) ⟨rfl, by decide⟩).step (.isRequested false) rfl).step (.destroy false) ⟨rfl, by decide⟩
    |>.step (.deallocate false) trivial
  exact ⟨((cancel_law h).2.1.mp (by decide)).resolve_right (by decide), by decide⟩

end Vireo.Thread
