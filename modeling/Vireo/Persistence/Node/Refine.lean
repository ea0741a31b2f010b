/-
  File:      Vireo/Persistence/Node/Refine.lean
  Subject:   THE WORK OF THE SIX ENTRIES SIMULATES THE IDEAL WORK.
-/
import Vireo.Persistence.Node.Spec

namespace Vireo.Persistence.Node

open Lib Prog

variable {α β δ : Type} {win : Window}

/-- A failed dependency call leaves no issue, the refusal of a receipt it could not read, or an earlier
    rejection. -/
instance : Accidents Issue where
  accident i := i = .none ∨ i = .receiptInvalid ∨ i = .authRejected
  default_accident := .inl rfl

/-! ## 1. Locking reads -/

section Reads

variable {t : Tables} {s s₀ : Call World Issue} {p : NodeStep World α} {a : α} {check : List Cell → Option β}
  {Q : α → Call World Issue → Prop} {ρ : Type} {sql : Sql} {params : List Param}

/-- Whatever the tables `t` are, the step returns `a` and leaves everything as it was, or a fault strikes. -/
def Sees (t : Tables) (p : NodeStep World α) (a : α) : Prop :=
  ∀ s, s.world.faulted = false → s.statement = none → s.err = {} → s.world.working = t → wp p
    (fun b s' => b = a ∧ Amid s s' ∧ s'.statement = none) (fun _ s' => Lost s s') s

theorem Sees.reads (h : Sees t p a) : Reads t p a :=
  fun s hs ht => wp_mono (h s hs.faultless hs.statement hs.err ht) (fun _ _ hq => hq)
    (fun _ _ hl => ⟨hl.kept, hl.lost hs⟩)

theorem Sees.pure (a : α) : Sees t (Pure.pure a : NodeStep World α) a :=
  fun _ hf hst _ _ => wp_pure.mpr ⟨rfl, .refl hf, hst⟩

theorem Sees.bind {f : α → NodeStep World β} {b : β} (hp : Sees t p a) (hf : Sees t (f a) b) :
    Sees t (p >>= f) b := by
  intro s hfine hst he ht
  refine wp_bind.mpr (wp_mono (hp s hfine hst he ht) ?_ (fun _ _ h => h))
  rintro a' s' ⟨rfl, ha, hst'⟩
  have hw : s'.world.working = s.world.working := congrArg View.tables ha.view
  have herr : s'.err = s.err := congrArg View.err ha.view
  refine wp_mono (hf s' ha.faultless hst' (herr.trans he) (hw.trans ht)) ?_ ?_
  · rintro b' s'' ⟨rfl, hb, hst''⟩
    exact ⟨rfl, ⟨hb.faultless, hb.view.trans ha.view, ha.kept.trans hb.kept⟩, hst''⟩
  · exact fun _ s'' hl => ⟨hl.faulted, hl.issue.trans ha.issue, ha.kept.trans hl.kept⟩

theorem sees_closing (stage : Stage) (h : ∀ s, s.world.faulted = false → s.err = {} → s.world.working = t →
      wp p (fun b s' => b = a ∧ Amid s s') (fun _ s' => Lost s s') s) :
    Sees t (closing dbOps stage p) a :=
  fun s hf _ he ht => wp_closing_amid (h s hf he ht)

theorem reads_closing (stage : Stage)
    (h : ∀ s, Quiet s → s.world.working = t → wp p (fun b s' => b = a ∧ Amid s s') (fun _ s' => Lost s s') s) :
    Reads t (closing dbOps stage p) a :=
  fun s hs ht => wp_mono (wp_closing_amid (h s hs ht)) (fun _ _ hq => hq)
    (fun _ _ hl => ⟨hl.kept, hl.lost hs⟩)

/-- A fetch of one row, with its columns. -/
def Fetches (n : Nat) (read : NodeStep World (Option (List Cell))) : Prop :=
  ∀ s₀ s, s₀.err = {} → Amid s₀ s → (∀ r ∈ s.world.rows.head?, r.length = n) → wp read
    (fun r s' => r = s.world.rows.head? ∧ s'.world.rows = s.world.rows.tail ∧ Amid s₀ s')
    (fun _ s' => Lost s₀ s') s

theorem fetches_readRow (sql : Sql) (stage : Stage) (n : Nat) : Fetches n (readRow dbOps sql stage n) :=
  fun _ _ _ h hn => wp_readRow_db sql stage h hn

theorem fetches_retag (sql : Sql) (stage stage' : Stage) (n : Nat) :
    Fetches n (always (readRow dbOps sql stage n) (Prog.modify (retag stage'))) := by
  intro s₀ s herr h hn
  have hretag : ∀ s : Call World Issue, Lost s₀ s → Lost s₀ (retag stage' s) := by
    intro s hl
    unfold retag
    split
    · exact hl.kept.struck hl.issue hl.faulted rfl (Counters.Le.refl _) rfl rfl rfl
    · exact hl
  refine wp_always.mpr (wp_mono (wp_readRow_db sql stage h hn) ?_ ?_)
  · rintro r s' ⟨hr, hrows, ha⟩
    have he : s'.err = {} := (congrArg View.err ha.view).trans herr
    have : retag stage' s' = s' := by
      unfold retag
      rw [he]
      exact if_neg (by simp)
    refine wp_modify.mpr ?_
    rw [this]
    exact ⟨hr, hrows, ha⟩
  · exact fun _ s' hl => wp_modify.mpr (hretag s' hl)

variable {o : Option ρ} {cells : ρ → List Cell} {g : ρ → β}

/-- **A locking read returns the row of the tables**, when its statement answers with that row and its
    check accepts it. -/
theorem wp_lockRow_db (limits : Limits) (hq : ¬ sql.Bracket) (stage : Stage) {n : Nat}
    {read : NodeStep World (Option (List Cell))} (hread : Fetches n read) (hf : s.world.faulted = false) (he : s.err = {})
    (hx : ∀ c, exec sql params s.world.working c = ⟨.rows (o.toList.map cells), s.world.working, c⟩)
    (hn : ∀ r ∈ o, (cells r).length = n) (hcheck : ∀ r ∈ o, check (cells r) = some (g r)) :
    wp (lockRow dbOps limits sql params stage read check)
      (fun b s' => b = o.map g ∧ Amid s s') (fun _ s' => Lost s s') s := by
  refine wp_bind.mpr (wp_mono (wp_executing_rows faithful_noRange limits hq stage
    (.refl hf) (hx _)) ?_ (fun _ _ h => h))
  rintro ex s₁ ⟨⟨hres, hrows⟩, h₁⟩
  rw [if_neg (by rw [hres]; exact Bool.noConfusion)]
  refine wp_bind.mpr (wp_mono (hread s s₁ he h₁ ?_) ?_ (fun _ _ h => h))
  · rw [hrows]
    intro r hr
    cases o with
    | none => cases hr
    | some r₀ =>
      obtain rfl : cells r₀ = r := Option.some.inj hr
      exact hn r₀ rfl
  · rintro r s₂ ⟨rfl, hrest, h₂⟩
    rw [hrows] at hrest ⊢
    cases o with
    | none => exact wp_pure.mpr ⟨rfl, h₂⟩
    | some r₀ =>
      have hhead : (List.map cells (some r₀).toList).head? = some (cells r₀) := rfl
      rw [hhead]
      dsimp only
      rw [hcheck r₀ rfl]
      refine wp_bind.mpr (wp_mono (wp_uniqueEnd_db sql stage h₂ hrest) ?_ (fun _ _ h => h))
      exact fun _ s₃ h₃ => wp_pure.mpr ⟨rfl, h₃⟩

/-- The active nodes of the owner can be read: a node is one row, and its row passes `node_value`. -/
structure Readable (t : Tables) (owner : UInt64) : Prop where
  unique : Unique (fun r : NodeRow => some r.id) t.nodes
  accepted : ∀ r ∈ t.nodes, r.ownerId = owner → r.state = 2 → nodeValue owner r.id r.cells = some (valueOf r)

theorem Readable.of_schema (h : Schema t) (owner : UInt64) : Readable t owner :=
  ⟨h.keys.nodeId, fun _ hr ho hs => nodeValue_cells h hr ho (.inr rfl) hs⟩

section Nodes

variable {owner : UInt64} (h : Readable t owner) (id : UInt64)
include h

theorem wp_lockRow_node (limits : Limits) (lock : Lock) (stage : Stage)
    {read : NodeStep World (Option (List Cell))} (hread : Fetches 11 read)
    (hf : s.world.faulted = false) (he : s.err = {}) (ht : s.world.working = t) :
    wp (lockRow dbOps limits (.activeNode lock) [.u64 owner, .u64 id] stage read (nodeValue owner id))
      (fun b s' => b = nodeAt t owner id ∧ Amid s s') (fun _ s' => Lost s s') s := by
  refine wp_lockRow_db limits (by unfold Sql.Bracket; simp) stage hread hf he
    (fun c => by rw [ht]; exact exec_activeNode c h.unique lock owner id) (fun _ _ => rfl) ?_
  intro r hr
  obtain ⟨hmem, ho, rfl, hst⟩ := Tables.mem_of_activeNode hr
  exact h.accepted r hmem ho hst

theorem sees_lockMkdirParent : Sees t (lockMkdirParent dbOps owner id) (nodeAt t owner id) :=
  sees_closing _ fun _ hf he ht =>
    wp_lockRow_node h id writeLimits .update .node (fetches_readRow _ _ _) hf he ht

theorem sees_lockMoveNode (lock : Lock) (stage : Stage) :
    Sees t (lockMoveNode dbOps owner id lock stage) (nodeAt t owner id) :=
  sees_closing _ fun _ hf he ht =>
    wp_lockRow_node h id writeLimits lock stage (fetches_retag _ _ _ _) hf he ht

theorem sees_lockDeleteNode (source : Bool) :
    Sees t (lockDeleteNode dbOps owner id source) (nodeAt t owner id) :=
  sees_closing _ fun _ hf he ht =>
    wp_lockRow_node h id writeLimits _ _ (fetches_readRow _ _ _) hf he ht

theorem sees_moveChainLoop (forbidden : UInt64) (n : Nat) : ∀ (visited : List UInt64) (id : UInt64),
    Sees t (moveChainLoop dbOps owner forbidden n visited id)
      (walk t owner (some forbidden) n visited id) := by
  induction n with
  | zero => exact fun _ _ => .pure _
  | succ n ih =>
    intro visited id
    unfold moveChainLoop walk
    by_cases hf : id = forbidden
    · rw [if_pos hf, if_pos (congrArg some hf.symm)]
      exact .pure _
    rw [if_neg hf, if_neg fun e => hf (Option.some.inj e).symm]
    by_cases hv : id ∈ visited
    · rw [if_pos hv, if_pos hv]
      exact .pure _
    rw [if_neg hv, if_neg hv]
    refine (sees_lockMoveNode h id .share .ancestor).bind ?_
    cases nodeAt t owner id with
    | none => exact .pure _
    | some v =>
      dsimp only
      by_cases hk : v.kind ≠ .directory
      · rw [if_pos hk, if_pos hk]
        exact .pure _
      rw [if_neg hk, if_neg hk]
      cases v.parent with
      | none => exact .pure _
      | some parent => exact ih (id :: visited) parent

theorem sees_deleteChainLoop (n : Nat) : ∀ (visited : List UInt64) (id : UInt64),
    Sees t (deleteChainLoop dbOps owner n visited id) (walk t owner none n visited id) := by
  induction n with
  | zero => exact fun _ _ => .pure _
  | succ n ih =>
    intro visited id
    unfold deleteChainLoop walk
    rw [if_neg (show ¬ (none : Option UInt64) = some id from nofun)]
    by_cases hv : id ∈ visited
    · rw [if_pos hv, if_pos hv]
      exact .pure _
    rw [if_neg hv, if_neg hv]
    refine (sees_lockDeleteNode h id false).bind ?_
    cases nodeAt t owner id with
    | none => exact .pure _
    | some v =>
      dsimp only
      by_cases hk : v.kind ≠ .directory
      · rw [if_pos hk, if_pos hk]
        exact .pure _
      rw [if_neg hk, if_neg hk]
      cases v.parent with
      | none => exact .pure _
      | some parent => exact ih (id :: visited) parent

end Nodes

section Others

variable (h : Schema t)
include h

theorem wp_lockRow_name (owner parent : UInt64) (name : Bytes) (hs : Quiet s) (ht : s.world.working = t) :
    wp (lockRow dbOps writeLimits .liveName [.u64 owner, .u64 parent, .bytes name] .nameCheck
        (readRow dbOps .liveName .nameCheck 5) (occupant owner parent name))
      (fun b s' => b = (t.occupant owner parent name).map (fun r => (r.id, r.state)) ∧ Amid s s')
      (fun _ s' => Lost s s') s := by
  refine wp_lockRow_db writeLimits (by unfold Sql.Bracket; simp) .nameCheck (fetches_readRow _ _ _) hs.faultless hs.err
    (fun c => by rw [ht]; exact exec_liveName h c owner parent name) (fun _ _ => rfl) ?_
  intro r hr
  obtain ⟨hmem, hk⟩ := Tables.mem_of_occupant hr
  exact occupant_row h hmem hk

theorem reads_lockMoveName (owner parent : UInt64) (name : Bytes) :
    Reads t (lockMoveName dbOps owner parent name)
      ((t.occupant owner parent name).map fun r => (r.id, r.state)) :=
  reads_closing _ fun _ hs ht => wp_lockRow_name h owner parent name hs ht

theorem reads_lockMkdirName (owner parent : UInt64) (name : Bytes) :
    Reads t (lockMkdirName dbOps owner parent name) (t.occupant owner parent name).isSome := by
  refine reads_closing _ fun s hs ht => wp_bind.mpr ?_
  refine wp_mono (wp_lockRow_name h owner parent name hs ht) ?_ (fun _ _ hl => hl)
  rintro _ s' ⟨rfl, ha⟩
  exact wp_pure.mpr ⟨Option.isSome_map, ha⟩

theorem reads_lockDeleteChildren (owner parent : UInt64) :
    Reads t (lockDeleteChildren dbOps owner parent) (t.liveChild owner parent).isSome := by
  refine reads_closing _ fun s hs ht => wp_bind.mpr ?_
  refine wp_mono (wp_lockRow_db writeLimits (by unfold Sql.Bracket; simp) .children
    (o := t.liveChild owner parent) (g := fun _ => ()) (fetches_readRow _ _ _) hs.faultless hs.err
    (fun c => by rw [ht]; exact exec_liveChild c owner parent) (fun _ _ => rfl) ?_) ?_
    (fun _ _ hl => hl)
  · intro r hr
    obtain ⟨hmem, ho, hp, hl⟩ := Tables.mem_of_liveChild hr
    exact childRow_row h hmem ho hp hl
  · rintro _ s' ⟨rfl, ha⟩
    exact wp_pure.mpr ⟨Option.isSome_map, ha⟩

theorem reads_lockDeleteObject (hash : Bytes) (size : UInt64) :
    Reads t (lockDeleteObject dbOps hash size) (objectVerdict hash size t) := by
  refine reads_closing _ fun s hs ht => wp_bind.mpr ?_
  refine wp_mono (wp_lockRow_db writeLimits (by unfold Sql.Bracket; simp) .object
    (o := t.object hash) (g := fun r => ⟨r.size, r.refCount, r.state, r.updatedAtMs⟩)
    (fetches_readRow _ _ _) hs.faultless hs.err (fun c => by rw [ht]; exact exec_objectRow h c hash)
    (fun _ _ => rfl) ?_) ?_ (fun _ _ hl => hl)
  · intro r hr
    obtain ⟨hmem, rfl⟩ := Tables.mem_of_object hr
    exact objectRead_row h hmem
  · rintro _ s' ⟨rfl, ha⟩
    unfold objectVerdict
    cases t.object hash with
    | none => exact wp_pure.mpr ⟨rfl, ha⟩
    | some o =>
      dsimp only [Option.map_some]
      split
      · exact wp_pure.mpr ⟨rfl, ha⟩
      · exact wp_pure.mpr ⟨rfl, ha⟩

end Others

/-! ## 2. Receipts -/

variable {s₀ s : Call World Issue}

theorem wp_closeStatement_gone (hk : Kept s₀ s) (hl : (ideal Issue).lost s) :
    wp (closeStatement dbOps) (fun _ s' => Kept s₀ s' ∧ (ideal Issue).lost s')
      (fun _ s' => Kept s₀ s' ∧ (ideal Issue).lost s') s := by
  have hgone : ∀ s', Lost s s' → Kept s₀ s' ∧ (ideal Issue).lost s' := fun s' h =>
    ⟨hk.trans h.kept, h.faulted, by rw [h.issue]; exact hl.2⟩
  exact wp_mono (wp_closeStatement_lost ⟨hl.1, rfl, .refl s⟩) (fun _ s' h => hgone s' h)
    (fun _ s' h => hgone s' h)

theorem wp_receiptStep_lost (db : DbError) (hs : Quiet s₀) (h : wp p Q (fun _ s' => Lost s₀ s') s) :
    wp (receiptStep db p) Q (fun _ s' => Kept s₀ s' ∧ (ideal Issue).lost s') s := by
  unfold wp at h ⊢
  unfold receiptStep
  split at h
  · rename_i e
    rw [e]
    exact h
  · rename_i f s' e
    rw [e]
    dsimp only
    by_cases hf : f.val = .range
    · rw [if_pos hf]
      exact ⟨{ h.kept with }, h.faulted, .inr (.inl rfl)⟩
    · rw [if_neg hf]
      exact ⟨(h.diagnose _ _ _).kept, (h.diagnose _ _ _).lost hs⟩

theorem wp_fetchReceipt (hs : Quiet s₀) (h : Amid s₀ s) (sql : Sql)
    {k : FetchReply → NodeStep World α} (hdone : s.world.rows = [] → ∀ s', Amid s₀ s' →
      wp (k ⟨.ok, .done, {}⟩) Q (fun _ s' => Kept s₀ s' ∧ (ideal Issue).lost s') s')
    (hrow : ∀ r rest, s.world.rows = r :: rest → ∀ s', Amid s₀ s' → s'.world.rows = rest →
      s'.world.row = r →
      wp (k ⟨.ok, .row, {}⟩) Q (fun _ s' => Kept s₀ s' ∧ (ideal Issue).lost s') s') :
    wp (fetching dbOps sql >>= fun o => receiptStep o.error (succeed o.result) >>= fun _ => k o) Q
      (fun _ s' => Kept s₀ s' ∧ (ideal Issue).lost s') s := by
  refine wp_bind.mpr ?_
  rcases fetching_db sql h with ⟨f, db, s', e, hl⟩ | ⟨hr, s', e, ha, -⟩ |
    ⟨r, rest, hr, s', e, ha, hrest, hcells⟩
  · refine wp_of_ok e (wp_bind.mpr (wp_receiptStep_lost db hs ?_))
    exact wp_of_error (succeed_fail f s') hl
  · exact wp_of_ok e (wp_bind.mpr (wp_of_ok (a := ()) (t := s') rfl (hdone hr s' ha)))
  · refine wp_of_ok e (wp_bind.mpr (wp_of_ok (a := ()) (t := s') rfl ?_))
    exact hrow r rest hr s' ha hrest hcells

theorem reads_always (hp : ∀ s : Call World Issue, Quiet s → s.world.working = t →
      wp p (fun b s' => b = a ∧ Amid s s') (fun _ s' => Kept s s' ∧ (ideal Issue).lost s') s) :
    Reads t (Prog.always p (closeStatement dbOps)) a := by
  intro s hs ht
  refine wp_always.mpr (wp_mono (hp s hs ht) ?_ ?_)
  · rintro b s' ⟨hb, ha⟩
    refine wp_mono (wp_closeStatement_amid ha) (fun _ s'' h' => ⟨hb, h'⟩) ?_
    exact fun _ s'' hl => ⟨hl.kept, hl.lost hs⟩
  · exact fun _ s' hl => wp_closeStatement_gone hl.1 hl.2

/-- **The receipt of a key**, when its statement answers with the row and its check accepts it. -/
theorem reads_lockReceipt (limits : Limits) (hq : ¬ sql.Bracket) {n : Nat} (hx : ∀ c, exec sql params t c = ⟨.rows (o.toList.map cells), t, c⟩)
    (hn : ∀ r ∈ o, (cells r).length = n) (hcheck : ∀ r ∈ o, check (cells r) = some (g r)) :
    Reads t (lockReceipt dbOps limits sql params n check) (o.map g) := by
  refine reads_always fun s hs ht => ?_
  refine wp_bind.mpr (wp_mono (wp_executing_rows faithful_noRange limits hq .receiptRead
    (.refl hs.faultless) (by rw [ht]; exact hx _)) ?_ (fun _ _ hl => ⟨hl.kept, hl.lost hs⟩))
  rintro ex s₁ ⟨⟨hres, hrows⟩, h₁⟩
  rw [if_neg (by rw [hres]; exact Bool.noConfusion)]
  refine wp_fetchReceipt hs h₁ sql (fun hnil s₂ h₂ => ?_) (fun r rest hcons s₂ h₂ hrest hrow => ?_)
  · rw [hrows] at hnil
    cases o with
    | none => exact wp_pure.mpr ⟨rfl, h₂⟩
    | some r₀ => cases hnil
  · rw [hrows] at hcons
    cases o with
    | none => cases hcons
    | some r₀ =>
      obtain ⟨rfl, rfl⟩ : cells r₀ = r ∧ [] = rest := List.cons.inj hcons
      refine wp_bind.mpr (wp_receiptStep_lost _ hs (wp_mono
        (wp_columnsFrom_db sql n 0 s₂ h₂ (by rw [hrow, hn r₀ rfl]; omega)) ?_ (fun _ _ hl => hl)))
      rintro _ s₃ ⟨rfl, hrest₃, h₃⟩
      rw [hrow, List.drop_zero, hcheck r₀ rfl]
      refine wp_fetchReceipt hs h₃ sql (fun _ s₄ h₄ => wp_of_ok rfl ⟨rfl, h₄⟩) (fun r rest hcons' => ?_)
      rw [hrest₃, hrest] at hcons'
      cases hcons'

/-! ## 3. The verdicts -/

section Verdicts

variable (h : Schema t) {r : NodeRow}
include h

/-- The node that has the name is the source itself exactly when nothing changes. -/
theorem occupant_source {user nodeId old : UInt64} (newParentId : UInt64) (name : Bytes)
    (hr : t.activeNode user nodeId = some r) (hp : r.parentId = some old) :
    match t.occupant user newParentId name with
    | none => r.id ≠ 0 ∧ (old ≠ newParentId ∨ r.name ≠ name)
    | some q => q.id ≠ 0 ∧ (q.id = r.id → q.state = 2 ∧ ¬ (old ≠ newParentId ∨ r.name ≠ name)) := by
  obtain ⟨hmem, ho, -, hst⟩ := Tables.mem_of_activeNode hr
  have hkey : ∀ p n, r.nameKey = some (user, p, n) ↔ old = p ∧ r.name = n := by
    intro p n
    rw [NodeRow.nameKey_eq_some, hp]
    constructor
    · rintro ⟨-, e, e', -⟩
      exact ⟨Option.some.inj e, e'⟩
    · rintro ⟨rfl, e'⟩
      exact ⟨ho, rfl, e', .inr hst⟩
  cases hq : t.occupant user newParentId name with
  | none =>
    refine ⟨(h.checks.nodes r hmem).id, ?_⟩
    by_contra hc
    obtain ⟨e, e'⟩ := not_or.mp hc
    have hfree := List.find?_eq_none.mp hq r hmem
    exact hfree (decide_eq_true ((hkey _ _).mpr ⟨not_not.mp e, not_not.mp e'⟩))
  | some q =>
    obtain ⟨hqmem, hqk⟩ := Tables.mem_of_occupant hq
    refine ⟨(h.checks.nodes q hqmem).id, fun e => ?_⟩
    obtain rfl : q = r := h.keys.nodeId.eq hqmem hmem (congrArg some e) rfl
    obtain ⟨e₁, e₂⟩ := (hkey _ _).mp hqk
    exact ⟨hst, not_or.mpr ⟨not_not.mpr e₁, not_not.mpr e₂⟩⟩

/-- The name check of a move, after which the DATABASE failure cannot be reached. -/
theorem reads_moveName {user nodeId newParentId old : UInt64} {name : Bytes}
    (hr : t.activeNode user nodeId = some r) (hp : r.parentId = some old) :
    Reads t ((do
      let found ← lockMoveName dbOps user newParentId name
      let occupied := (found.map Prod.fst).getD 0
      let state := (found.map Prod.snd).getD 0
      let changed := decide (old ≠ newParentId ∨ (valueOf r).name ≠ name)
      if occupied ≠ 0 ∧ occupied ≠ (valueOf r).id then
        pure (.error ⟨.nameConflict, .nameCheck, .database⟩)
      else if (changed = false ∧ (occupied ≠ (valueOf r).id ∨ state ≠ 2)) ∨
          (changed = true ∧ occupied = (valueOf r).id) then
        diagnosing .nameCheck none (.fail .database)
      else pure (.ok (valueOf r, changed)) : NodeStep World (Except Verdict (Value × Bool))))
      (if (t.occupant user newParentId name).any fun q => decide (q.id ≠ (valueOf r).id) then
        .error ⟨.nameConflict, .nameCheck, .database⟩
      else .ok (valueOf r, decide (old ≠ newParentId ∨ (valueOf r).name ≠ name))) := by
  refine (reads_lockMoveName h user newParentId name).bind ?_
  have hocc := occupant_source h newParentId name hr hp
  revert hocc
  show _ → Reads t (ite _ _ (ite (_ ∨ _) _ _)) _
  cases t.occupant user newParentId name with
  | none =>
    rintro ⟨hid, hchanged⟩
    have hc : decide (old ≠ newParentId ∨ (valueOf r).name ≠ name) = true := decide_eq_true hchanged
    have hne : ¬ ((0 : UInt64) = (valueOf r).id) := fun e => hid e.symm
    rw [hc, if_neg fun e => e.1 rfl, if_neg, if_neg]
    · exact .pure _
    · exact Bool.noConfusion
    rintro (⟨e, -⟩ | ⟨-, e⟩)
    · cases e
    · exact hne e
  | some q =>
    rintro ⟨hid, hsame⟩
    by_cases hq : q.id = r.id
    · obtain ⟨hst, hchanged⟩ := hsame hq
      have hc : decide (old ≠ newParentId ∨ (valueOf r).name ≠ name) = false :=
        decide_eq_false hchanged
      rw [hc, if_neg fun e => e.2 hq, if_neg, if_neg]
      · exact .pure _
      · exact fun e => of_decide_eq_true e hq
      rintro (⟨-, e | e⟩ | ⟨e, -⟩)
      · exact e hq
      · exact e hst
      · cases e
    · rw [if_pos ⟨hid, hq⟩, if_pos]
      · exact .pure _
      · exact decide_eq_true hq

theorem reads_moveVerdict (user nodeId newParentId : UInt64) (name : Bytes) :
    Reads t (moveVerdict dbOps user nodeId newParentId name)
      (moveVerdictOf user nodeId newParentId name t) := by
  unfold moveVerdict moveVerdictOf
  refine (sees_lockMoveNode (.of_schema h user) nodeId .update .source).reads.bind ?_
  cases hsource : nodeAt t user nodeId with
  | none => exact .pure _
  | some source =>
    refine (sees_lockMoveNode (.of_schema h user) newParentId .update .targetParent).reads.bind ?_
    dsimp only
    by_cases hdir : isDirectory (nodeAt t user newParentId) = false
    · rw [if_pos hdir, if_pos hdir]
      exact .pure _
    rw [if_neg hdir, if_neg hdir]
    cases hparent : source.parent with
    | none => exact .pure _
    | some old =>
      refine (sees_moveChainLoop (.of_schema h user) 0 ancestorCapacity [] old).reads.bind ?_
      dsimp only
      cases walk t user (some 0) ancestorCapacity [] old with
      | some v => exact Reads.pure (some v) |>.bind (Reads.pure _)
      | none =>
        refine (sees_moveChainLoop (.of_schema h user) _ ancestorCapacity [] newParentId).reads.bind ?_
        cases walk t user (some (if source.kind = .directory then source.id else 0)) ancestorCapacity
            [] newParentId with
        | some v => exact .pure _
        | none =>
          obtain ⟨r, hr, rfl⟩ := Option.map_eq_some_iff.mp hsource
          exact reads_moveName h hr hparent

theorem reads_deleteVerdict (user nodeId : UInt64) :
    Reads t (deleteVerdict dbOps user nodeId) (deleteVerdictOf user nodeId t) := by
  unfold deleteVerdict deleteVerdictOf
  refine (sees_lockDeleteNode (.of_schema h user) nodeId true).reads.bind ?_
  cases nodeAt t user nodeId with
  | none => exact .pure _
  | some source =>
    dsimp only
    cases source.parent with
    | none => exact .pure _
    | some old =>
      refine (sees_deleteChainLoop (.of_schema h user) ancestorCapacity [] old).reads.bind ?_
      dsimp only
      cases walk t user none ancestorCapacity [] old with
      | some v => exact .pure _
      | none =>
        by_cases hk : source.kind = .directory
        · dsimp only
          rw [if_pos hk, if_pos hk]
          refine (reads_lockDeleteChildren h user source.id).bind ?_
          split
          · exact .pure _
          · exact .pure _
        · dsimp only
          rw [if_neg hk, if_neg hk]
          exact (reads_lockDeleteObject h _ _).map _

end Verdicts

end Reads

/-! ## 4. Rejections -/

theorem sim_reject (v : Verdict) : Sim (ideal Issue) (reject v : NodeStep World α) (idealReject v) :=
  fun _ hs => wp_of_error rfl ⟨⟨rfl, Counters.Le.refl _, rfl, rfl, rfl⟩,
    .inr ⟨⟨hs.faultless, hs.statement⟩, rfl⟩⟩

theorem sim_checkWindow (win : Window) (now : UInt64) :
    Sim (ideal Issue) (checkWindow win now) (idealCheck win now) :=
  Sim.ite (fun _ => .pure _) (fun _ => sim_reject _)

variable {p : NodeStep World β} {f : Tables → β}

theorem sim_closing_reject {k : β → NodeStep World α} {K : β → Ideal Issue α} (stage : Stage)
    (hp : ∀ s, Quiet s → wp p (fun b s' => b = f s.world.working ∧ Amid s s') (fun _ s' => Lost s s') s)
    (hk : ∀ b, (∃ a, k b = pure a ∧ K b = pure a) ∨
      ∃ v : Verdict, v.issue = .authRejected ∧ k b = reject v ∧ K b = idealReject v) :
    Sim (ideal Issue) (closing dbOps stage (p >>= k)) (Ideal.look f >>= K) := by
  intro s hs
  refine wp_always.mpr (wp_onError.mpr (wp_bind.mpr (wp_mono (hp s hs) ?_ ?_)))
  · rintro b s₁ ⟨rfl, h₁⟩
    rcases hk (f s.world.working) with ⟨a, ek, eK⟩ | ⟨v, hv, ek, eK⟩
    · rw [ek]
      refine wp_pure.mpr (wp_mono (wp_closeStatement_amid h₁) ?_
        (fun _ _ hl => ⟨hl.kept, .inl (hl.lost hs)⟩))
      rintro _ s₂ ⟨h₂, hst⟩
      refine ⟨h₂.kept, h₂.quiet hst hs, ?_⟩
      show K (f s.world.working) (view s) = _
      rw [eK, ← h₂.view]
      rfl
    · rw [ek]
      let s₂ : Call World Issue :=
        ({ s₁ with issue := v.issue }.diagnose v.stage v.result.val none false).diagnose stage
          v.result.val none false
      have hk₂ : Kept s s₂ :=
        h₁.kept.trans ⟨rfl, Counters.Le.refl _, rfl, rfl, rfl⟩
      have herr : s₂.err = s₁.err.note v.stage v.result.val none false :=
        Diagnosis.note_note _ _ _ v.result.property _ _ _
      have hend : ∀ s₃, Lost s₂ s₃ → Kept s s₃ ∧ ((ideal Issue).lost s₃ ∨
          (s₃.world.faulted = false ∧ s₃.statement = none) ∧
            (.look f >>= K) (view s) = (.error v.result, view s₃)) := fun s₃ hl =>
        ⟨hk₂.trans hl.kept, .inl ⟨hl.faulted, .inr (.inr (hl.issue.trans hv))⟩⟩
      refine wp_of_error rfl (wp_mono (wp_closeStatement_amid (Amid.refl (s := s₂) h₁.faultless)) ?_
        (fun _ s₃ hl => hend s₃ hl))
      rintro _ s₃ ⟨h₃, hst⟩
      refine ⟨hk₂.trans h₃.kept, .inr ⟨⟨h₃.faultless, hst⟩, ?_⟩⟩
      show K (f s.world.working) (view s) = (.error v.result, view s₃)
      rw [eK, h₃.view]
      have hview : view s = view s₁ := h₁.view.symm
      rw [hview]
      show (Except.error v.result, (_ : View Issue)) = (.error v.result, view s₂)
      unfold view
      rw [herr]
      rfl
  · intro e s₁ hl
    have hd := hl.diagnose stage e.val none
    exact wp_mono (wp_closeStatement_lost hd) (fun _ _ h => ⟨h.kept, .inl (h.lost hs)⟩)
      (fun _ _ h => ⟨h.kept, .inl (h.lost hs)⟩)

theorem sim_lockUserRow (limits : Limits) (lock : Lock) (id : UInt64) :
    Sim (ideal Issue) (lockUserRow dbOps limits lock id)
      (Ideal.look (fun t => (t.user id).map UserRow.status) >>= fun status =>
        if status = some 1 then pure () else idealReject ⟨.authRejected, .user, .notFound⟩) := by
  refine sim_closing_reject .user (fun s hs => ?_) (fun status => ?_)
  · refine wp_lockRow_db limits (by unfold Sql.Bracket; simp) .user (fetches_readRow _ _ _) hs.faultless hs.err
      (fun c => exec_userStatus hs.schema c lock id) (fun _ _ => rfl) ?_
    intro r hr
    obtain ⟨hmem, rfl⟩ := Tables.mem_of_user hr
    exact userStatus_row hs.schema hmem
  · by_cases h : status = some 1
    · exact .inl ⟨(), if_pos h, if_pos h⟩
    · exact .inr ⟨_, rfl, if_neg h, if_neg h⟩

/-- What `lock_session` makes of a row. -/
def sessionWindow (actor : Actor) : Option SessionRead → Except Verdict Window
  | none => .error ⟨.authRejected, .session, .notFound⟩
  | some r =>
    if r.userId = actor.userId ∧ r.status = 1 then .ok ⟨r.issued, r.expires⟩
    else .error ⟨.authRejected, .session, .notFound⟩

/-- The columns of a session row that `lock_session` keeps. -/
def SessionRead.of (r : SessionRow) : SessionRead :=
  ⟨r.userId, r.status, r.issuedAtMs, r.expiresAtMs⟩

theorem sim_lockSession (actor : Actor) : Sim (ideal Issue) (lockSession dbOps actor)
      (Ideal.look (fun t => (t.session actor.sessionId).map SessionRead.of) >>= fun row =>
        match sessionWindow actor row with
        | .error v => idealReject v
        | .ok win => pure win) := by
  refine sim_closing_reject .session (fun s hs => ?_) (fun row => ?_)
  · refine wp_lockRow_db readLimits (by unfold Sql.Bracket; simp) .session (fetches_readRow _ _ _) hs.faultless hs.err
      (fun c => exec_sessionState hs.schema c actor.sessionId) (fun _ _ => rfl) ?_
    intro r hr
    obtain ⟨hmem, hid⟩ := Tables.mem_of_session hr
    rw [← hid]
    exact sessionRead_row hs.schema hmem
  · cases row with
    | none => exact .inr ⟨_, rfl, rfl, rfl⟩
    | some r =>
      by_cases h : r.userId = actor.userId ∧ r.status = 1
      · refine .inl ⟨⟨r.issued, r.expires⟩, if_pos h, ?_⟩
        rw [sessionWindow]
        rw [if_pos h]
      · refine .inr ⟨⟨.authRejected, .session, .notFound⟩, rfl, if_neg h, ?_⟩
        rw [sessionWindow]
        rw [if_neg h]

/-! ## 5. Writes -/

theorem sim_insertRow {sql : Sql} (hq : ¬ sql.Bracket) (params : List Param) (stage : Stage) :
    Sim (ideal Issue) (insertRow dbOps sql params stage) (inserted sql params stage) :=
  sim_command faithful_noRange rfl writeLimits hq params stage true Execution.insertId

theorem sim_modifyOne (limits : Limits) {sql : Sql} (hq : ¬ sql.Bracket) (params : List Param)
    (stage : Stage) :
    Sim (ideal Issue) (modifyOne dbOps limits sql params stage) (modified sql params stage) := by
  intro s hs
  have hcommit : sql ≠ .commit := fun e => hq (.inr (.inl e))
  let e := exec sql params s.world.working s.world.counters
  let r := prepareExecute dbOps Result.noRange limits sql params stage false s
  have hstep : executing dbOps Result.noRange limits sql params stage s =
      (succeed r.1.1 >>= fun _ => pure r.1.2 : NodeStep World Execution) r.2 := rfl
  refine wp_always.mpr (wp_onError.mpr (wp_bind.mpr ((wp_congr hstep).mpr (wp_bind.mpr ?_))))
  rcases prepareExecute_db faithful_noRange limits sql params stage false s with ⟨hne, hstruck, -⟩ |
    ⟨k, hrun⟩
  · refine wp_of_error (e := ⟨_, hne⟩) (succeed_fail ⟨_, hne⟩ _) ?_
    have hl := (hstruck.lost hcommit (.refl s) rfl).diagnose stage r.1.1 none
    exact wp_mono (wp_closeStatement_lost hl) (fun _ _ h => ⟨h.kept, .inl (h.lost hs)⟩)
      (fun _ _ h => ⟨h.kept, .inl (h.lost hs)⟩)
  rw [World.evaluate_inner _ hq] at hrun
  let open' (rows : List (List Cell)) (err : Diagnosis) : Call World Issue := { s with
    world := { s.world with
      working := e.tables, counters := e.counters, rows := rows, calls := k }
    statement := some sql, err := err }
  have hkept : ∀ rows err, Kept s (open' rows err) := fun _ _ =>
    ⟨rfl, (exec_sane sql params s.world.working s.world.counters).counters, rfl, rfl, rfl⟩
  have hlost : ∀ rows err s', Lost (open' rows err) s' → Kept s s' ∧ (ideal Issue).lost s' :=
    fun rows err s' hl =>
      ⟨(hkept rows err).trans hl.kept, hl.faulted, .inl (hl.issue.trans hs.issue)⟩
  -- closing after a reply that was not accepted: `db` is what the driver said
  have hbad : ∀ db, e.reply.touchedOne = .error db → wp (closeStatement dbOps)
        (fun _ s' => Kept s s' ∧ ((ideal Issue).lost s' ∨ (ideal Issue).calm s' ∧
          modified sql params stage (view s) = (.error .database, view s')))
        (fun _ s' => Kept s s' ∧ ((ideal Issue).lost s' ∨ (ideal Issue).calm s' ∧
          modified sql params stage (view s) = (.error .database, view s')))
        (open' e.reply.result (s.err.note stage .database db false)) := by
    intro db hdb
    have hspec : modified sql params stage (view s) = _ := Ideal.evaluated_error hdb
    rw [hspec]
    refine wp_mono (wp_closeStatement_amid (Amid.refl hs.faultless)) ?_ ?_
    · rintro _ s' ⟨h', hst⟩
      refine ⟨(hkept _ _).trans h'.kept, .inr ⟨⟨h'.faultless, hst⟩, ?_⟩⟩
      rw [h'.view]
      rfl
    · intro _ s' hl
      exact ⟨(hlost _ _ s' hl).1, .inl (hlost _ _ s' hl).2⟩
  rw [show r = _ from hrun]
  cases hreply : e.reply with
  | rows l =>
    have hclose := hbad none (by rw [hreply]; rfl)
    have he : (exec sql params s.world.working s.world.counters).reply = .rows l := hreply
    simp only [open', hreply] at hclose
    simp only [he, Reply.executed]
    exact wp_of_ok (a := ()) rfl (wp_pure.mpr (wp_fail.mpr hclose))
  | refused code =>
    have hclose := hbad (some ⟨.execute, code⟩) (by rw [hreply]; rfl)
    have he : (exec sql params s.world.working s.world.counters).reply = .refused code := hreply
    simp only [open', hreply] at hclose
    simp only [he, Reply.executed]
    refine wp_of_error (e := .database) rfl ?_
    unfold Call.diagnose
    rw [Diagnosis.note_note _ _ _ (by decide)]
    exact hclose
  | done n id =>
    have he : (exec sql params s.world.working s.world.counters).reply = .done n id := hreply
    simp only [he, Reply.executed]
    refine wp_of_ok (a := ()) rfl (wp_pure.mpr ?_)
    by_cases hn : n = 1
    · have hone : (exec sql params (view s).tables (view s).counters).reply.touchedOne = .ok () := by
        show (exec sql params s.world.working s.world.counters).reply.touchedOne = _
        rw [he]
        exact if_pos hn
      have hspec : modified sql params stage (view s) = _ := Ideal.evaluated_ok hone
      rw [if_neg (by rintro (h | h); exacts [Bool.noConfusion h, h hn])]
      refine wp_pure.mpr (wp_mono (wp_closeStatement_amid (.refl hs.faultless)) ?_ ?_)
      · rintro _ s' ⟨h', hst⟩
        have hw : s'.world.working = e.tables := congrArg View.tables h'.view
        have hc : s'.world.counters = e.counters := congrArg View.counters h'.view
        have herr : s'.err = s.err := congrArg View.err h'.view
        refine ⟨(hkept [] s.err).trans h'.kept,
          hs.evaluated sql params hw hc h'.faultless hst h'.issue herr, ?_⟩
        show modified sql params stage (view s) = (.ok (), view s')
        rw [hspec, h'.view]
        rfl
      · intro _ s' hl
        have hgone := hlost [] s.err s' hl
        exact ⟨hgone.1, .inl hgone.2⟩
    · have hclose := hbad none (by rw [hreply]; exact if_neg hn)
      simp only [open', hreply] at hclose
      rw [if_pos (.inr hn)]
      exact wp_fail.mpr hclose

theorem sim_auditRow (action : UInt64) (request : Key) (actor : Actor) (target now : UInt64) :
    Sim (ideal Issue) (auditRow dbOps action request actor target now)
      (idealAudit action request actor target now) :=
  sim_insertRow (by unfold Sql.Bracket; simp) _ _

/-! ## 6. The six works -/

theorem look_bind {f : Tables → α} {k : α → Ideal Issue β} (v : View Issue) :
    (Ideal.look f >>= k) v = k (f v.tables) v := rfl

variable {decision : Tables → Decision α δ} {effect : δ → UInt64 → Ideal Issue α}

theorem sim_decided {k : β → NodeStep World (Settled α)} {K : β → Decision α δ}
    (hp : ∀ t, Schema t → Reads t p (f t)) (hK : ∀ t, Schema t → K (f t) = decision t)
    (hk : ∀ b, Sim (ideal Issue) (k b) (idealSettle effect win (K b))) :
    Sim (ideal Issue) (p >>= k) (idealWork decision effect win) := by
  refine (Sim.bind (sim_look hp) hk).congr fun s hs => ?_
  have ht : K (f (view s).tables) = decision (view s).tables := hK _ hs.schema
  show idealSettle effect win (decision (view s).tables) (view s) = _
  rw [← ht]
  rfl

variable {k : UInt64 → NodeStep World (Settled α)}

theorem sim_settled {d : Decision α δ} (hk : ∀ now, Sim (ideal Issue) (k now) (match d with
      | .refuse v => idealReject v
      | .recover a => pure (.recovered a)
      | .apply d => do
        let a ← effect d now
        pure (.ready a))) :
    Sim (ideal Issue) (do
      let now ← captureUtc dbOps
      checkWindow win now
      k now) (idealSettle effect win d) :=
  Sim.bind sim_captureUtc fun now => .bind (sim_checkWindow win now) fun _ => hk now

/-- The parent of a new directory, and whether its name is taken. -/
def mkdirReads (actor : Actor) (parent : UInt64) (name : Bytes) :
    NodeStep World (Option Value × Bool) := do
  let p ← lockMkdirParent dbOps actor.userId parent
  let occupied ← (if isDirectory p then lockMkdirName dbOps actor.userId parent name
    else pure false)
  pure (p, occupied)

theorem reads_mkdirReads {t : Tables} (h : Schema t) (actor : Actor) (parent : UInt64)
    (name : Bytes) : Reads t (mkdirReads actor parent name) (nodeAt t actor.userId parent,
      if isDirectory (nodeAt t actor.userId parent) then (t.occupant actor.userId parent name).isSome
      else false) := by
  refine (sees_lockMkdirParent (.of_schema h _) parent).reads.bind (.bind ?_ (.pure _))
  split
  · exact reads_lockMkdirName h actor.userId parent name
  · exact .pure _

/-- What the two reads of `mkdir` decide. -/
def mkdirJudged (b : Option Value × Bool) : Except Verdict Unit :=
  if isDirectory b.1 = false then .error ⟨.notFound, .node, .notFound⟩
  else if b.2 then .error ⟨.nameConflict, .nameCheck, .database⟩
  else .ok ()

theorem mkdirJudged_reads (t : Tables) (actor : Actor) (parent : UInt64) (name : Bytes) :
    mkdirJudged (nodeAt t actor.userId parent,
      if isDirectory (nodeAt t actor.userId parent) then (t.occupant actor.userId parent name).isSome
      else false) = mkdirVerdict actor.userId parent name t := by
  unfold mkdirJudged mkdirVerdict
  by_cases h : isDirectory (nodeAt t actor.userId parent) = false
  · rw [if_pos h, if_pos h]
  · have hd := Bool.eq_true_of_not_eq_false h
    rw [if_neg h, if_neg h, if_pos hd]

theorem sim_mkdirFresh (actor : Actor) (parent : UInt64) (name : Bytes) (win : Window) {effect : Unit → UInt64 → Ideal Issue α}
    (hk : ∀ now, Sim (ideal Issue) (k now) (effect () now >>= fun a => pure (.ready a))) :
    Sim (ideal Issue) (do
      let p ← lockMkdirParent dbOps actor.userId parent
      let occupied ← (if isDirectory p then lockMkdirName dbOps actor.userId parent name
        else pure false)
      let now ← captureUtc dbOps
      checkWindow win now
      if isDirectory p = false then reject ⟨.notFound, .node, .notFound⟩
      else if occupied then reject ⟨.nameConflict, .nameCheck, .database⟩
      else k now)
      (idealWork (fun t => .ofExcept (mkdirVerdict actor.userId parent name t)) effect win) := by
  have hsim : Sim (ideal Issue) (mkdirReads actor parent name >>= fun b => do
      let now ← captureUtc dbOps
      checkWindow win now
      if isDirectory b.1 = false then reject ⟨.notFound, .node, .notFound⟩
      else if b.2 then reject ⟨.nameConflict, .nameCheck, .database⟩
      else k now)
      (idealWork (fun t => .ofExcept (mkdirVerdict actor.userId parent name t)) effect win) := by
    refine sim_decided (K := fun b => .ofExcept (mkdirJudged b))
      (fun t ht => reads_mkdirReads ht actor parent name)
      (fun t _ => congrArg _ (mkdirJudged_reads t actor parent name))
      fun b => sim_settled fun now => ?_
    unfold mkdirJudged
    by_cases hdir : isDirectory b.1 = false
    · rw [if_pos hdir, if_pos hdir]
      exact sim_reject _
    rw [if_neg hdir, if_neg hdir]
    by_cases hocc : b.2 = true
    · rw [if_pos hocc, if_pos hocc]
      exact sim_reject _
    rw [if_neg hocc, if_neg hocc]
    exact hk now
  unfold mkdirReads at hsim
  simpa only [bind_assoc, pure_bind] using hsim

theorem sim_mkdirWork (actor : Actor) (i : MkdirInput) (win : Window) :
    Sim (ideal Issue) (mkdirWork dbOps actor i win)
      (idealWork (mkdirDecision actor i) (mkdirEffect actor i) win) := by
  refine sim_mkdirFresh actor i.parentId i.name win fun now => ?_
  unfold mkdirEffect idealMkdir
  simp only [bind_assoc, pure_bind]
  refine (sim_insertRow (by unfold Sql.Bracket; simp) _ _).bind fun id => ?_
  exact (sim_auditRow 5 i.requestId actor id now).bind fun audit => .pure _

theorem sim_receipt {ρ : Type} {p : NodeStep World (Option ρ)} {f : Tables → Option ρ}
    {k : Option ρ → NodeStep World (Settled α)} {N : Tables → Decision α δ} {D : ρ → Decision α δ} (hp : ∀ t, Schema t → Reads t p (f t))
    (hD : ∀ t, Schema t → decision t = match f t with | some r => D r | none => N t)
    (hfound : ∀ r, Sim (ideal Issue) (k (some r)) (idealSettle effect win (D r)))
    (hrest : Sim (ideal Issue) (k none) (idealWork N effect win)) :
    Sim (ideal Issue) (p >>= k) (idealWork decision effect win) := by
  have hsim : Sim (ideal Issue) (p >>= k) (Ideal.look f >>= fun o => match o with
      | some r => idealSettle effect win (D r)
      | none => idealWork N effect win) := by
    refine Sim.bind (sim_look hp) fun o => ?_
    cases o with
    | some r => exact hfound r
    | none => exact hrest
  refine hsim.congr fun s hs => ?_
  have ht : decision (view s).tables = match f (view s).tables with
    | some r => D r
    | none => N (view s).tables := hD _ hs.schema
  show idealSettle effect win (decision (view s).tables) (view s) = (match f (view s).tables with
      | some r => idealSettle effect win (D r)
      | none => idealWork N effect win) (view s)
  rw [ht]
  cases f (view s).tables with
  | some r => rfl
  | none => rfl

theorem sim_receiptFound {c : Prop} [Decidable c] {a : α} : Sim (ideal Issue) (do
      let now ← captureUtc dbOps
      checkWindow win now
      if c then reject ⟨.idempotencyConflict, .receiptRead, .database⟩ else pure (.recovered a))
      (idealSettle effect win (if c then .refuse keyConflict else .recover a)) := by
  refine sim_settled fun now => ?_
  by_cases hc : c
  · rw [if_pos hc, if_pos hc]
    exact sim_reject _
  · rw [if_neg hc, if_neg hc]
    exact .pure _

section

variable (actor : Actor) {k : UInt64 → NodeStep World β} {K : UInt64 → Ideal Issue β}

theorem sim_mkdirOnceWork (i : MkdirOnceInput) (win : Window) :
    Sim (ideal Issue) (mkdirOnceWork dbOps actor i win)
      (idealWork (mkdirOnceDecision actor i) (mkdirOnceEffect actor i) win) := by
  refine sim_receipt (N := fun t => .ofExcept (mkdirVerdict actor.userId i.parentId i.name t))
    (D := fun r : MkdirReceipt => if r.parentId ≠ i.parentId ∨ r.name ≠ i.name then
        .refuse keyConflict
      else .recover (OnceValue.mk .recovered r.nodeId r.auditId i.idempotencyKey.val))
    (fun t ht => reads_lockReceipt (n := 9) _ (by unfold Sql.Bracket; simp)
      (fun c => exec_mkdirReceipt ht c actor.userId i.idempotencyKey.val) (fun _ _ => rfl)
      fun r hr => mkdirReceipt_row ht (Tables.mem_of_receipt hr).1 (Tables.mem_of_receipt hr).2)
    (fun t _ => ?_) (fun r => sim_receiptFound) ?_
  · unfold mkdirOnceDecision
    cases t.receipt actor.userId 1027 i.idempotencyKey.val with
    | some r => rfl
    | none => rfl
  · refine sim_mkdirFresh actor i.parentId i.name win fun now => ?_
    unfold mkdirOnceEffect idealMkdir
    simp only [bind_assoc, pure_bind]
    refine (sim_insertRow (by unfold Sql.Bracket; simp) _ _).bind fun id => ?_
    refine (sim_auditRow 5 i.requestId actor id now).bind fun audit => ?_
    exact (sim_modifyOne receiptLimits (by unfold Sql.Bracket; simp) _ _).bind fun _ => .pure _

theorem sim_idealMove (nodeId newParentId : UInt64) (name : Bytes) (request : Key) (d : Value × Bool)
    (now : UInt64) (hk : ∀ audit, Sim (ideal Issue) (k audit) (K audit)) :
    Sim (ideal Issue) (do
      (if d.2 then updateMove dbOps actor.userId nodeId newParentId name (clamp now d.1.updatedAtMs)
        else pure ())
      let audit ← auditRow dbOps 6 request actor d.1.id now
      k audit) (idealMove actor nodeId newParentId name request d now >>= K) := by
  unfold idealMove
  rw [bind_assoc]
  refine .bind (.ite (fun _ => ?_) fun _ => .pure _) fun _ => ?_
  · exact sim_modifyOne writeLimits (by unfold Sql.Bracket; simp) _ _
  · exact (sim_auditRow 6 request actor d.1.id now).bind hk

theorem sim_moveWork (i : MoveInput) (win : Window) : Sim (ideal Issue) (moveWork dbOps actor i win)
      (idealWork (moveDecision actor i) (moveEffect actor i) win) := by
  unfold moveWork
  refine sim_decided (K := .ofExcept) (fun t ht => reads_moveVerdict ht _ _ _ _) (fun _ _ => rfl)
    fun b => sim_settled fun now => ?_
  cases b with
  | error v => exact sim_reject v
  | ok d =>
    show Sim (ideal Issue) _ (moveEffect actor i d now >>= fun a => pure (Settled.ready a))
    unfold moveEffect
    simp only [bind_assoc, pure_bind]
    exact sim_idealMove actor i.nodeId i.newParentId i.name i.requestId d now fun audit => Sim.pure _

theorem sim_moveOnceWork (i : MoveOnceInput) (win : Window) :
    Sim (ideal Issue) (moveOnceWork dbOps actor i win)
      (idealWork (moveOnceDecision actor i) (moveOnceEffect actor i) win) := by
  refine sim_receipt (N := fun t => .ofExcept (moveVerdictOf actor.userId i.nodeId i.newParentId i.name t))
    (D := fun r : MoveReceipt =>
      if r.sourceId ≠ i.nodeId ∨ r.parentId ≠ i.newParentId ∨ r.name ≠ i.name then
        .refuse keyConflict
      else .recover (OnceValue.mk .recovered r.nodeId r.auditId i.idempotencyKey.val))
    (fun t ht => reads_lockReceipt (n := 10) _ (by unfold Sql.Bracket; simp)
      (fun c => exec_moveReceipt ht c actor.userId i.idempotencyKey.val) (fun _ _ => rfl)
      fun r hr => moveReceipt_row ht (Tables.mem_of_receipt hr).1 (Tables.mem_of_receipt hr).2)
    (fun t ht => ?_) (fun r => sim_receiptFound) ?_
  · unfold moveOnceDecision
    cases hr : t.receipt actor.userId 1029 i.idempotencyKey.val with
    | some r =>
      obtain ⟨hmem, hk⟩ := Tables.mem_of_receipt hr
      have hnode := receipt_moved ht hmem (by simpa [ReceiptRow.key] using congrArg (·.2.1) hk)
      simp only [Option.map_some, hnode, ne_eq, Option.some.injEq]
    | none => rfl
  · dsimp only
    refine sim_decided (K := .ofExcept) (fun t ht => reads_moveVerdict ht _ _ _ _) (fun _ _ => rfl)
      fun b => sim_settled fun now => ?_
    cases b with
    | error v => exact sim_reject v
    | ok d =>
      show Sim (ideal Issue) _ (moveOnceEffect actor i d now >>= fun a => pure (Settled.ready a))
      unfold moveOnceEffect
      simp only [bind_assoc, pure_bind]
      refine sim_idealMove actor i.nodeId i.newParentId i.name i.requestId d now fun audit => ?_
      exact (sim_modifyOne moveReceiptLimits (by unfold Sql.Bracket; simp) _ _).bind fun _ => Sim.pure _

theorem sim_idealDelete (request : Key) (d : Value × ObjectRead) (now : UInt64)
    (hk : ∀ audit, Sim (ideal Issue) (k audit) (K audit)) :
    Sim (ideal Issue) (do
      deleteRows dbOps actor.userId d.1 d.2 now (clamp now d.1.updatedAtMs)
      let audit ← auditRow dbOps 7 request actor d.1.id now
      k audit) (idealDelete actor request d now >>= K) := by
  unfold idealDelete deleteRows
  simp only [bind_assoc]
  refine (sim_modifyOne writeLimits (by unfold Sql.Bracket; simp) _ _).bind fun _ => ?_
  refine .bind (.ite (fun _ => ?_) fun _ => .pure _) fun _ => ?_
  · exact sim_modifyOne writeLimits (by unfold Sql.Bracket; simp) _ _
  · exact (sim_auditRow 7 request actor d.1.id now).bind hk

theorem sim_softDeleteWork (i : SoftDeleteInput) (win : Window) :
    Sim (ideal Issue) (softDeleteWork dbOps actor i win)
      (idealWork (softDeleteDecision actor i) (softDeleteEffect actor i) win) := by
  unfold softDeleteWork
  refine sim_decided (K := .ofExcept) (fun t ht => reads_deleteVerdict ht _ _) (fun _ _ => rfl)
    fun b => sim_settled fun now => ?_
  cases b with
  | error v => exact sim_reject v
  | ok d =>
    show Sim (ideal Issue) _ (softDeleteEffect actor i d now >>= fun a => pure (Settled.ready a))
    unfold softDeleteEffect
    simp only [bind_assoc, pure_bind]
    exact sim_idealDelete actor i.requestId d now fun audit => Sim.pure _

theorem sim_softDeleteOnceWork (i : RemoveOnceInput) (win : Window) :
    Sim (ideal Issue) (softDeleteOnceWork dbOps actor i win)
      (idealWork (softDeleteOnceDecision actor i) (softDeleteOnceEffect actor i) win) := by
  refine sim_receipt (N := fun t => .ofExcept (deleteVerdictOf actor.userId i.nodeId t))
    (D := fun r : RemoveReceipt => if r.requestNodeId ≠ i.nodeId then .refuse keyConflict
      else .recover (RemoveValue.mk .recovered r.resultNodeId r.auditId r.createdAtMs))
    (fun t ht => reads_lockReceipt (n := 8) _ (by unfold Sql.Bracket; simp)
      (fun c => exec_removeReceipt ht c actor.userId i.idempotencyKey.val) (fun _ _ => rfl)
      fun r hr => removeReceipt_row ht (Tables.mem_of_removal hr).1 (Tables.mem_of_removal hr).2)
    (fun t _ => ?_) (fun r => sim_receiptFound) ?_
  · unfold softDeleteOnceDecision
    cases t.removal actor.userId i.idempotencyKey.val with
    | some r => rfl
    | none => rfl
  · dsimp only
    refine sim_decided (K := .ofExcept) (fun t ht => reads_deleteVerdict ht _ _) (fun _ _ => rfl)
      fun b => sim_settled fun now => ?_
    cases b with
    | error v => exact sim_reject v
    | ok d =>
      show Sim (ideal Issue) _ (softDeleteOnceEffect actor i d now >>= fun a => pure (Settled.ready a))
      unfold softDeleteOnceEffect
      simp only [bind_assoc, pure_bind]
      refine sim_idealDelete actor i.requestId d now fun audit => ?_
      exact (sim_modifyOne receiptLimits (by unfold Sql.Bracket; simp) _ _).bind fun _ => Sim.pure _

end

end Vireo.Persistence.Node
