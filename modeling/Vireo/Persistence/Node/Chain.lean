/-
  File:      Vireo/Persistence/Node/Chain.lean
  Subject:   THE WALKS TO THE ROOT ARE EXACT.
-/
import Vireo.Persistence.Node.Agree
import Vireo.Persistence.Node.Trace

namespace Vireo.Persistence.Node

open Lib Prog

/-! ## 1. The chain to the root -/

section Chains

variable (t : Tables) (owner : UInt64)

/-- The parent of an active directory. -/
def up (id : UInt64) : Option UInt64 :=
  (nodeAt t owner id).bind fun v => if v.kind = .directory then v.parent else none

/-- Entry `k` of the chain from `id` to the root. -/
def entry : Nat → UInt64 → Option UInt64
  | 0, id => some id
  | k + 1, id => (up t owner id).bind (entry k)

/-- From `id` directories lead to a root. -/
inductive Rooted : UInt64 → Prop
  | root {id : UInt64} {v : Value} (at' : nodeAt t owner id = some v) (dir : v.kind = .directory)
      (top : v.parent = none) : Rooted id
  | child {id parent : UInt64} {v : Value} (at' : nodeAt t owner id = some v)
      (dir : v.kind = .directory) (under : v.parent = some parent) (h : Rooted parent) : Rooted id

/-- **The active nodes of the owner form a tree**: from the parent of each directories lead to a root. -/
def Tree : Prop := ∀ id v p, nodeAt t owner id = some v → v.parent = some p → Rooted t owner p

end Chains

variable {t : Tables} {owner id parent : UInt64} {k : Nat}

theorem up_eq_some : up t owner id = some parent ↔
    ∃ v, nodeAt t owner id = some v ∧ v.kind = .directory ∧ v.parent = some parent := by
  unfold up
  rw [Option.bind_eq_some_iff]
  refine exists_congr fun v => and_congr_right fun _ => ?_
  split <;> simp [*]

theorem up_root {v : Value} (hat : nodeAt t owner id = some v) (htop : v.parent = none) :
    up t owner id = none := by
  refine Option.eq_none_iff_forall_ne_some.mpr fun p hp => ?_
  obtain ⟨v', hv', -, hp'⟩ := up_eq_some.mp hp
  rw [hat] at hv'
  cases hv'
  rw [htop] at hp'
  cases hp'

theorem entry_succ_eq_some {x : UInt64} : entry t owner (k + 1) id = some x ↔
    ∃ parent, up t owner id = some parent ∧ entry t owner k parent = some x :=
  Option.bind_eq_some_iff

theorem entry_succ (h : up t owner id = some parent) (k : Nat) :
    entry t owner (k + 1) id = entry t owner k parent := by
  show (up t owner id).bind _ = _
  rw [h]
  rfl

theorem entry_end (h : up t owner id = none) (k : Nat) : entry t owner (k + 1) id = none := by
  show (up t owner id).bind _ = _
  rw [h]
  rfl

theorem entry_none (h : entry t owner k id = none) {n : Nat} (hn : k ≤ n) : entry t owner n id = none := by
  induction k generalizing id n with
  | zero => cases h
  | succ k ih =>
    obtain ⟨n, rfl⟩ : ∃ m, n = m + 1 := ⟨n - 1, by omega⟩
    cases hup : up t owner id with
    | none => exact entry_end hup n
    | some parent =>
      rw [entry_succ hup] at h ⊢
      exact ih h (Nat.le_of_succ_le_succ hn)

/-! ## 2. Where a walk stops -/

/-- Entry `k`, which is `x`, was met before: it was visited, or is an earlier entry. -/
def Repeats (t : Tables) (owner : UInt64) (visited : List UInt64) (id : UInt64) (k : Nat)
    (x : UInt64) : Prop :=
  x ∈ visited ∨ ∃ i < k, entry t owner i id = some x

/-- The entry is repeated, missing, or no directory. -/
def Broken (t : Tables) (owner : UInt64) (visited : List UInt64) (id : UInt64) (k : Nat)
    (x : UInt64) : Prop :=
  Repeats t owner visited id k x ∨ isDirectory (nodeAt t owner x) = false

/-- The walk comes past entry `k`. -/
def Passed (t : Tables) (owner : UInt64) (forbidden : Option UInt64) (visited : List UInt64)
    (id : UInt64) (k : Nat) : Prop :=
  ∃ x, entry t owner k id = some x ∧ forbidden ≠ some x ∧ ¬ Broken t owner visited id k x

/-- **Where a walk of `n` rounds stops, and what it says there.** -/
inductive Walked (t : Tables) (owner : UInt64) (forbidden : Option UInt64) (visited : List UInt64)
    (n : Nat) (id : UInt64) : Option Verdict → Prop
  | limit (before : ∀ j < n, Passed t owner forbidden visited id j)
      (more : entry t owner n id ≠ none) : Walked t owner forbidden visited n id (some ancestryLimit)
  | cycle {k : Nat} {x : UInt64} (hk : k < n) (before : ∀ j < k, Passed t owner forbidden visited id j)
      (at' : entry t owner k id = some x) (hf : forbidden = some x) :
      Walked t owner forbidden visited n id (some moveCycle)
  | invalid {k : Nat} {x : UInt64} (hk : k < n)
      (before : ∀ j < k, Passed t owner forbidden visited id j) (at' : entry t owner k id = some x)
      (hf : forbidden ≠ some x) (hb : Broken t owner visited id k x) :
      Walked t owner forbidden visited n id (some treeInvalid)
  | root {k : Nat} (hk : k < n) (before : ∀ j ≤ k, Passed t owner forbidden visited id j)
      (top : entry t owner (k + 1) id = none) : Walked t owner forbidden visited n id none

section Walks

variable {forbidden : Option UInt64} {visited : List UInt64}

section

variable (hup : up t owner id = some parent)
include hup

theorem repeats_shift (k : Nat) (x : UInt64) :
    Repeats t owner visited id (k + 1) x ↔ Repeats t owner (id :: visited) parent k x := by
  unfold Repeats
  rw [List.mem_cons]
  constructor
  · rintro (h | ⟨i, hi, h⟩)
    · exact .inl (.inr h)
    · cases i with
      | zero => exact .inl (.inl (Option.some.inj h).symm)
      | succ i => exact .inr ⟨i, Nat.lt_of_succ_lt_succ hi, entry_succ hup i ▸ h⟩
  · rintro ((rfl | h) | ⟨i, hi, h⟩)
    · exact .inr ⟨0, Nat.succ_pos k, rfl⟩
    · exact .inl h
    · exact .inr ⟨i + 1, Nat.succ_lt_succ hi, (entry_succ hup i).trans h⟩

theorem passed_shift (k : Nat) :
    Passed t owner forbidden visited id (k + 1) ↔ Passed t owner forbidden (id :: visited) parent k := by
  unfold Passed Broken
  rw [entry_succ hup]
  exact exists_congr fun x => by rw [repeats_shift hup]

theorem before_shift (hzero : Passed t owner forbidden visited id 0) {k : Nat}
    (h : ∀ j < k, Passed t owner forbidden (id :: visited) parent j) :
    ∀ j < k + 1, Passed t owner forbidden visited id j := by
  intro j hj
  cases j with
  | zero => exact hzero
  | succ j => exact (passed_shift hup j).mpr (h j (Nat.lt_of_succ_lt_succ hj))

theorem Walked.shift (hzero : Passed t owner forbidden visited id 0) {n : Nat} {w : Option Verdict}
    (h : Walked t owner forbidden (id :: visited) n parent w) :
    Walked t owner forbidden visited (n + 1) id w := by
  cases h with
  | limit before more => exact .limit (before_shift hup hzero before) (entry_succ hup _ ▸ more)
  | cycle hk before hx hf =>
    exact .cycle (Nat.succ_lt_succ hk) (before_shift hup hzero before) ((entry_succ hup _).trans hx) hf
  | invalid hk before hx hf hb =>
    refine .invalid (Nat.succ_lt_succ hk) (before_shift hup hzero before) ((entry_succ hup _).trans hx)
      hf ?_
    unfold Broken at hb ⊢
    rwa [repeats_shift hup]
  | root hk before top =>
    refine .root (Nat.succ_lt_succ hk) (fun j hj => ?_) ((entry_succ hup _).trans top)
    exact before_shift hup hzero (fun j hj => before j (Nat.le_of_lt_succ hj)) j (Nat.lt_succ_of_le hj)

end

/-- **Every walk stops where `Walked` says.** -/
theorem walked (n : Nat) : ∀ (visited : List UInt64) (id : UInt64),
    Walked t owner forbidden visited n id (walk t owner forbidden n visited id) := by
  induction n with
  | zero => exact fun _ _ => .limit (fun _ hj => absurd hj (Nat.not_lt_zero _)) nofun
  | succ n ih =>
    intro visited id
    have hnone : ∀ j < 0, Passed t owner forbidden visited id j :=
      fun _ hj => absurd hj (Nat.not_lt_zero _)
    unfold walk
    split
    · rename_i hf
      exact .cycle (Nat.succ_pos n) hnone rfl hf
    rename_i hf
    split
    · rename_i hv
      exact .invalid (Nat.succ_pos n) hnone rfl hf (.inl (.inl hv))
    rename_i hv
    split
    · rename_i hat
      exact .invalid (Nat.succ_pos n) hnone rfl hf (.inr (by rw [hat]; rfl))
    rename_i v hat
    split
    · rename_i hk
      exact .invalid (Nat.succ_pos n) hnone rfl hf (.inr (by rw [hat]; exact decide_eq_false hk))
    rename_i hk
    have hzero : Passed t owner forbidden visited id 0 := by
      refine ⟨id, rfl, hf, ?_⟩
      rintro ((h | ⟨i, hi, -⟩) | h)
      · exact hv h
      · exact absurd hi (Nat.not_lt_zero _)
      · rw [hat] at h
        exact of_decide_eq_false h (not_not.mp hk)
    split
    · rename_i htop
      refine .root (Nat.succ_pos n) (fun j hj => ?_) (entry_end (up_root hat htop) 0)
      rw [Nat.le_zero.mp hj]
      exact hzero
    · rename_i parent hparent
      exact (ih (id :: visited) parent).shift (up_eq_some.mpr ⟨v, hat, not_not.mp hk, hparent⟩) hzero

/-! ## 3. What a walk says -/

variable {n : Nat}

theorem Passed.sound {k : Nat} {x : UInt64} (h : Passed t owner forbidden visited id k)
    (hx : entry t owner k id = some x) : forbidden ≠ some x ∧ ¬ Broken t owner visited id k x := by
  obtain ⟨y, hy, hf, hb⟩ := h
  rw [hx] at hy
  cases hy
  exact ⟨hf, hb⟩

/-- One of the first `n` entries is the forbidden one. -/
def Meets (t : Tables) (owner : UInt64) (forbidden : Option UInt64) (n : Nat) (id : UInt64) : Prop :=
  ∃ k < n, ∃ x, entry t owner k id = some x ∧ forbidden = some x

/-- **TREE_INVALID**: a broken entry comes before the forbidden one, the root and the bound. -/
theorem walk_invalid : walk t owner forbidden n [] id = some treeInvalid ↔
    ∃ k < n, ∃ x, entry t owner k id = some x ∧ Broken t owner [] id k x ∧
      ¬ Meets t owner forbidden (k + 1) id := by
  have hw : Walked t owner forbidden [] n id _ := walked n [] id
  generalize walk t owner forbidden n [] id = w at hw
  cases hw with
  | limit before more =>
    refine iff_of_false (fun e => absurd (Option.some.inj e) (by decide)) ?_
    rintro ⟨k, hk, x, hx, hb, -⟩
    exact ((before k hk).sound hx).2 hb
  | @cycle k' y hk' before hy hf =>
    refine iff_of_false (fun e => absurd (Option.some.inj e) (by decide)) ?_
    rintro ⟨k, -, x, hx, hb, hfree⟩
    rcases Nat.lt_or_ge k k' with hlt | hge
    · exact ((before k hlt).sound hx).2 hb
    · exact hfree ⟨k', Nat.lt_succ_of_le hge, y, hy, hf⟩
  | @invalid k x hk before hx hf hb =>
    refine iff_of_true rfl ⟨k, hk, x, hx, hb, ?_⟩
    rintro ⟨j, hj, y, hy, hfy⟩
    rcases Nat.lt_succ_iff_lt_or_eq.mp hj with hlt | rfl
    · exact ((before j hlt).sound hy).1 hfy
    rw [hx] at hy
    cases hy
    exact hf hfy
  | @root k' hk' before top =>
    refine iff_of_false nofun ?_
    rintro ⟨k, -, x, hx, hb, -⟩
    rcases Nat.lt_or_ge k' k with hlt | hge
    · rw [entry_none top hlt] at hx
      cases hx
    · exact ((before k hge).sound hx).2 hb

/-- **In a chain without a broken entry** a walk meets the forbidden entry, or is too long, or comes to
    the root. -/
theorem walk_sound (hsound : ∀ k x, entry t owner k id = some x → ¬ Broken t owner [] id k x) :
    (walk t owner forbidden n [] id = some moveCycle ↔ Meets t owner forbidden n id) ∧
    (walk t owner forbidden n [] id = some ancestryLimit ↔
      entry t owner n id ≠ none ∧ ¬ Meets t owner forbidden n id) ∧
    (walk t owner forbidden n [] id = none ↔ entry t owner n id = none ∧ ¬ Meets t owner forbidden n id) := by
  have hw : Walked t owner forbidden [] n id _ := walked n [] id
  have hcases : ∀ w, Walked t owner forbidden [] n id w →
      (w = some moveCycle ∧ Meets t owner forbidden n id) ∨
      (w = some ancestryLimit ∧ entry t owner n id ≠ none ∧ ¬ Meets t owner forbidden n id) ∨
      (w = none ∧ entry t owner n id = none ∧ ¬ Meets t owner forbidden n id) := by
    intro w hw
    cases hw with
    | limit before more =>
      refine .inr (.inl ⟨rfl, more, ?_⟩)
      rintro ⟨k, hk, x, hx, hf⟩
      exact ((before k hk).sound hx).1 hf
    | cycle hk before hx hf => exact .inl ⟨rfl, _, hk, _, hx, hf⟩
    | invalid hk before hx hf hb => exact absurd hb (hsound _ _ hx)
    | @root k' hk' before top =>
      refine .inr (.inr ⟨rfl, entry_none top hk', ?_⟩)
      rintro ⟨k, -, x, hx, hf⟩
      rcases Nat.lt_or_ge k' k with hlt | hge
      · rw [entry_none top hlt] at hx
        cases hx
      · exact ((before k hge).sound hx).1 hf
  have hne : moveCycle ≠ ancestryLimit := by decide
  rcases hcases _ hw with ⟨e, h⟩ | ⟨e, h, h'⟩ | ⟨e, h, h'⟩
  · rw [e]
    simp [h, hne]
  · rw [e]
    simp [h, h', hne.symm]
  · rw [e]
    simp [h, h']

end Walks

/-! ## 4. Trees -/

section

variable (h : Rooted t owner id)
include h

theorem Rooted.isDirectory : Node.isDirectory (nodeAt t owner id) = true := by
  cases h with
  | root hat hdir | child hat hdir =>
    rw [hat]
    exact decide_eq_true hdir

theorem Rooted.up (hup : up t owner id = some parent) : Rooted t owner parent := by
  obtain ⟨v, hat, -, hp⟩ := up_eq_some.mp hup
  cases h with
  | root hat' _ top =>
    rw [hat] at hat'
    cases hat'
    rw [hp] at top
    cases top
  | child hat' _ under h =>
    rw [hat] at hat'
    cases hat'
    rw [hp] at under
    cases under
    exact h

theorem Rooted.entry {x : UInt64} (hx : Node.entry t owner k id = some x) : Rooted t owner x := by
  induction k generalizing id with
  | zero =>
    cases hx
    exact h
  | succ k ih =>
    obtain ⟨parent, hup, hx⟩ := entry_succ_eq_some.mp hx
    exact ih (h.up hup) hx

omit h in
theorem Tree.rooted (h : Tree t owner) (hdir : isDirectory (nodeAt t owner id) = true) :
    Rooted t owner id := by
  cases hat : nodeAt t owner id with
  | none =>
    rw [hat] at hdir
    cases hdir
  | some v =>
    rw [hat] at hdir
    have hk : v.kind = .directory := of_decide_eq_true hdir
    cases hp : v.parent with
    | none => exact .root hat hk hp
    | some p => exact .child hat hk hp (h id v p hat hp)

theorem Rooted.distinct : ∀ i j x, i < j →
    Node.entry t owner i id = some x → Node.entry t owner j id ≠ some x := by
  have hstep : ∀ {id parent : UInt64}, Node.up t owner id = some parent →
      (∀ i j x, i < j → Node.entry t owner i parent = some x → Node.entry t owner j parent ≠ some x) →
      ∀ i j x, i < j → Node.entry t owner i id = some x → Node.entry t owner j id ≠ some x := by
    intro id parent hup ih i j x hij hi hj
    obtain ⟨j, rfl⟩ : ∃ m, j = m + 1 := ⟨j - 1, by omega⟩
    rw [entry_succ hup] at hj
    cases i with
    | succ i =>
      rw [entry_succ hup] at hi
      exact ih i j x (Nat.lt_of_succ_lt_succ hij) hi hj
    | zero =>
      -- the chain of the parent would come back to the parent
      cases hi
      refine ih 0 (j + 1) parent (Nat.succ_pos j) rfl ?_
      have hadd : ∀ k y, Node.entry t owner k y = some id → Node.entry t owner (k + 1) y = some parent := by
        intro k
        induction k with
        | zero =>
          intro y hy
          cases hy
          exact (entry_succ hup 0).trans rfl
        | succ k ih =>
          intro y hy
          obtain ⟨p, hup', hy⟩ := entry_succ_eq_some.mp hy
          exact (entry_succ hup' _).trans (ih p hy)
      exact hadd j parent hj
  induction h with
  | root hat hdir top =>
    intro i j x hij _ hj
    obtain ⟨j, rfl⟩ : ∃ m, j = m + 1 := ⟨j - 1, by omega⟩
    rw [entry_end (up_root hat top)] at hj
    cases hj
  | child hat hdir under _ ih => exact hstep (up_eq_some.mpr ⟨_, hat, hdir, under⟩) ih

theorem Rooted.sound (k : Nat) (x : UInt64) (hx : Node.entry t owner k id = some x) :
    ¬ Broken t owner [] id k x := by
  rintro ((hmem | ⟨i, hi, hix⟩) | hdir)
  · cases hmem
  · exact h.distinct i k x hi hix hx
  · rw [(h.entry hx).isDirectory] at hdir
    cases hdir

end

/-! ## 5. The rows that are read -/

/-- A statement that looks a node up. -/
def looksUp : Event → Bool
  | .prepared (.activeNode _) _ _ => true
  | _ => false

/-- The look-ups of the trace. -/
def lookups {W : Type} (s : Call (W × List Event) Issue) : Nat := (trace s).countP looksUp

/-- A step with at most `n` look-ups, whatever the dependencies answer. -/
def Looks {W α : Type} (n : Nat) (p : NodeStep (W × List Event) α) : Prop :=
  ∀ s, lookups (p s).2 ≤ lookups s + n

section Lookups

variable {W α β : Type} {m n : Nat} {p : NodeStep (W × List Event) α} (ops : Ops W)

theorem lookups_event (s : Call (W × List Event) Issue) (w : W) {e : Event} (he : looksUp e = false) :
    lookups { s with world := (w, s.world.2 ++ [e]) } = lookups s := by
  show (s.world.2 ++ [e]).countP _ = s.world.2.countP _
  rw [List.countP_append, List.countP_singleton, he]
  rfl

theorem unlooked : KeptByReads ops.traced fun s s' : Call (W × List Event) Issue => lookups s' ≤ lookups s where
  refl _ := Nat.le_refl _
  trans _ _ _ h h' := h'.trans h
  diagnose _ _ _ _ := Nat.le_refl _
  closeStatement := by
    intro s
    unfold closeStatement
    cases s.statement with
    | none => exact Nat.le_refl _
    | some sql =>
      dsimp only
      rw [succeed_state]
      exact (lookups_event s _ rfl).le
  fetching _ s := (lookups_event s _ rfl).le
  column _ _ s := (lookups_event s _ rfl).le

theorem Looks.pure (n : Nat) (a : α) : Looks n (Pure.pure a : NodeStep (W × List Event) α) :=
  fun _ => Nat.le_add_right _ _

theorem Looks.bind {f : α → NodeStep (W × List Event) β} (hp : Looks m p) (hf : ∀ a, Looks n (f a)) :
    Looks (m + n) (p >>= f) :=
  Keeps.of_wp (R := fun s s' => lookups s' ≤ lookups s + (m + n)) fun s => wp_bind.mpr <|
    wp_mono (Keeps.wp (R := fun s s' => lookups s' ≤ lookups s + m) hp s)
      (fun a s' h => wp_mono (Keeps.wp (R := fun s s' => lookups s' ≤ lookups s + n) (hf a) s')
        (fun _ _ h' => by omega) fun _ _ h' => by omega) fun _ _ h => by omega

theorem Looks.ite {c : Prop} [Decidable c] {q : NodeStep (W × List Event) α} (hp : Looks n p)
    (hq : Looks n q) : Looks n (if c then p else q) :=
  Keeps.ite (R := fun s s' => lookups s' ≤ lookups s + n) hp hq

theorem looks_executing (remap : Result → Result) (limits : Limits) (sql : Sql) (params : List Param)
    (stage : Stage) : Looks 1 (executing ops.traced remap limits sql params stage) := by
  intro s
  have hprepare : lookups (prepareSql ops.traced remap limits sql stage false s).2 ≤ lookups s + 1 := by
    show (s.world.2 ++ [Event.prepared sql limits _]).countP _ ≤ _
    rw [List.countP_append]
    exact Nat.add_le_add_left List.countP_le_length _
  have hrun : lookups (prepareExecute ops.traced remap limits sql params stage false s).2 ≤ lookups s + 1 := by
    rw [prepareExecute]
    split
    · exact (lookups_event _ _ rfl).le.trans hprepare
    · exact hprepare
  refine Nat.le_trans ?_ hrun
  exact (unlooked ops).bind ((unlooked ops).succeed _) (fun _ => (unlooked ops).pure _) _

theorem looks_lockRow (limits : Limits) (sql : Sql) (params : List Param) (stage : Stage)
    {read : NodeStep (W × List Event) (Option (List Cell))}
    (hr : Keeps (fun s s' => lookups s' ≤ lookups s) read) (check : List Cell → Option β) :
    Looks 1 (closing ops.traced stage (lockRow ops.traced limits sql params stage read check)) := by
  have h := unlooked ops
  have hrow : Looks 1 (lockRow ops.traced limits sql params stage read check) := by
    refine Looks.bind (n := 0) (looks_executing ops _ limits sql params stage) fun ex => ?_
    refine Keeps.ite (R := fun s s' => lookups s' ≤ lookups s) (h.fail _) (h.bind hr fun row => ?_)
    cases row with
    | none => exact h.pure _
    | some cells =>
      dsimp only
      cases check cells with
      | none => exact h.fail _
      | some v => exact h.bind (h.uniqueEnd sql stage) fun _ => h.pure _
  refine Keeps.of_wp (R := fun s s' => lookups s' ≤ lookups s + 1) fun s => wp_always.mpr (wp_onError.mpr ?_)
  refine wp_mono (Keeps.wp (R := fun s s' => lookups s' ≤ lookups s + 1) hrow s) (fun _ s' hs => ?_)
    fun _ s' hs => ?_
  · exact wp_mono (h.closeStatement.wp s') (fun _ _ k => k.trans hs) fun _ _ k => k.trans hs
  · exact wp_mono (h.closeStatement.wp _) (fun _ _ k => k.trans hs) fun _ _ k => k.trans hs

theorem looks_lockMoveNode (owner id : UInt64) (lock : Lock) (stage : Stage) :
    Looks 1 (lockMoveNode ops.traced owner id lock stage) := by
  refine looks_lockRow ops _ _ _ _ (.always (unlooked ops).trans ((unlooked ops).readRow _ _ _) fun s => ?_) _
  show lookups (retag stage s) ≤ lookups s
  unfold retag
  split <;> exact Nat.le_refl _

/-- **The walk of a move looks up at most as many rows as it has rounds**, whatever is answered. -/
theorem looks_moveChainLoop (owner forbidden : UInt64) (n : Nat) : ∀ (visited : List UInt64)
    (id : UInt64), Looks n (moveChainLoop ops.traced owner forbidden n visited id) := by
  induction n with
  | zero => exact fun _ _ => .pure 0 _
  | succ n ih =>
    intro visited id
    refine .ite (.pure _ _) (.ite (.pure _ _) ?_)
    rw [Nat.add_comm n 1]
    refine .bind (looks_lockMoveNode ops owner id .share .ancestor) fun row => ?_
    cases row with
    | none => exact .pure _ _
    | some v =>
      refine .ite (.pure _ _) ?_
      cases v.parent with
      | none => exact .pure _ _
      | some parent => exact ih (id :: visited) parent

theorem looks_deleteChainLoop (owner : UInt64) (n : Nat) : ∀ (visited : List UInt64) (id : UInt64),
    Looks n (deleteChainLoop ops.traced owner n visited id) := by
  induction n with
  | zero => exact fun _ _ => .pure 0 _
  | succ n ih =>
    intro visited id
    refine .ite (.pure _ _) ?_
    rw [Nat.add_comm n 1]
    refine .bind (looks_lockRow ops _ _ _ _ ((unlooked ops).readRow _ _ _) _) fun row => ?_
    cases row with
    | none => exact .pure _ _
    | some v =>
      refine .ite (.pure _ _) ?_
      cases v.parent with
      | none => exact .pure _ _
      | some parent => exact ih (id :: visited) parent

end Lookups

/-! ## 6. Moves -/

theorem nodeAt_parent_ne_zero (hs : Schema t) {v : Value} (hat : nodeAt t owner id = some v)
    (hp : v.parent = some parent) : parent ≠ 0 := by
  obtain ⟨r, hr, rfl⟩ := Option.map_eq_some_iff.mp hat
  exact parent_ne_zero hs (Tables.mem_of_activeNode hr).1 hp

theorem entry_ne_zero (hs : Schema t) (hid : id ≠ 0) {x : UInt64} (hx : entry t owner k id = some x) :
    x ≠ 0 := by
  induction k generalizing id with
  | zero =>
    cases hx
    exact hid
  | succ k ih =>
    obtain ⟨parent, hup, hx⟩ := entry_succ_eq_some.mp hx
    obtain ⟨v, hat, -, hp⟩ := up_eq_some.mp hup
    exact ih (nodeAt_parent_ne_zero hs hat hp) hx

theorem walk_zero (hs : Schema t) (hid : id ≠ 0) (n : Nat) :
    walk t owner (some 0) n [] id ≠ some moveCycle := by
  have hw : Walked t owner (some 0) [] n id _ := walked n [] id
  generalize walk t owner (some 0) n [] id = w at hw
  cases hw with
  | limit => exact fun e => absurd (Option.some.inj e) (by decide)
  | cycle _ _ hx hf => exact absurd (Option.some.inj hf).symm (entry_ne_zero hs hid hx)
  | invalid => exact fun e => absurd (Option.some.inj e) (by decide)
  | root => exact nofun

theorem moveVerdictOf_file (hs : Schema t) {nodeId : UInt64} {source : Value}
    (hat : nodeAt t owner nodeId = some source) (hfile : source.kind ≠ .directory)
    (newParentId : UInt64) (name : Bytes) :
    moveVerdictOf owner nodeId newParentId name t ≠ .error moveCycle := by
  unfold moveVerdictOf
  rw [hat]
  dsimp only
  split
  · exact fun e => absurd (Except.error.inj e) (by decide)
  rename_i hdir
  have hnew : newParentId ≠ 0 := by
    cases hnode : nodeAt t owner newParentId with
    | none =>
      rw [hnode] at hdir
      exact absurd rfl hdir
    | some v =>
      obtain ⟨r, hr, -⟩ := Option.map_eq_some_iff.mp hnode
      obtain ⟨hmem, -, rfl, -⟩ := Tables.mem_of_activeNode hr
      exact (hs.checks.nodes r hmem).id
  split
  · exact fun e => absurd (Except.error.inj e) (by decide)
  rename_i old hold
  split
  · rename_i v hv
    exact fun e => walk_zero hs (nodeAt_parent_ne_zero hs hat hold) _ (Except.error.inj e ▸ hv)
  split
  · rename_i v hv
    exact fun e => walk_zero hs hnew _ (Except.error.inj e ▸ hv)
  split
  · exact fun e => absurd (Except.error.inj e) (by decide)
  · exact nofun

theorem MoveAllowed.outside {nodeId newParentId : UInt64} {name : Bytes} {d : Value × Bool}
    (h : MoveAllowed owner nodeId newParentId name t d) (hdir : d.1.kind = .directory) (k : Nat) :
    entry t owner k newParentId ≠ some nodeId := by
  have hw : Walked t owner (some nodeId) [] ancestorCapacity newParentId _ :=
    walked ancestorCapacity [] newParentId
  have htowards := h.towards
  rw [if_pos hdir, nodeAt_id h.source] at htowards
  rw [htowards] at hw
  generalize hnone : (none : Option Verdict) = w at hw
  cases hw with
  | limit | cycle | invalid => cases hnone
  | @root k' _ before top =>
    intro hk
    rcases Nat.lt_or_ge k' k with hlt | hge
    · rw [entry_none top hlt] at hk
      cases hk
    · exact ((before k hge).sound hk).1 rfl

/-- The node and the new parent of a move. -/
def WriteCall.moved : WriteCall → Option (UInt64 × UInt64)
  | .move i => some (i.nodeId, i.newParentId)
  | .moveOnce i => some (i.nodeId, i.newParentId)
  | _ => none

theorem Wrote.moved {actor : Actor} {c : Counters} {call : WriteCall} {p : Published} {t' : Tables}
    {nodeId newParentId : UInt64} (h : Wrote actor t c call p t')
    (hcall : call.moved = some (nodeId, newParentId)) :
    ∃ d name, MoveAllowed actor.userId nodeId newParentId name t d := by
  cases h with
  | move i d _ _ _ verdict | moveOnce i d _ _ _ _ verdict =>
    cases hcall
    exact ⟨d, _, moveVerdictOf_ok verdict⟩
  | _ => cases hcall

/-! ## 7. The two loops -/

/-- **The ancestry checks are exact.** Both loops give the verdict of the walk, or a fault strikes, after at
    most 256 look-ups; in a tree it is MOVE_CYCLE when the forbidden source is among the first 256 of the
    start's chain, else ANCESTRY_LIMIT when there are more. -/
theorem ancestry_exact {t : Tables} {owner : UInt64} (hr : Readable t owner) (start : UInt64) :
    (∀ forbidden, Sees t (moveChain dbOps owner start forbidden)
      (walk t owner (some forbidden) ancestorCapacity [] start)) ∧
    Sees t (deleteChain dbOps owner start) (walk t owner none ancestorCapacity [] start) ∧
    (∀ forbidden, walk t owner forbidden ancestorCapacity [] start = some treeInvalid ↔
      ∃ k < 256, ∃ x, entry t owner k start = some x ∧ Broken t owner [] start k x ∧
        ¬ Meets t owner forbidden (k + 1) start) ∧
    (Tree t owner → isDirectory (nodeAt t owner start) = true →
      (∀ forbidden,
        (walk t owner (some forbidden) ancestorCapacity [] start = some moveCycle ↔
          ∃ k < 256, entry t owner k start = some forbidden) ∧
        (walk t owner (some forbidden) ancestorCapacity [] start = some ancestryLimit ↔
          entry t owner 256 start ≠ none ∧ ¬ ∃ k < 256, entry t owner k start = some forbidden) ∧
        (walk t owner (some forbidden) ancestorCapacity [] start = none ↔
          entry t owner 256 start = none ∧ ¬ ∃ k < 256, entry t owner k start = some forbidden)) ∧
      (walk t owner none ancestorCapacity [] start = some ancestryLimit ↔ entry t owner 256 start ≠ none) ∧
      (walk t owner none ancestorCapacity [] start = none ↔ entry t owner 256 start = none)) ∧
    (∀ (W : Type) (ops : Ops W) (s : Call (W × List Event) Issue),
      (∀ forbidden, lookups (moveChain ops.traced owner start forbidden s).2 ≤ lookups s + 256) ∧
        lookups (deleteChain ops.traced owner start s).2 ≤ lookups s + 256) ∧
    (∀ (c : Counters), Schema t → Below t c → ∀ (call : WriteCall) (nodeId newParentId : UInt64),
      call.moved = some (nodeId, newParentId) → ∀ (actor : Actor) (timeout : UInt32) (repo : Repo)
      (clock : Nat → Sampled) (faults : Nat → Option Fault),
      let o := call.run dbOps actor timeout repo (.fresh t c clock faults)
      o.world.committed ≠ t ∨ o.report.commit = .committed →
        ∃ source, nodeAt t actor.userId nodeId = some source ∧ (source.kind = .directory →
          ∀ k, entry t actor.userId k newParentId ≠ some nodeId)) ∧
    (Schema t → ∀ (nodeId newParentId : UInt64) (name : Bytes) (source : Value),
      nodeAt t owner nodeId = some source → source.kind ≠ .directory → ∃ verdict,
        Reads t (moveVerdict dbOps owner nodeId newParentId name) verdict ∧ verdict ≠ .error moveCycle) := by
  refine ⟨fun f => sees_moveChainLoop hr f ancestorCapacity [] start,
    sees_deleteChainLoop hr ancestorCapacity [] start, fun _ => walk_invalid, ?_, ?_, ?_, ?_⟩
  · intro htree hdir
    have hsound := (htree.rooted hdir).sound
    refine ⟨fun f => ?_, ?_, ?_⟩
    · have hmeets : Meets t owner (some f) ancestorCapacity start ↔ ∃ k < 256, entry t owner k start = some f :=
        exists_congr fun k => and_congr_right fun _ =>
          ⟨fun ⟨x, hx, hf⟩ => hx.trans hf.symm, fun hx => ⟨f, hx, rfl⟩⟩
      rw [← hmeets]
      exact walk_sound hsound
    · refine (walk_sound hsound).2.1.trans (and_iff_left ?_)
      rintro ⟨_, _, _, _, hf⟩
      cases hf
    · refine (walk_sound hsound).2.2.trans (and_iff_left ?_)
      rintro ⟨_, _, _, _, hf⟩
      cases hf
  · exact fun W ops s => ⟨fun f => looks_moveChainLoop ops owner f ancestorCapacity [] start s,
      looks_deleteChainLoop ops owner ancestorCapacity [] start s⟩
  · intro c hs hb call nodeId newParentId hcall actor timeout repo clock faults o hdone
    rcases write_leaves hs hb call actor timeout repo clock faults with ⟨hsame, hnot⟩ | ⟨p, hwrote, -⟩
    · exact absurd hdone (not_or.mpr ⟨not_not.mpr hsame, hnot⟩)
    · obtain ⟨d, name, hallowed⟩ := hwrote.moved hcall
      exact ⟨d.1, hallowed.source, hallowed.outside⟩
  · exact fun hs nodeId newParentId name source hat hfile =>
      ⟨_, reads_moveVerdict hs owner nodeId newParentId name, moveVerdictOf_file hs hat hfile newParentId name⟩

/-- Two directories below the root, one in the other. -/
def threeLevels : Tables where
  users := oneUser.users
  sessions := oneUser.sessions
  nodes := oneUser.nodes ++ [⟨2, 1, some 1, [100], 1, 2, none, 0, 0, 0, none⟩, ⟨3, 1, some 2, [101], 1, 2, none, 0, 0, 0, none⟩]

theorem tree_threeLevels : Tree threeLevels 1 := by
  have hroot : Rooted threeLevels 1 1 := .root rfl rfl rfl
  have hparents : ∀ r ∈ threeLevels.nodes, ∀ p ∈ r.parentId, p = 1 ∨ p = 2 := by decide
  intro id v p hat hp
  obtain ⟨r, hr, rfl⟩ := Option.map_eq_some_iff.mp hat
  rcases hparents r (Tables.mem_of_activeNode hr).1 p hp with rfl | rfl
  · exact hroot
  · exact .child rfl rfl rfl hroot

/-- From the lower one the walk accepts; under it its own parent is no place to go, nor a node that is missing. -/
theorem ancestry_exact_levels :
    Sees threeLevels (deleteChain dbOps 1 3) none ∧ Sees threeLevels (moveChain dbOps 1 3 2) (some moveCycle) ∧
      Sees threeLevels (moveChain dbOps 1 4 2) (some treeInvalid) := by
  have hr : Readable threeLevels 1 := .of_schema ⟨by decide, by decide, by decide⟩ 1
  obtain ⟨moves, deletes, -, levels, -⟩ := ancestry_exact hr 3
  obtain ⟨toward, -, accepts⟩ := levels tree_threeLevels (by decide)
  have hcycle := (toward 2).1.mpr ⟨1, by decide, by decide⟩
  have hroot := accepts.mpr (by decide)
  have hmissing : walk threeLevels 1 (some 2) ancestorCapacity [] 4 = some treeInvalid := by decide
  exact ⟨hroot ▸ deletes, hcycle ▸ moves 2, hmissing ▸ (ancestry_exact hr 4).1 2⟩

end Vireo.Persistence.Node
