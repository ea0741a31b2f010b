/-
  File:      Vireo/Persistence/MigrationChronicle.lean
  Subject:   THE HISTORY OF A SCHEMA: what a database that is only changed by migrations went through.

  A `Block` is one version as one run applies it: the dirty row, the steps in order, the completion. A
  `Chronicle` is the creation of the history table, the blocks that are complete, in the order of their
  versions, and possibly the beginning of one more. Nothing here names the code.
-/
import Vireo.Persistence.MigrationHistory

namespace Vireo.Persistence.Migrator

open List

/-! ## 1. Blocks -/

/-- A version, and the run that applies it. -/
structure Block where
  run : Nat
  migration : Migration

/-- What the database went through: the creation of the history table, the complete blocks, and a block that
    broke off. -/
structure Chronicle where
  creator : Option Nat := none
  done : List Block := []
  current : Option (Block × Nat) := none

section

variable (sha256 : Bytes → Digest)

namespace Block

/-- The dirty row. -/
def insertion (b : Block) : Write :=
  ⟨b.run, .insertDirty, versionParams b.migration (migrationHash sha256 b.migration)⟩

def step (b : Block) (s : MigrationStep) : Write := ⟨b.run, .ddl s, []⟩

/-- The completion of the row. -/
def completion (b : Block) : Write :=
  ⟨b.run, .markApplied, versionParams b.migration (migrationHash sha256 b.migration)⟩

/-- The writes of a block, in order. -/
def writes (b : Block) : List Write :=
  b.insertion sha256 :: (b.migration.steps.map b.step ++ [b.completion sha256])

/-- The row of a block: state 0 is dirty, 1 is applied. -/
def row (b : Block) (state : UInt8) : HistoryRow :=
  ⟨b.migration.version, (migrationHash sha256 b.migration).val, state⟩

end Block

/-- The creation of the history table. -/
def creation (run : Nat) : Write := ⟨run, .createHistory, []⟩

namespace Chronicle

/-- All writes, in order. -/
def log (ch : Chronicle) : List Write :=
  ch.creator.toList.map creation ++ ch.done.flatMap (Block.writes sha256) ++
    ch.current.toList.flatMap fun b => (b.1.writes sha256).take b.2

/-- The history table: the complete versions are applied, the last may be dirty. -/
def history (ch : Chronicle) : History :=
  ch.creator.map fun _ =>
    ch.done.map (Block.row sha256 · 1) ++ ch.current.toList.map (Block.row sha256 ·.1 0)

/-- The versions are `1, 2, …`, each the entry of the catalogue of the run that applied it; a block that is not
    complete has its dirty row; and nothing comes before the history table. -/
structure Sound (catalogue : Nat → List Migration) (ch : Chronicle) : Prop where
  done : ∀ (i : Nat) (b : Block), ch.done[i]? = some b →
    b.migration.version.toNat = i + 1 ∧ (catalogue b.run)[i]? = some b.migration
  current : ∀ (b : Block) (n : Nat), ch.current = some (b, n) →
    b.migration.version.toNat = ch.done.length + 1 ∧
      (catalogue b.run)[ch.done.length]? = some b.migration ∧ 0 < n ∧ n < (b.writes sha256).length
  creator : ch.creator = none → ch.done = [] ∧ ch.current = none

end Chronicle

/-- At every moment of the log, what was carried out is a sound chronicle. -/
def Recorded (catalogue : Nat → List Migration) (log : List Write) : Prop :=
  ∀ l, l <+: log → ∃ ch : Chronicle, ch.Sound sha256 catalogue ∧ ch.log sha256 = l

end

/-! ## 2. The table -/

variable {sha256 : Bytes → Digest} {catalogue : Nat → List Migration}

theorem tableAfter_append (history : History) (l l' : List Write) :
    tableAfter history (l ++ l') = tableAfter (tableAfter history l) l' := foldl_append

theorem tableAfter_steps (b : Block) (history : History) (steps : List MigrationStep) :
    tableAfter history (steps.map b.step) = history := by
  induction steps with
  | nil => rfl
  | cons s rest ih => exact ih

theorem pending_row (b : Block) :
    (b.row sha256 0).pending b.migration.version.toUInt64 (migrationHash sha256 b.migration).val = true := by
  unfold HistoryRow.pending Block.row
  simp

theorem not_pending {r : HistoryRow} (h : r.state = 1) (version : UInt64) (checksum : Bytes) :
    r.pending version checksum = false := by
  unfold HistoryRow.pending
  rw [h, Bool.and_eq_false_iff]
  exact .inr rfl

section

variable (b : Block)

theorem effect_insertion (rows : List HistoryRow) :
    Write.effect (some rows) (b.insertion sha256) = some (rows ++ [b.row sha256 0]) := by
  show some (rows ++ [⟨b.migration.version.toUInt64.toUInt32, _, 0⟩]) = _
  rw [UInt32.toUInt32_toUInt64]
  rfl

theorem effect_completion {rows : List HistoryRow} (h : ∀ r ∈ rows, r.state = 1) :
    Write.effect (some (rows ++ [b.row sha256 0])) (b.completion sha256) = some (rows ++ [b.row sha256 1]) := by
  show some ((rows ++ [b.row sha256 0]).map fun r =>
    if r.pending b.migration.version.toUInt64 (migrationHash sha256 b.migration).val then { r with state := 1 }
    else r) = _
  rw [map_append, map_singleton, pending_row]
  congr 2
  refine (map_congr_left fun r hr => ?_).trans (map_id rows)
  rw [not_pending (h r hr)]
  rfl

theorem tableAfter_writes {rows : List HistoryRow} (h : ∀ r ∈ rows, r.state = 1) :
    tableAfter (some rows) (b.writes sha256) = some (rows ++ [b.row sha256 1]) := by
  show tableAfter (Write.effect (some rows) (b.insertion sha256))
    (b.migration.steps.map b.step ++ [b.completion sha256]) = _
  rw [effect_insertion, tableAfter_append, tableAfter_steps]
  exact effect_completion b h

theorem length_writes : (b.writes sha256).length = b.migration.steps.length + 2 := by
  unfold Block.writes
  rw [length_cons, length_append, length_map]
  rfl

theorem tableAfter_take (rows : List HistoryRow) {n : Nat} (hpos : 0 < n)
    (hlt : n < (b.writes sha256).length) :
    tableAfter (some rows) ((b.writes sha256).take n) = some (rows ++ [b.row sha256 0]) := by
  obtain ⟨n, rfl⟩ := Nat.exists_eq_succ_of_ne_zero (Nat.pos_iff_ne_zero.mp hpos)
  rw [length_writes] at hlt
  have htake : (b.migration.steps.map b.step ++ [b.completion sha256]).take n =
      (b.migration.steps.take n).map b.step := by
    rw [take_append_of_le_length (by rw [length_map]; omega), map_take]
  show tableAfter (Write.effect (some rows) (b.insertion sha256))
    ((b.migration.steps.map b.step ++ [b.completion sha256]).take n) = _
  rw [htake, effect_insertion, tableAfter_steps]

end

theorem tableAfter_done (done : List Block) : ∀ {rows : List HistoryRow}, (∀ r ∈ rows, r.state = 1) →
    tableAfter (some rows) (done.flatMap (Block.writes sha256)) =
      some (rows ++ done.map (Block.row sha256 · 1)) := by
  induction done with
  | nil =>
    intro rows _
    rw [map_nil, List.append_nil]
    rfl
  | cons b rest ih =>
    intro rows h
    rw [flatMap_cons, tableAfter_append, tableAfter_writes b h, ih, append_assoc]
    · rfl
    intro r hr
    rcases mem_append.mp hr with hr | hr
    · exact h r hr
    · rw [mem_singleton.mp hr]
      rfl

theorem Chronicle.tableAfter_log {ch : Chronicle} (h : ch.Sound sha256 catalogue) :
    tableAfter none (ch.log sha256) = ch.history sha256 := by
  obtain ⟨creator, done, current⟩ := ch
  unfold Chronicle.log Chronicle.history
  cases creator with
  | none =>
    obtain ⟨hdone, hcurrent⟩ := h.creator rfl
    dsimp only at hdone hcurrent
    rw [hdone, hcurrent]
    rfl
  | some run =>
    have hdone : tableAfter (some []) (done.flatMap (Block.writes sha256)) = _ :=
      tableAfter_done done fun r hr => absurd hr not_mem_nil
    rw [tableAfter_append, tableAfter_append]
    show tableAfter (tableAfter (some []) _) _ = _
    rw [hdone, nil_append]
    cases current with
    | none => exact congrArg some (List.append_nil _).symm
    | some b =>
      obtain ⟨b, n⟩ := b
      obtain ⟨-, -, hpos, hlt⟩ := h.current b n rfl
      show tableAfter _ (((b.writes sha256).take n) ++ []) = _
      rw [List.append_nil]
      exact tableAfter_take b _ hpos hlt

/-! ## 3. Going on -/

/-- The blocks of a run that come next: versions and catalogue entries from `n` on. -/
def Next (catalogue : Nat → List Migration) (n : Nat) (bs : List Block) : Prop :=
  ∀ (k : Nat) (b : Block), bs[k]? = some b →
    b.migration.version.toNat = n + k + 1 ∧ (catalogue b.run)[n + k]? = some b.migration

theorem prefix_continued {l log more : List Write} (h : l <+: log ++ more) :
    l <+: log ∨ ∃ part, part <+: more ∧ l = log ++ part := by
  rcases Nat.le_total l.length log.length with hle | hle
  · exact .inl (prefix_of_prefix_length_le h (prefix_append log more) hle)
  · obtain ⟨part, rfl⟩ := prefix_of_prefix_length_le (prefix_append log more) h hle
    exact .inr ⟨part, (prefix_append_right_inj log).mp h, rfl⟩

theorem Chronicle.Sound.finish {creator : Option Nat} {done : List Block} {b : Block}
    (h : Chronicle.Sound sha256 catalogue ⟨creator, done, none⟩) (hcreated : creator ≠ none)
    (hversion : b.migration.version.toNat = done.length + 1)
    (hentry : (catalogue b.run)[done.length]? = some b.migration) :
    Chronicle.Sound sha256 catalogue ⟨creator, done ++ [b], none⟩ := by
  refine ⟨fun i b' hb' => ?_, (fun b n hn => nomatch hn), fun hn => absurd hn hcreated⟩
  dsimp only at hb'
  rcases Nat.lt_trichotomy i done.length with hlt | rfl | hgt
  · rw [List.getElem?_append_left hlt] at hb'
    exact h.done i b' hb'
  · rw [List.getElem?_append_right (le_refl _), Nat.sub_self] at hb'
    cases hb'
    exact ⟨hversion, hentry⟩
  · rw [List.getElem?_eq_none (by rw [length_append, length_singleton]; omega)] at hb'
    cases hb'

/-- Blocks that come next, carried out up to any point, are a sound chronicle. -/
theorem Chronicle.continued (bs : List Block) : ∀ {creator : Option Nat} {done : List Block} {ys : List Write},
    Chronicle.Sound sha256 catalogue ⟨creator, done, none⟩ → creator ≠ none →
    Next catalogue done.length bs → ys <+: bs.flatMap (Block.writes sha256) →
    ∃ ch : Chronicle, ch.Sound sha256 catalogue ∧
      ch.log sha256 = Chronicle.log sha256 ⟨creator, done, none⟩ ++ ys := by
  induction bs with
  | nil =>
    intro creator done ys h _ _ hys
    refine ⟨_, h, ?_⟩
    rw [prefix_nil.mp hys, List.append_nil]
  | cons b rest ih =>
    intro creator done ys h hcreated hnext hys
    obtain ⟨hversion, hentry⟩ := hnext 0 b rfl
    have hlog : ∀ zs : List Write, Chronicle.log sha256 ⟨creator, done, none⟩ ++ zs =
        creator.toList.map creation ++ done.flatMap (Block.writes sha256) ++ zs :=
      fun zs => congrArg (· ++ zs) (List.append_nil _)
    rw [flatMap_cons] at hys
    have hfinish := h.finish hcreated hversion hentry
    have hlast : Chronicle.log sha256 ⟨creator, done ++ [b], none⟩ =
        Chronicle.log sha256 ⟨creator, done, none⟩ ++ b.writes sha256 := by
      rw [hlog]
      unfold Chronicle.log
      rw [flatMap_append, flatMap_singleton]
      exact (List.append_nil _).trans (append_assoc ..).symm
    rcases prefix_continued hys with hpart | ⟨ys', hys', rfl⟩
    · rw [prefix_iff_eq_take.mp hpart]
      rcases Nat.eq_zero_or_pos ys.length with hzero | hpos
      · refine ⟨_, h, ?_⟩
        rw [hzero, List.take_zero, List.append_nil]
      rcases Nat.lt_or_ge ys.length (b.writes sha256).length with hlt | hge
      · refine ⟨⟨creator, done, some (b, ys.length)⟩,
          ⟨h.done, fun b' n hn => ?_, fun hn => absurd hn hcreated⟩, ?_⟩
        · cases hn
          exact ⟨hversion, hentry, hpos, hlt⟩
        · rw [hlog]
          unfold Chronicle.log
          exact congrArg _ (List.append_nil _)
      · refine ⟨_, hfinish, ?_⟩
        rw [hlast, take_of_length_le hge]
    · have hrest : Next catalogue (done ++ [b]).length rest := by
        intro k b' hb'
        have := hnext (k + 1) b' hb'
        rw [length_append, length_singleton, Nat.add_assoc done.length 1 k, Nat.add_comm 1 k]
        exact this
      obtain ⟨ch, hsound, hch⟩ := ih hfinish hcreated hrest hys'
      exact ⟨ch, hsound, by rw [hch, hlast, append_assoc]⟩

/-- **A recorded log goes on**: blocks that come next may be carried out up to any point. -/
theorem Recorded.blocks {log ys : List Write} {creator : Option Nat} {done bs : List Block}
    (h : Recorded sha256 catalogue log) (hsound : Chronicle.Sound sha256 catalogue ⟨creator, done, none⟩)
    (hlog : Chronicle.log sha256 ⟨creator, done, none⟩ = log) (hcreated : creator ≠ none)
    (hnext : Next catalogue done.length bs) (hys : ys <+: bs.flatMap (Block.writes sha256)) :
    Recorded sha256 catalogue (log ++ ys) := by
  intro l hl
  rcases prefix_continued hl with hl | ⟨zs, hzs, rfl⟩
  · exact h l hl
  · rw [← hlog]
    exact Chronicle.continued bs hsound hcreated hnext (hzs.trans hys)

theorem Recorded.create (run : Nat) : Recorded sha256 catalogue [creation run] := by
  intro l hl
  rcases prefix_cons_iff.mp hl with rfl | ⟨l, rfl, hnil⟩
  · exact ⟨{}, ⟨(fun i b hb => nomatch hb), (fun b n hn => nomatch hn), fun _ => ⟨rfl, rfl⟩⟩, rfl⟩
  rw [prefix_nil.mp hnil]
  exact ⟨{ creator := some run }, ⟨(fun i b hb => nomatch hb), (fun b n hn => nomatch hn), nofun⟩, rfl⟩

end Vireo.Persistence.Migrator
