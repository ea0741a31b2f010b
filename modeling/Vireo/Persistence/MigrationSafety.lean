/-
  File:      Vireo/Persistence/MigrationSafety.lean
  Subject:   MIGRATIONS ARE APPLIED ONCE AND IN ORDER, over any sequence of runs.
-/
import Vireo.Persistence.MigrationRun

namespace Vireo.Persistence.Migrator

open Lib Action List

/-! ## 1. One run -/

section Apply

variable {c₀ : Context Server} {m : List Migration}

theorem hashOne_spec (entry : Migration) :
    Triple (Reads c₀) (hashOne serverOps entry) fun o c => Reads c₀ c ∧
      ∀ d, o = .ok d → d = migrationHash c₀.world.sha256 entry := by
  intro c hc
  refine ⟨.trans _ _ _ hc ⟨same_hash entry c.world, rfl, id⟩, fun d hd => ?_⟩
  unfold hashOne at hd
  dsimp only [serverOps] at hd
  split at hd
  · cases hd
  · cases hd
    rw [hc.world.sha256]

theorem hashAll_spec (m : List Migration) :
    Triple (Reads c₀) (hashAll serverOps m) fun hashes c => Reads c₀ c ∧
      (c.result = .ok → hashes = m.map (migrationHash c₀.world.sha256)) := by
  induction m generalizing c₀ with
  | nil => exact .pure fun c hc => ⟨hc, fun _ => rfl⟩
  | cons entry rest ih =>
    refine .bind (hashOne_spec entry) fun o => ?_
    cases o with
    | error f =>
      exact triple_fail f.property fun c hc hne =>
        ⟨.trans _ _ _ hc.1 (reads_fail _ _ _ c), fun hok => absurd hok hne⟩
    | ok d =>
      refine .pre (P := fun c => d = migrationHash c₀.world.sha256 entry ∧ Reads c₀ c) ?_ fun c hc =>
        ⟨hc.2 d rfl, hc.1⟩
      refine .assume fun hd => .bind ih fun hashes => .pure fun c hc => ⟨hc.1, fun hok => ?_⟩
      rw [hc.2 hok, hd]
      rfl

theorem reads_lockNameOf (database : Bytes) : Keeps Reads (lockNameOf serverOps database) := by
  intro c
  have hstep : Reads c { c with world := (serverOps.lockDigest database c.world).2 } :=
    ⟨same_lockDigest database c.world, rfl, id⟩
  rw [lockNameOf]
  split
  · exact .trans _ _ _ hstep (reads_fail _ _ _ _)
  · exact hstep

theorem reads_openConnection : Keeps Reads (openConnection serverOps) := by
  intro c
  refine .trans _ _ _ ?_ (reads_fail _ _ _ _)
  exact ⟨same_open c.world, rfl, id⟩

theorem reads_checkDatabase (database : Bytes) : Keeps Reads (checkDatabase serverOps database) := by
  refine reads_bind (reads_start rfl [] 1) fun r => reads_bind (reads_when ?_) fun _ => reads_stop
  refine reads_bind (reads_both (reads_next _) (reads_equals _ _ _)) fun _ => ?_
  exact reads_bind (reads_when (reads_modify_shape _)) fun _ => reads_lastRow _ _

theorem reads_takeLock (lock : Bytes) : Keeps Reads (takeLock serverOps lock) := by
  refine reads_bind (reads_scalar rfl _) fun v => ?_
  cases v with
  | none => exact reads_pure _
  | some granted =>
    refine .ite (reads_pure _) (.ite ?_ ?_)
    · exact reads_bind (reads_modify_fail _ _ _) fun _ => reads_pure _
    · exact reads_bind (reads_modify_shape _) fun _ => reads_pure _

theorem reads_unlock (lock : Bytes) : Keeps Reads (unlock serverOps lock) := by
  intro c
  refine .trans _ _ _ ?_ (reads_cleanupFailure _ _ _ _)
  have hrelease : Keeps Reads (do
      let released ← scalar serverOps .releaseLock [.text lock]
      when (released.isSome ∧ released ≠ some 1) (.modify (.shape .unexpectedResult))
      stop serverOps : Step Server Unit) :=
    reads_bind (reads_scalar rfl _) fun _ => reads_bind (reads_when (reads_modify_shape _)) fun _ => reads_stop
  exact ⟨(hrelease { c with result := .ok, error := {}, phase := .unlock }).world, rfl, id⟩

theorem reads_closeConnection : Keeps Reads (closeConnection serverOps) := by
  intro c
  unfold closeConnection
  split
  · have hclose := reads_cleanupFailure (serverOps.close c.world).1.result .close none
      { c with world := (serverOps.close c.world).2, connection := (serverOps.close c.world).1.left }
    exact { hclose with world := (same_close c.world).trans hclose.world }
  · exact .refl c

theorem reads_cleanUp (locked : Bool) (lock : Bytes) : Keeps Reads (cleanUp serverOps locked lock) := by
  refine reads_bind reads_stop fun _ => reads_bind (.read Reads.refl _) fun _ => ?_
  refine reads_bind (reads_when (reads_unlock lock)) fun _ => reads_bind reads_closeConnection fun _ => ?_
  exact fun c => ⟨.refl _, rfl, id⟩

theorem Outcome.before {c : Context Server} (hattempted : c₀.report.writeAttempted = false) (hc : Reads c₀ c)
    (hfailed : c.result ≠ .ok) : Outcome c₀.world m c :=
  .refused hc.world (hc.attempted.trans hattempted) hfailed

theorem lockedPart_spec {hashes : List Digest} (hhashes : hashes = m.map (migrationHash c₀.world.sha256))
    (database lock : Bytes) (hattempted : c₀.report.writeAttempted = false) :
    Triple (Reads c₀) (lockedPart serverOps database m hashes lock) fun _ => Outcome c₀.world m := by
  refine .bind (reads_triple (reads_phase _)) fun _ => ?_
  refine .bind (reads_triple (reads_checkDatabase database)) fun _ => ?_
  refine .bind (reads_triple reads_good) fun ok => ?_
  refine .bind (reads_triple (.ite (reads_takeLock lock) (reads_pure _))) fun locked => ?_
  refine .bind (checked_good fun c hc => hc) fun ok => ?_
  refine .bind (Q := fun _ => Outcome c₀.world m) (.when (fun _ => ?_) fun hbad c hc => ?_) fun _ => ?_
  · exact (runLocked_spec hhashes _ hattempted).pre fun c hc => hc.1
  · exact .before hattempted hc.1 (hc.2 (Bool.eq_false_iff.mpr hbad))
  · exact .pure fun c hc => hc

theorem applyBody_spec (database : Bytes) (m : List Migration) (hattempted : c₀.report.writeAttempted = false) :
    Triple (Reads c₀) (applyBody serverOps database m) fun _ => Outcome c₀.world m := by
  have hkeep : ∀ {α : Type} {hashes : List Digest} {p : Step Server α}, Keeps Reads p →
      Triple (fun c => Reads c₀ c ∧ (c.result = .ok → hashes = m.map (migrationHash c₀.world.sha256))) p
        fun _ c => Reads c₀ c ∧ (c.result = .ok → hashes = m.map (migrationHash c₀.world.sha256)) :=
    fun hp c hc => ⟨.trans _ _ _ hc.1 (hp c), fun hok => hc.2 ((hp c).good hok)⟩
  refine .bind (checked_good fun c hc => hc) fun ok => ?_
  refine .bind (Q := fun hashes c => Reads c₀ c ∧
    (c.result = .ok → hashes = m.map (migrationHash c₀.world.sha256))) (.ite (fun _ => ?_) fun hbad => ?_)
    fun hashes => ?_
  · refine .bind (Q := fun _ => Reads c₀) (fun c hc => .trans _ _ _ hc.1 (reads_phase _ c)) fun _ => ?_
    exact hashAll_spec m
  · exact .pure fun c hc => ⟨hc.1, fun hok => absurd hok (hc.2 (Bool.eq_false_iff.mpr hbad))⟩
  refine .bind (hkeep reads_good) fun ok => ?_
  refine .bind (hkeep (.ite (reads_lockNameOf database) (reads_pure _))) fun lock => ?_
  refine .bind (hkeep reads_good) fun ok => ?_
  refine .bind (hkeep (reads_when reads_openConnection)) fun _ => ?_
  refine .bind (Q := fun ok c => Reads c₀ c ∧ (ok = false → c.result ≠ .ok) ∧
    (ok = true → hashes = m.map (migrationHash c₀.world.sha256))) (fun c hc => ?_) fun ok => ?_
  · exact ⟨hc.1, fun hb => of_decide_eq_false hb, fun hb => hc.2 (of_decide_eq_true hb)⟩
  refine .bind (Q := fun _ => Outcome c₀.world m) (.ite (fun hok => ?_) fun hbad => ?_) fun locked => ?_
  · refine .pre (P := fun c => hashes = m.map (migrationHash c₀.world.sha256) ∧ Reads c₀ c) ?_ fun c hc =>
      ⟨hc.2.2 hok, hc.1⟩
    exact .assume fun hhashes => lockedPart_spec hhashes database lock hattempted
  · exact .pure fun c hc => .before hattempted hc.1 (hc.2.1 (Bool.eq_false_iff.mpr hbad))
  · exact fun c hc => hc.reads (reads_cleanUp locked lock c)

theorem applyBody_failed (database : Bytes) (m : List Migration) (hfailed : c₀.result ≠ .ok) :
    Triple (Reads c₀) (applyBody serverOps database m) fun _ => Reads c₀ := by
  have hgood : Triple (Reads c₀) good fun ok c => ok = false ∧ Reads c₀ c :=
    fun c hc => ⟨decide_eq_false (hc.failed hfailed), hc⟩
  have hskip : ∀ {α : Type} {p : Step Server α} {a : α},
      Triple (Reads c₀) (if false then p else pure a) fun _ => Reads c₀ := fun c hc => hc
  refine .bind hgood fun ok => .assume fun hok => ?_
  subst hok
  refine .bind hskip fun hashes => .bind hgood fun ok => .assume fun hok => ?_
  subst hok
  refine .bind hskip fun lock => .bind hgood fun ok => .assume fun hok => ?_
  subst hok
  refine .bind hskip fun _ => .bind hgood fun ok => .assume fun hok => ?_
  subst hok
  exact .bind hskip fun locked => reads_triple (reads_cleanUp locked lock)

end Apply

/-- **The end of every run**: in one of the ways of `Outcome`, and with anything written only for a
    validated catalogue. -/
theorem apply_outcome (a : Arguments) (w : Server) :
    let c := applyWithOps serverOps a w
    (w.Same c.world ∧ c.report.writeAttempted = false ∧ c.result ≠ .ok) ∨
      (validate a.database a.migrations = .ok ∧ Outcome w (a.migrations.getD []) c) := by
  intro c
  let r := if ¬ a.thread ∨ ¬ a.report then Result.invalidArgument else validate a.database a.migrations
  let c₀ : Context Server := Context.fail r .none none { world := w }
  have hworld : c₀.world = w := fail_world _ _ _ _
  have hstart : Reads { world := w } c₀ := reads_fail r .none none _
  have hattempted : c₀.report.writeAttempted = false := hstart.attempted
  have hout : Outcome c₀.world (a.migrations.getD []) c :=
    applyBody_spec (a.database.getD []) (a.migrations.getD []) hattempted c₀ (.refl c₀)
  by_cases hr : r = .ok
  · refine .inr ⟨?_, hworld ▸ hout⟩
    by_cases hmissing : ¬ a.thread ∨ ¬ a.report
    · have : r = .invalidArgument := if_pos hmissing
      rw [hr] at this
      cases this
    · exact (if_neg hmissing).symm.trans hr
  · have hfailed : c₀.result ≠ .ok := fail_result hr .none none _
    have hc := applyBody_failed (a.database.getD []) (a.migrations.getD []) hfailed c₀ (.refl c₀)
    refine .inl ⟨?_, hc.attempted.trans hattempted, hc.failed hfailed⟩
    have hsame := hc.world
    rw [hworld] at hsame
    exact hsame

/-! ## 2. What the ways to end mean -/

section Meaning

variable {sha256 : Bytes → Digest} {catalogue : Nat → List Migration} {w : Server} {m : List Migration}
  {c : Context Server} {rows : List HistoryRow} {n : Nat}

/-- The row of an entry of a catalogue, applied. -/
def appliedRow (sha256 : Bytes → Digest) (entry : Migration) : HistoryRow :=
  ⟨entry.version, (migrationHash sha256 entry).val, 1⟩

/-- The versions of a catalogue are `1, 2, …`. -/
def Versions (m : List Migration) : Prop :=
  ∀ (i : Nat) (entry : Migration), m[i]? = some entry → entry.version.toNat = i + 1

theorem appliedRows_map (sha256 : Bytes → Digest) (m : List Migration) : ∀ n : Nat,
    (∀ (i : Nat) (entry : Migration), m[i]? = some entry → entry.version.toNat = n + i + 1) →
    appliedRows n (m.map (migrationHash sha256)) = m.map (appliedRow sha256) := by
  induction m with
  | nil => intro n _; rfl
  | cons entry rest ih =>
    intro n h
    have hversion : UInt32.ofNat (n + 1) = entry.version := by
      rw [← UInt32.ofNat_toNat (x := entry.version), h 0 entry rfl]
    have hrest := ih (n + 1) fun i e he => by
      have := h (i + 1) e he
      omega
    rw [map_cons, map_cons, appliedRows, hrest, hversion]
    rfl

theorem Passes.perm {history : History} (h : Passes sha256 m history n) (hm : Versions m) :
    ∃ rows, history = some rows ∧ rows.Perm ((m.take n).map (appliedRow sha256)) := by
  obtain ⟨rows, hrows, hsort⟩ := h.rows
  have hsorted : (sortRows rows).Perm rows := mergeSort_perm rows _
  refine ⟨rows, hrows, hsorted.symm.trans ?_⟩
  have hmap : appliedRows 0 ((m.take n).map (migrationHash sha256)) = _ :=
    appliedRows_map sha256 (m.take n) 0 fun i entry hi => by
      rw [Nat.zero_add]
      rw [List.getElem?_take] at hi
      split at hi
      · exact hm i entry hi
      · cases hi
  rw [← map_take, hmap] at hsort
  exact List.Perm.of_eq hsort

theorem Recorded.shorten {log log' : List Write} (h : Recorded sha256 catalogue log) (hp : log' <+: log) :
    Recorded sha256 catalogue log' := fun l hl => h l (hl.trans hp)

theorem Recorded.empty {log : List Write} (h : Recorded sha256 catalogue log)
    (hnone : tableAfter none log = none) : log = [] := by
  obtain ⟨ch, hsound, rfl⟩ := h log (prefix_refl _)
  rw [Chronicle.tableAfter_log hsound] at hnone
  have hcreator : ch.creator = none := Option.map_eq_none_iff.mp hnone
  obtain ⟨hdone, hcurrent⟩ := hsound.creator hcreator
  unfold Chronicle.log
  rw [hcreator, hdone, hcurrent]
  rfl

/-- A history that passes is that of a chronicle without a block under way. -/
theorem Chronicle.of_passes {ch : Chronicle} (hpass : Passes sha256 m (ch.history sha256) n) (hm : Versions m) :
    ch.creator ≠ none ∧ ch.current = none ∧ ch.done.length = n := by
  obtain ⟨rows, hrows, hperm⟩ := hpass.perm hm
  obtain ⟨run, hrun, hlist⟩ := Option.map_eq_some_iff.mp hrows
  have hcurrent : ch.current = none := by
    cases hc : ch.current with
    | none => rfl
    | some b =>
      have hmem : b.1.row sha256 0 ∈ rows := by
        rw [← hlist, hc]
        exact mem_append_right _ (mem_singleton_self _)
      obtain ⟨entry, -, he⟩ := mem_map.mp (hperm.mem_iff.mp hmem)
      exact absurd (congrArg HistoryRow.state he) (by decide : (1 : UInt8) ≠ 0)
  refine ⟨fun hn => (nomatch hn.symm.trans hrun), hcurrent, ?_⟩
  have hlen := hperm.length_eq
  rw [← hlist, hcurrent, length_append, length_map, length_map, length_map, length_take] at hlen
  have hle := hpass.le
  rw [Nat.min_eq_left hle] at hlen
  exact hlen

theorem Outcome.recorded (h : Outcome w m c) (hrec : Recorded w.sha256 catalogue w.log)
    (hinitial : w.initial = none) (hcatalogue : catalogue w.run = m) (hm : Versions m) : Recorded w.sha256 catalogue c.world.log := by
  have hempty : w.history = none → w.log = [] := by
    intro hn
    unfold Server.history at hn
    rw [hinitial] at hn
    exact hrec.empty hn
  cases h with
  | refused same _ _ =>
    rw [same.log]
    exact hrec
  | created absent ended _ =>
    obtain ⟨xs, hxs, hw⟩ := ended
    rw [hw.log, hempty absent]
    exact (Recorded.create w.run).shorten hxs
  | applied start n table passes ended =>
    obtain ⟨xs, hxs, hw, -⟩ := ended
    have hstart : Recorded w.sha256 catalogue (w.log ++ start) := by
      rcases table with ⟨rfl, -⟩ | ⟨rfl, hn⟩
      · rw [List.append_nil]
        exact hrec
      · rw [hempty hn]
        exact Recorded.create w.run
    obtain ⟨ch, hsound, hlog⟩ := hstart _ (prefix_refl _)
    rw [hinitial, ← hlog, Chronicle.tableAfter_log hsound] at passes
    obtain ⟨hcreated, hcurrent, hlen⟩ := Chronicle.of_passes passes hm
    obtain ⟨creator, done, current⟩ := ch
    dsimp only at hcreated hcurrent hlen
    subst hcurrent
    have hnext : Next catalogue done.length (blocksFrom w.run m n) := by
      intro k b hb
      unfold blocksFrom at hb
      rw [List.getElem?_map, List.getElem?_drop] at hb
      obtain ⟨entry, hentry, rfl⟩ := Option.map_eq_some_iff.mp hb
      rw [hlen]
      refine ⟨hm _ entry hentry, ?_⟩
      dsimp only
      rw [hcatalogue]
      exact hentry
    have hall := hstart.blocks hsound hlog hcreated hnext (prefix_refl _)
    rw [append_assoc] at hall
    rw [hw.log]
    exact hall.shorten ((prefix_append_right_inj w.log).mpr hxs)

/-- **A run that returns OK** leaves its whole catalogue applied, and nothing else. -/
theorem Outcome.complete (h : Outcome w m c) (hm : Versions m) (hok : c.result = .ok) :
    ∃ rows, c.world.history = some rows ∧ rows.Perm (m.map (appliedRow w.sha256)) := by
  cases h with
  | refused _ _ failed => exact absurd hok failed
  | created _ _ failed => exact absurd hok failed
  | applied start n table passes ended =>
    obtain ⟨xs, -, hw, hall⟩ := ended
    rw [hall hok] at hw
    obtain ⟨rows, hrows, hperm⟩ := passes.perm hm
    have hstate : ∀ r ∈ rows, r.state = 1 := by
      intro r hr
      obtain ⟨entry, -, rfl⟩ := mem_map.mp (hperm.mem_iff.mp hr)
      rfl
    refine ⟨rows ++ (blocksFrom w.run m n).map (Block.row w.sha256 · 1), ?_, ?_⟩
    · unfold Server.history
      rw [hw.initial, hw.log, ← append_assoc, tableAfter_append, hrows]
      exact tableAfter_done _ hstate
    · have hrest : (blocksFrom w.run m n).map (Block.row w.sha256 · 1) = (m.drop n).map (appliedRow w.sha256) := by
        unfold blocksFrom
        rw [map_map]
        rfl
      rw [hrest]
      refine (hperm.append_right _).trans (List.Perm.of_eq ?_)
      rw [← map_append, take_append_drop]

/-- A history that does not fit a catalogue: a dirty row, another checksum, a gap, a row beyond the catalogue.
    -/
def Unusable (sha256 : Bytes → Digest) (m : List Migration) (rows : List HistoryRow) : Prop :=
  (∃ r ∈ rows, r.state ≠ 1) ∨
  (∃ r ∈ rows, ∃ entry ∈ m, r.version = entry.version ∧ r.checksum ≠ (migrationHash sha256 entry).val) ∨
  (∃ r ∈ rows, ∃ v, 0 < v ∧ v < r.version.toNat ∧ ∀ r' ∈ rows, r'.version.toNat ≠ v) ∨
  ∃ r ∈ rows, m.length < r.version.toNat

theorem not_unusable (hm : Versions m) (hperm : rows.Perm ((m.take n).map (appliedRow sha256))) :
    ¬ Unusable sha256 m rows := by
  have hentry : ∀ r ∈ rows, ∃ i entry, i < n ∧ m[i]? = some entry ∧ appliedRow sha256 entry = r := by
    intro r hr
    obtain ⟨entry, he, rfl⟩ := mem_map.mp (hperm.mem_iff.mp hr)
    obtain ⟨i, hi⟩ := mem_iff_getElem?.mp he
    rw [List.getElem?_take] at hi
    split at hi
    · exact ⟨i, entry, ‹_›, hi, rfl⟩
    · cases hi
  rintro (⟨r, hr, hdirty⟩ | ⟨r, hr, entry, he, hversion, hchecksum⟩ | ⟨r, hr, v, hpos, hlt, hgap⟩ |
    ⟨r, hr, hahead⟩)
  · obtain ⟨i, e, -, -, rfl⟩ := hentry r hr
    exact hdirty rfl
  · obtain ⟨i, e, -, hi, rfl⟩ := hentry r hr
    obtain ⟨j, hj⟩ := mem_iff_getElem?.mp he
    have hsame : e.version.toNat = entry.version.toNat := congrArg UInt32.toNat hversion
    rw [hm i e hi, hm j entry hj] at hsame
    rw [Nat.succ.inj hsame, hj] at hi
    cases hi
    exact hchecksum rfl
  · obtain ⟨i, e, hin, hi, rfl⟩ := hentry r hr
    have hversion : e.version.toNat = i + 1 := hm i e hi
    have hv : v < e.version.toNat := hlt
    have hlen : v - 1 < m.length := by
      have := (List.getElem?_eq_some_iff.mp hi).1
      omega
    have hmem : appliedRow sha256 m[v - 1] ∈ rows := by
      refine hperm.mem_iff.mpr (mem_map_of_mem (mem_iff_getElem?.mpr ⟨v - 1, ?_⟩))
      rw [List.getElem?_take, if_pos (by omega), List.getElem?_eq_getElem hlen]
    refine hgap _ hmem ?_
    have : (m[v - 1]).version.toNat = v - 1 + 1 := hm (v - 1) _ (List.getElem?_eq_getElem hlen)
    show (m[v - 1]).version.toNat = v
    omega
  · obtain ⟨i, e, -, hi, rfl⟩ := hentry r hr
    have hlen := (List.getElem?_eq_some_iff.mp hi).1
    have hversion : e.version.toNat = i + 1 := hm i e hi
    have : m.length < e.version.toNat := hahead
    omega

/-- **A run that meets such a history** writes nothing, attempts nothing and fails. -/
theorem Outcome.unusable (h : Outcome w m c) (hm : Versions m) (hrows : w.history = some rows)
    (hbad : Unusable w.sha256 m rows) :
    w.Same c.world ∧ c.report.writeAttempted = false ∧ c.result ≠ .ok := by
  cases h with
  | refused same attempted failed => exact ⟨same, attempted, failed⟩
  | created absent _ _ =>
    rw [hrows] at absent
    cases absent
  | applied start n table passes _ =>
    rcases table with ⟨rfl, -⟩ | ⟨-, hn⟩
    · rw [List.append_nil] at passes
      obtain ⟨rows', hrows', hperm⟩ := passes.perm hm
      have hsame : some rows = some rows' := hrows.symm.trans hrows'
      cases hsame
      exact absurd hbad (not_unusable hm hperm)
    · rw [hrows] at hn
      cases hn

end Meaning

/-! ## 3. Sequences of runs -/

/-- One call of the migrator: its arguments, and what decides its outcomes. -/
structure Attempt where
  arguments : Arguments
  environment : Environment

namespace Attempt

def catalogue (a : Attempt) : List Migration := a.arguments.migrations.getD []

/-- The end of the attempt, as run number `run` on the database that `log` made of `initial`. -/
def outcome (sha256 : Bytes → Digest) (a : Attempt) (run : Nat) (initial : History) (log : List Write) :
    Context Server :=
  applyWithOps serverOps a.arguments { sha256, environment := a.environment, run, initial, log }

end Attempt

/-- The log after attempts made one after the other, on a database without a history; the first has the
    number `run`. -/
def logOf (sha256 : Bytes → Digest) (run : Nat) (log : List Write) : List Attempt → List Write
  | [] => log
  | a :: rest => logOf sha256 (run + 1) (a.outcome sha256 run none log).world.log rest

/-- The catalogue of each run. -/
def catalogues (attempts : List Attempt) (run : Nat) : List Migration :=
  (attempts[run]?).elim [] Attempt.catalogue

section Runs

variable {sha256 : Bytes → Digest} {catalogue : Nat → List Migration}

theorem versions_of_validate {a : Arguments} (h : validate a.database a.migrations = .ok) :
    Versions (a.migrations.getD []) := by
  obtain ⟨m, hm, hversions⟩ := validate_ok h
  rw [hm]
  intro i entry hi
  obtain ⟨_, _, hpass⟩ := hversions i entry hi
  exact (validateMigration_ok hpass).1

theorem Attempt.recorded (a : Attempt) (run : Nat) {log : List Write} (h : Recorded sha256 catalogue log)
    (hcatalogue : catalogue run = a.catalogue) :
    Recorded sha256 catalogue (a.outcome sha256 run none log).world.log := by
  rcases apply_outcome a.arguments { sha256, environment := a.environment, run, initial := none, log } with
    ⟨hsame, -, -⟩ | ⟨hvalid, hout⟩
  · have hlog : (a.outcome sha256 run none log).world.log = log := hsame.log
    rw [hlog]
    exact h
  · exact hout.recorded h rfl hcatalogue (versions_of_validate hvalid)

theorem recorded_logOf (attempts : List Attempt) :
    ∀ (run : Nat) (log : List Write), Recorded sha256 catalogue log →
    (∀ (i : Nat) (a : Attempt), attempts[i]? = some a → catalogue (run + i) = a.catalogue) →
    Recorded sha256 catalogue (logOf sha256 run log attempts) := by
  induction attempts with
  | nil => exact fun run log h _ => h
  | cons a rest ih =>
    intro run log h hcatalogue
    refine ih (run + 1) _ (a.recorded run h (hcatalogue 0 a rfl)) fun i b hb => ?_
    have := hcatalogue (i + 1) b hb
    rw [Nat.add_assoc, Nat.add_comm 1 i]
    exact this

theorem triple_last {α β : Type} {p : Step Server α} {f : α → Step Server β} {Q : β → Context Server → Prop}
    (hf : ∀ a, Triple (fun _ => True) (f a) Q) : Triple (fun _ => True) (p >>= f) Q :=
  Triple.bind (Q := fun _ _ => True) (fun _ _ => trivial) hf

theorem cleanUp_ready (locked : Bool) (lock : Bytes) :
    Triple (fun _ => True) (cleanUp serverOps locked lock) fun _ c =>
      c.report.ready = decide (c.result = .ok) := by
  refine triple_last fun _ => triple_last fun _ => triple_last fun _ => triple_last fun _ => ?_
  exact .modify fun _ _ => rfl

theorem Attempt.ready (a : Attempt) (run : Nat) (initial : History) (log : List Write) :
    let c := a.outcome sha256 run initial log
    c.report.ready = true ↔ c.result = .ok := by
  have hbody : ∀ (database : Bytes) (m : List Migration), Triple (fun _ => True) (applyBody serverOps database m)
      fun _ c => c.report.ready = decide (c.result = .ok) := by
    intro database m
    refine triple_last fun _ => triple_last fun _ => triple_last fun _ => triple_last fun _ => ?_
    refine triple_last fun _ => triple_last fun _ => triple_last fun _ => triple_last fun _ => ?_
    exact cleanUp_ready _ _
  intro c
  have hready : c.report.ready = decide (c.result = .ok) := hbody _ _ _ trivial
  rw [hready]
  exact decide_eq_true_iff

end Runs

/-- **No migration is applied twice or out of order.** For any sequence of runs, with any catalogues, answers
    and faults, what was carried out is a sound chronicle and the history table shows it; a run that meets a
    history it cannot continue writes nothing. -/
theorem migration_safe (sha256 : Bytes → Digest) :
    (∀ (attempts : List Attempt) (log : List Write), log <+: logOf sha256 0 [] attempts →
      ∃ ch : Chronicle, ch.Sound sha256 (catalogues attempts) ∧ ch.log sha256 = log ∧
        tableAfter none log = ch.history sha256) ∧
    ∀ (a : Attempt) (run : Nat) (initial : History) (log : List Write),
      let c := a.outcome sha256 run initial log
      (∀ rows, tableAfter initial log = some rows → Unusable sha256 a.catalogue rows →
        c.world.log = log ∧ c.world.history = some rows ∧ c.report.writeAttempted = false ∧ c.result ≠ .ok) ∧
      (c.report.ready = true ↔ c.result = .ok) ∧
      (c.result = .ok →
        ∃ rows, c.world.history = some rows ∧ rows.Perm (a.catalogue.map (appliedRow sha256))) := by
  refine ⟨fun attempts log hlog => ?_, fun a run initial log => ?_⟩
  · have hstart : Recorded sha256 (catalogues attempts) [] :=
      (Recorded.create 0).shorten nil_prefix
    have hrec := recorded_logOf attempts 0 [] hstart fun i a ha => by
      unfold catalogues
      rw [Nat.zero_add, ha]
      rfl
    obtain ⟨ch, hsound, hch⟩ := hrec log hlog
    refine ⟨ch, hsound, hch, ?_⟩
    rw [← hch]
    exact Chronicle.tableAfter_log hsound
  · let w : Server := { sha256, environment := a.environment, run, initial, log }
    have hout := apply_outcome a.arguments w
    refine ⟨fun rows hrows hbad => ?_, a.ready run initial log, fun hok => ?_⟩
    · have hnone : w.Same (a.outcome sha256 run initial log).world ∧
          (a.outcome sha256 run initial log).report.writeAttempted = false ∧
          (a.outcome sha256 run initial log).result ≠ .ok := by
        rcases hout with h | ⟨hvalid, hout⟩
        · exact h
        · exact hout.unusable (versions_of_validate hvalid) hrows hbad
      obtain ⟨hsame, hattempted, hfailed⟩ := hnone
      exact ⟨hsame.log, hsame.history.trans hrows, hattempted, hfailed⟩
    · rcases hout with ⟨-, -, hfailed⟩ | ⟨hvalid, hout⟩
      · exact absurd hok hfailed
      · exact hout.complete (versions_of_validate hvalid) hok

/-- A server without faults, whose metadata are as the migrator expects them. -/
def Environment.healthy (database : Bytes) : Environment where
  faults _ := none
  info sql _ :=
    match sql with
    | .currentDatabase => ⟨0, 1⟩
    | .getLock | .releaseLock | .otherTables | .constraints | .triggers | .partitions => ⟨1, 1⟩
    | .table => ⟨1, 3⟩
    | .columns | .statistics => ⟨1, 6⟩
    | .selectHistory => ⟨0, 3⟩
    | .insertDirty | .markApplied => ⟨2, 0⟩
    | .createHistory | .ddl _ => ⟨0, 0⟩
  answers sql _ :=
    match sql with
    | .currentDatabase => [[some database]]
    | .getLock | .releaseLock => [[u32Cell 1]]
    | .columns => historyColumns.map fun column =>
        [some column.1, some column.2.1, some (ascii "NO"), none, some [], some []]
    | .statistics => [[some (ascii "PRIMARY"), u32Cell 0, u32Cell 1, some (ascii "version"), none,
        some (ascii "BTREE")]]
    | .otherTables | .constraints | .triggers | .partitions => [[u32Cell 0]]
    | _ => []
  identity _ := [some (ascii "BASE TABLE"), some (ascii "InnoDB"), some (ascii "vireo_schema_migrations")]
  ddl _ := {}

/-- A first run over a catalogue of one version with two steps, on such a server. -/
def firstAttempt : Attempt :=
  ⟨⟨true, true, some (ascii "vireo"),
    some [⟨1, [⟨ascii "CREATE TABLE a (id INT)"⟩, ⟨ascii "CREATE INDEX b ON a (id)"⟩]⟩]⟩,
    .healthy (ascii "vireo")⟩

/-- The first run returns OK, so its version is applied and its log is a chronicle. -/
theorem migration_safe_first :
    let sha256 : Bytes → Digest := fun b => ⟨List.replicate 32 (UInt8.ofNat b.length), length_replicate⟩
    (∃ rows, (firstAttempt.outcome sha256 0 none []).world.history = some rows ∧
      rows.Perm (firstAttempt.catalogue.map (appliedRow sha256))) ∧
    ∃ ch : Chronicle, ch.Sound sha256 (catalogues [firstAttempt]) ∧
      ch.log sha256 = logOf sha256 0 [] [firstAttempt] := by
  intro sha256
  have hok : (firstAttempt.outcome sha256 0 none []).result = .ok := by decide +kernel
  obtain ⟨ch, hsound, hlog, -⟩ := (migration_safe sha256).1 [firstAttempt] _ (prefix_refl _)
  exact ⟨((migration_safe sha256).2 firstAttempt 0 none []).2.2 hok, ch, hsound, hlog⟩

end Vireo.Persistence.Migrator
