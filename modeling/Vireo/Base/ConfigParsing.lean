/-
  File:      Vireo/Base/ConfigParsing.lean
  Subject:   CALLS THAT MAKE A CONFIGURATION: when they succeed, and what they leave.
-/
import Vireo.Lib.Checks
import Vireo.Base.ConfigText

namespace Vireo.Base

open Lib Protocol
open List (Forall₂)

/-! ## 1. Failures -/

theorem checkedU64Mul_fails (a b : UInt64) : RefusesWith (· ≠ .ok) (checkedU64Mul a b) :=
  fun _ h => (checkedU64Mul_error h).1 ▸ Result.overflow_ne_ok

theorem checkedU64Add_fails (a b : UInt64) : RefusesWith (· ≠ .ok) (checkedU64Add a b) :=
  fun _ h => (checkedU64Add_error h).1 ▸ Result.overflow_ne_ok

theorem parseU64Decimal_fails (text : Bytes) : RefusesWith (· ≠ .ok) (parseU64Decimal text) := by
  have hloop : ∀ (text : Bytes) value, RefusesWith (· ≠ .ok) (text.foldlM parseDigit value) := by
    intro text
    induction text with
    | nil => exact fun value => .ok value
    | cons b text ih =>
      intro value
      rw [List.foldlM_cons]
      refine .bind ?_ ih
      unfold parseDigit
      split
      · exact .error (by simp)
      · exact .bind (checkedU64Mul_fails _ _) fun m => checkedU64Add_fails _ _
  unfold parseU64Decimal
  split
  · exact .error (by simp)
  · exact hloop text 0

theorem parseScaled_fails (units : List (String × UInt64)) (text : Bytes) :
    RefusesWith (· ≠ .ok) (parseScaled units text) := by
  unfold parseScaled
  simp only
  split
  · exact .error (by simp)
  split
  · exact .error (by simp)
  · exact .bind (parseU64Decimal_fails _) fun v => checkedU64Mul_fails _ _

variable {issue : ConfigIssue}

theorem assignNumber_fails {minimum maximum : UInt64} {result : Except Result UInt64}
    {store : UInt64 → Config} (h : RefusesWith (· ≠ .ok) result) :
    RefusesWith (·.1 ≠ .ok) (assignNumber minimum maximum issue result store) := by
  unfold assignNumber
  split
  · exact .error (h _ rfl)
  split
  · exact .error (by simp)
  · exact .ok _

theorem assignString_fails {n : Nat} {valid : Bool} {text : Bytes} {destination : Cells UInt8 n}
    {store : Cells UInt8 n → Config} :
    RefusesWith (·.1 ≠ .ok) (assignString valid issue text destination store) := by
  unfold assignString copySpan
  split
  · exact .error (by simp)
  split
  · rename_i e hcopy
    split at hcopy
    · cases hcopy
      exact .error (by simp)
    · cases hcopy
  · exact .ok _

theorem assignField_fails (c : Config) (field : ConfigField) (text : Bytes) :
    RefusesWith (·.1 ≠ .ok) (assignField c field text) := by
  unfold assignField
  split
  · exact .error (by simp)
  split
  · exact .error (by simp)
  split
  · exact .error (by simp)
  cases field with
  | none => exact .error (by simp)
  | listenAddress => exact assignString_fails
  | dataDir => exact assignString_fails
  | logDir => exact assignString_fails
  | listenPort => exact assignNumber_fails (parseU64Decimal_fails text)
  | maxConnections => exact assignNumber_fails (parseU64Decimal_fails text)
  | workerCount => exact assignNumber_fails (parseU64Decimal_fails text)
  | idleTimeout => exact assignNumber_fails (parseScaled_fails _ text)
  | logMaxFileSize => exact assignNumber_fails (parseScaled_fails _ text)
  | logToStderr =>
    simp only
    split
    · rename_i e hparse
      unfold parseBoolean at hparse
      split at hparse
      · cases hparse
      split at hparse
      · cases hparse
      · cases hparse
        exact .error (by simp)
    · exact .ok _

theorem applyEntry_fails (duplicate : ConfigIssue) (s : Candidate) (field : ConfigField) (value : Bytes) :
    RefusesWith (·.1 ≠ .ok) (applyEntry duplicate s field value) := by
  unfold applyEntry
  split
  · exact .error (by simp)
  split
  · rename_i e hassign
    exact .error (assignField_fails _ _ _ e hassign)
  · exact .ok _

theorem lineEntry_fails (text : Bytes) : RefusesWith (·.1 ≠ .ok) (lineEntry text) := by
  unfold lineEntry
  simp only
  repeat' split
  all_goals first | exact .ok _ | exact .error (by simp)

theorem parseLine_fails (s : Candidate) (text : Bytes) (line : Nat) :
    RefusesWith (·.1 ≠ .ok) (parseLine s text line) := by
  unfold parseLine
  split
  · rename_i e hentry
    exact .error (lineEntry_fails _ e hentry)
  · exact .ok _
  split
  · rename_i e happly
    exact .error (applyEntry_fails _ _ _ _ e happly)
  · exact .ok _

theorem parseLines_fails (k : Nat) (text : Bytes) (line : Nat) (s : Candidate) :
    RefusesWith (·.1 ≠ .ok) (parseLines k text line s) := by
  induction k generalizing text line s with
  | zero => exact .ok s
  | succ k ih =>
    rw [parseLines]
    split
    · exact .ok s
    simp only
    split
    · rename_i e hparse
      exact .error (parseLine_fails _ _ _ e hparse)
    · exact ih _ _ _

theorem applyEntries_fails (entries : List EnvironmentEntry) (n : Nat) (s : Candidate) :
    RefusesWith (·.1 ≠ .ok) (applyEntries entries n s) := by
  induction entries generalizing n s with
  | nil => exact .ok s
  | cons entry entries ih =>
    rw [applyEntries]
    split
    · rename_i e hentry
      refine .error ?_
      unfold applyEnvironmentEntry at hentry
      split at hentry
      · simp only at hentry
        split at hentry
        · cases hentry
          simp
        split at hentry
        · rename_i e happly
          cases hentry
          exact applyEntry_fails _ _ _ _ e happly
        · cases hentry
      · cases hentry
        simp
    · exact ih _ _

theorem validate_fails (c : Config) : RefusesWith (·.1 ≠ .ok) (validate c) := by
  have hstring : ∀ text valid issue field, RefusesWith (·.1 ≠ .ok) (validateString text valid issue field) := by
    intro text valid issue field
    unfold validateString
    split
    · exact .error (by simp)
    split
    · exact .error (by simp)
    · exact .ok ()
  have hnumber : ∀ inRange field, RefusesWith (·.1 ≠ .ok) (validateNumber inRange field) := by
    intro inRange field
    unfold validateNumber
    split
    · exact .error (by simp)
    · exact .ok ()
  unfold validate
  refine .bind (hstring _ _ _ _) fun _ => .bind (hnumber _ _) fun _ => .bind (hnumber _ _) fun _ => .bind (hnumber _ _) fun _ =>
    .bind (hnumber _ _) fun _ => .bind (hnumber _ _) fun _ => .bind (hstring _ _ _ _) fun _ => hstring _ _ _ _

theorem parseCandidate_fails (base : Config) (text : Bytes) :
    RefusesWith (·.1 ≠ .ok) (parseCandidate base text) := by
  unfold parseCandidate
  refine .bind (validate_fails base) fun _ => ?_
  split
  · exact .error (by simp)
  · exact .bind (parseLines_fails _ _ _ _) fun s => .bind (validate_fails _) fun _ => .ok _

theorem environmentCandidate_fails (base : Config) (environment : List EnvironmentEntry) :
    RefusesWith (·.1 ≠ .ok) (environmentCandidate base environment) := by
  unfold environmentCandidate
  refine .bind (validate_fails base) fun _ => ?_
  split
  · exact .error (by simp)
  · exact .bind (applyEntries_fails _ _ _) fun s => .bind (validate_fails _) fun _ => .ok _

theorem loadCandidate_fails (filePath : Option Bytes) (file : ConfigFile) (environment : List EnvironmentEntry) :
    RefusesWith (·.1 ≠ .ok) (loadCandidate filePath file environment) := by
  have hfile : RefusesWith (·.1 ≠ .ok) (loadFile defaults file) := by
    unfold loadFile
    split
    · refine .error ?_
      simp only
      split <;> simp
    simp only
    split
    · rename_i e hparsed
      split at hparsed
      · cases hparsed
        exact .error (by simp)
      split at hparsed
      · cases hparsed
        exact .error (by simp)
      · exact .error (parseCandidate_fails _ _ e hparsed)
    · exact .error (by simp)
    · exact .ok _
  unfold loadCandidate
  split
  · exact .error (by simp)
  refine .bind ?_ fun c => .bind (environmentCandidate_fails _ _) fun next => .bind (validate_fails _) fun _ => .ok _
  unfold fileCandidate
  split
  · exact hfile
  · exact .ok _

/-! ## 2. Calls -/

variable {x : Except (Result × ConfigError) Config}

theorem ConfigAnswer.of_ok {out : Config} (h : RefusesWith (·.1 ≠ .ok) x) :
    (ConfigAnswer.of out x).result = .ok ↔ ∃ c, x = .ok c ∧ (ConfigAnswer.of out x).outConfig = c := by
  cases x with
  | ok c => simp [ConfigAnswer.of]
  | error e => simp [ConfigAnswer.of, h e rfl]

theorem ConfigAnswer.of_failed {out : Config}
    (h : (ConfigAnswer.of out x).result ≠ .ok) : (ConfigAnswer.of out x).outConfig = out := by
  cases x with
  | ok c => exact absurd rfl h
  | error e => rfl

variable {c : Config}

theorem validated {s : Config}
    (h : (validate s >>= fun _ => (.ok s : Except (Result × ConfigError) Config)) = .ok c) :
    validate s = .ok () ∧ c = s := by
  obtain ⟨hs, hc⟩ := check_ok.mp h
  cases hc
  exact ⟨hs, rfl⟩

theorem parseCandidate_validated {base : Config} {text : Bytes} (h : parseCandidate base text = .ok c) :
    validate c = .ok () := by
  obtain ⟨-, h⟩ := check_ok.mp h
  split at h
  · cases h
  cases hparse : parseLines text.length text 1 (base, 0) with
  | error e =>
    rw [hparse] at h
    cases h
  | ok s =>
    rw [hparse] at h
    obtain ⟨hs, rfl⟩ := validated h
    exact hs

variable {environment : List EnvironmentEntry}

theorem environmentCandidate_validated {base : Config}
    (h : environmentCandidate base environment = .ok c) : validate c = .ok () := by
  obtain ⟨-, h⟩ := check_ok.mp h
  split at h
  · cases h
  cases happly : applyEntries environment 1 (base, 0) with
  | error e =>
    rw [happly] at h
    cases h
  | ok s =>
    rw [happly] at h
    obtain ⟨hs, rfl⟩ := validated h
    exact hs

theorem loadCandidate_validated {filePath : Option Bytes} {file : ConfigFile} (h : loadCandidate filePath file environment = .ok c) : validate c = .ok () := by
  unfold loadCandidate at h
  split at h
  · cases h
  cases hfile : fileCandidate filePath file with
  | error e =>
    rw [hfile] at h
    cases h
  | ok candidate =>
    rw [hfile] at h
    have h : (environmentCandidate candidate environment >>= fun next =>
      validate next >>= fun _ => .ok next) = .ok c := h
    cases henvironment : environmentCandidate candidate environment with
    | error e =>
      rw [henvironment] at h
      cases h
    | ok next =>
      rw [henvironment] at h
      obtain ⟨hs, rfl⟩ := validated h
      exact hs

section

variable {base c : Config} (hbase : validate base = .ok ())

include hbase

/-- **A text** is accepted when its lines are, and what comes out is the run of their assignments. -/
theorem parseCandidate_ok {text : Bytes} {ls : List Bytes} (hlength : text.length ≤ maxTextSize)
    (hlines : Lines text ls) :
    parseCandidate base text = .ok c ↔
      ∃ es s, Forall₂ LineMeans ls es ∧ Entries (base, 0) es.reduceOption s ∧ c = s.1 := by
  have hparsed : ∀ s, parseLines text.length text 1 (base, 0) = .ok s ↔
      ∃ es, Forall₂ LineMeans ls es ∧ Entries (base, 0) es.reduceOption s := fun s =>
    parseLines_ok hlines (Nat.le_refl _)
  unfold parseCandidate
  rw [check_ok, if_neg (Nat.not_lt.mpr hlength)]
  constructor
  · intro ⟨_, h⟩
    cases hparse : parseLines text.length text 1 (base, 0) with
    | error e =>
      rw [hparse] at h
      cases h
    | ok s =>
      rw [hparse] at h
      obtain ⟨-, rfl⟩ := validated h
      obtain ⟨es, hall, hes⟩ := (hparsed s).mp hparse
      exact ⟨es, s, hall, hes, rfl⟩
  · rintro ⟨es, s, hall, hes, rfl⟩
    have hvalid := validate_iff.mpr (hes.replaced.2 (validate_iff.mp hbase))
    rw [(hparsed s).mpr ⟨es, hall, hes⟩]
    exact ⟨hbase, check_ok.mpr ⟨hvalid, rfl⟩⟩

/-- **An environment** is accepted when its entries are, and there are not too many of them. -/
theorem environmentCandidate_ok {environment : List EnvironmentEntry} :
    environmentCandidate base environment = .ok c ↔ environment.length ≤ maxEnvironmentItems ∧
        ∃ es s, Forall₂ Names environment es ∧ Entries (base, 0) es s ∧ c = s.1 := by
  unfold environmentCandidate
  rw [check_ok]
  constructor
  · intro ⟨_, h⟩
    split at h
    · cases h
    rename_i hlength
    cases happly : applyEntries environment 1 (base, 0) with
    | error e =>
      rw [happly] at h
      cases h
    | ok s =>
      rw [happly] at h
      obtain ⟨-, rfl⟩ := validated h
      obtain ⟨es, hall, hes⟩ := applyEntries_ok.mp happly
      exact ⟨Nat.not_lt.mp hlength, es, s, hall, hes, rfl⟩
  · rintro ⟨hlength, es, s, hall, hes, rfl⟩
    have hvalid := validate_iff.mpr (hes.replaced.2 (validate_iff.mp hbase))
    rw [if_neg (Nat.not_lt.mpr hlength), applyEntries_ok.mpr ⟨es, hall, hes⟩]
    exact ⟨hbase, check_ok.mpr ⟨hvalid, rfl⟩⟩

end

theorem LineMeans.unique {l : Bytes} {e e' : Option (ConfigField × Bytes)} (h : LineMeans l e)
    (h' : LineMeans l e') : e = e' := by
  rw [← lineEntry_iff] at h h'
  rw [h] at h'
  exact Except.ok.inj h'

theorem lineMeans_unique {ls : List Bytes} {es es' : List (Option (ConfigField × Bytes))}
    (h : Forall₂ LineMeans ls es) (h' : Forall₂ LineMeans ls es') : es = es' := by
  induction h generalizing es' with
  | nil =>
    cases h'
    rfl
  | cons hmeans _ ih =>
    cases h' with
    | cons hmeans' hall' => rw [hmeans.unique hmeans', ih hall']

theorem names_unique {es es' : List (ConfigField × Bytes)}
    (h : Forall₂ Names environment es) (h' : Forall₂ Names environment es') : es = es' := by
  induction h generalizing es' with
  | nil =>
    cases h'
    rfl
  | cons hnames _ ih =>
    cases h' with
    | cons hnames' hall' =>
      obtain ⟨k, n, value, hentry, named, hvalue⟩ := hnames
      obtain ⟨k', n', value', hentry', named', hvalue'⟩ := hnames'
      have hfield := fieldFromEnvironmentName_iff.mpr ⟨k, n, named, rfl⟩
      have hfield' := fieldFromEnvironmentName_iff.mpr ⟨k', n', named', rfl⟩
      obtain ⟨hname, hsame⟩ := EnvironmentEntry.mk.inj (hentry.symm.trans hentry')
      rw [Option.some.inj hname] at hfield
      rw [Option.some.inj hsame] at hvalue
      rw [ih hall', Prod.ext (hfield.1.symm.trans hfield'.1) (hvalue.symm.trans hvalue')]

/-! ## 3. Configurations from text and from the environment -/

/-- What a text makes of a configuration, and an environment, and a file. -/
structure ExactParsing (base out : Config) : Prop where
  /-- Every text has lines, and is accepted when each is blank, a comment, or a proper assignment to a field
      not assigned before. -/
  accepted : ∀ text, (∃ ls, Lines text ls) ∧ ∀ ls, Lines text ls → text.length ≤ maxTextSize →
    ((parseText base text out).result = .ok ↔ ∃ es, Forall₂ LineMeans ls es ∧ Distinct es.reduceOption)
  /-- What comes out has these values, and the rest of the base. -/
  replaced : ∀ text ls es, text.length ≤ maxTextSize → Lines text ls → Forall₂ LineMeans ls es →
    (parseText base text out).result = .ok → Replaced base es.reduceOption (parseText base text out).outConfig
  /-- The order of the lines does not matter. -/
  ordered : ∀ text text' ls ls', text.length ≤ maxTextSize → text'.length ≤ maxTextSize → Lines text ls →
    Lines text' ls' → ls.Perm ls' → (parseText base text out).result = .ok →
    (parseText base text' out).result = .ok ∧
      ∀ g, (parseText base text' out).outConfig.get g = (parseText base text out).outConfig.get g
  /-- What is accepted is valid. -/
  valid : (∀ text, (parseText base text out).result = .ok → validate (parseText base text out).outConfig = .ok ()) ∧
    (∀ environment, (applyEnvironment base environment out).result = .ok →
      validate (applyEnvironment base environment out).outConfig = .ok ()) ∧
    ∀ filePath file environment, (load filePath file environment out).result = .ok →
      validate (load filePath file environment out).outConfig = .ok ()
  /-- The same values through the environment do the same. -/
  agreeing : ∀ text ls es environment, text.length ≤ maxTextSize → Lines text ls → Forall₂ LineMeans ls es →
    Forall₂ Names environment es.reduceOption →
    ((applyEnvironment base environment out).result = .ok ↔ (parseText base text out).result = .ok) ∧
      ((parseText base text out).result = .ok →
        ∀ g, (applyEnvironment base environment out).outConfig.get g = (parseText base text out).outConfig.get g)
  /-- A failure changes nothing. -/
  unchanged : (∀ text, (parseText base text out).result ≠ .ok → (parseText base text out).outConfig = out) ∧
    (∀ environment, (applyEnvironment base environment out).result ≠ .ok →
      (applyEnvironment base environment out).outConfig = out) ∧
    ∀ filePath file environment, (load filePath file environment out).result ≠ .ok →
      (load filePath file environment out).outConfig = out

section

variable {base out : Config} (hbase : validate base = .ok ()) {text : Bytes} {ls : List Bytes}

include hbase

section

variable (hlength : text.length ≤ maxTextSize)
include hlength

theorem parseText_ok (hlines : Lines text ls) : (parseText base text out).result = .ok ↔
      ∃ es s, Forall₂ LineMeans ls es ∧ Entries (base, 0) es.reduceOption s ∧
        (parseText base text out).outConfig = s.1 := by
  unfold parseText
  rw [ConfigAnswer.of_ok (parseCandidate_fails base text)]
  constructor
  · intro ⟨c, hparse, hout⟩
    obtain ⟨es, s, hall, hes, rfl⟩ := (parseCandidate_ok hbase hlength hlines).mp hparse
    exact ⟨es, s, hall, hes, hout⟩
  · intro ⟨es, s, hall, hes, hout⟩
    exact ⟨s.1, (parseCandidate_ok hbase hlength hlines).mpr ⟨es, s, hall, hes, rfl⟩, hout⟩

theorem parseText_distinct (hlines : Lines text ls) :
    (parseText base text out).result = .ok ↔ ∃ es, Forall₂ LineMeans ls es ∧ Distinct es.reduceOption := by
  have hruns : ∀ es : List (ConfigField × Bytes), (∃ s, Entries (base, 0) es s) ↔ Distinct es := fun es =>
    ⟨fun h => (entries_iff.mp h).1, fun h => entries_iff.mpr ⟨h, fun e _ => not_seen_zero e.1⟩⟩
  constructor
  · intro h
    obtain ⟨es, s, hall, hes, -⟩ := (parseText_ok hbase hlength hlines).mp h
    exact ⟨es, hall, (hruns _).mp ⟨s, hes⟩⟩
  · intro ⟨es, hall, hdistinct⟩
    obtain ⟨s, hes⟩ := (hruns _).mpr hdistinct
    have hparse := (parseCandidate_ok hbase hlength hlines).mpr ⟨es, s, hall, hes, rfl⟩
    rw [parseText, hparse]
    rfl

theorem parseText_replaced {es : List (Option (ConfigField × Bytes))}
    (hlines : Lines text ls) (hall : Forall₂ LineMeans ls es) (h : (parseText base text out).result = .ok) :
    Replaced base es.reduceOption (parseText base text out).outConfig := by
  obtain ⟨es', s, hall', hes, hout⟩ := (parseText_ok hbase hlength hlines).mp h
  rw [lineMeans_unique hall hall', hout]
  exact hes.replaced.1

end

theorem applyEnvironment_ok {environment : List EnvironmentEntry} {es : List (ConfigField × Bytes)}
    (hnames : Forall₂ Names environment es) :
    ((applyEnvironment base environment out).result = .ok ↔ Distinct es) ∧
      ((applyEnvironment base environment out).result = .ok →
        Replaced base es (applyEnvironment base environment out).outConfig) := by
  unfold applyEnvironment
  rw [ConfigAnswer.of_ok (environmentCandidate_fails base environment)]
  constructor
  · constructor
    · intro ⟨c, happly, _⟩
      obtain ⟨-, es', s, hall, hes, -⟩ := (environmentCandidate_ok hbase).mp happly
      rw [names_unique hnames hall]
      exact (entries_iff.mp ⟨s, hes⟩).1
    · intro hdistinct
      obtain ⟨s, hes⟩ := (@entries_iff (base, 0) es).mpr ⟨hdistinct, fun e _ => not_seen_zero e.1⟩
      have hlength := hdistinct.length_le
      rw [← hnames.length_eq] at hlength
      have happly := (environmentCandidate_ok hbase).mpr ⟨hlength, es, s, hnames, hes, rfl⟩
      exact ⟨s.1, happly, congrArg (fun x => (ConfigAnswer.of out x).outConfig) happly⟩
  · intro ⟨c, happly, hout⟩
    obtain ⟨-, es', s, hall, hes, rfl⟩ := (environmentCandidate_ok hbase).mp happly
    rw [hout, names_unique hnames hall]
    exact hes.replaced.1

end

/-- **Configuration parsing is exact, independent of the order, and atomic.** -/
theorem config_parsing_exact (base out : Config) (hbase : validate base = .ok ()) : ExactParsing base out where
  accepted text := ⟨exists_lines text, fun _ hlines hlength => parseText_distinct hbase hlength hlines⟩
  replaced text ls es hlength hlines hall h := parseText_replaced hbase hlength hlines hall h
  ordered text text' ls ls' hlength hlength' hlines hlines' perm h := by
    obtain ⟨es, hall, hdistinct⟩ := (parseText_distinct hbase hlength hlines).mp h
    obtain ⟨es', hall', hperm⟩ := List.perm_comp_forall₂ perm.symm hall
    have hentries : es.reduceOption.Perm es'.reduceOption := by
      exact (hperm.filterMap id).symm
    have h' : (parseText base text' out).result = .ok := (parseText_distinct hbase hlength' hlines').mpr ⟨es', hall', hdistinct.perm hentries⟩
    refine ⟨h', fun g => ?_⟩
    exact (parseText_replaced hbase hlength' hlines' hall' h').perm
      (parseText_replaced hbase hlength hlines hall h) hentries.symm g
  valid := by
    refine ⟨fun text h => ?_, fun environment h => ?_, fun filePath file environment h => ?_⟩
    · obtain ⟨c, hc, hout⟩ := (ConfigAnswer.of_ok (parseCandidate_fails base text)).mp h
      rw [parseText, hout]
      exact parseCandidate_validated hc
    · obtain ⟨c, hc, hout⟩ := (ConfigAnswer.of_ok (environmentCandidate_fails base environment)).mp h
      rw [applyEnvironment, hout]
      exact environmentCandidate_validated hc
    · obtain ⟨c, hc, hout⟩ := (ConfigAnswer.of_ok (loadCandidate_fails filePath file environment)).mp h
      rw [load, hout]
      exact loadCandidate_validated hc
  agreeing text ls es environment hlength hlines hall hnames := by
    obtain ⟨hok, hreplaced⟩ := @applyEnvironment_ok _ out hbase _ _ hnames
    have hsame : (applyEnvironment base environment out).result = .ok ↔ (parseText base text out).result = .ok := by
      rw [hok, parseText_distinct hbase hlength hlines]
      constructor
      · exact fun h => ⟨es, hall, h⟩
      · intro ⟨es', hall', h⟩
        rwa [lineMeans_unique hall hall']
    refine ⟨hsame, fun h g => ?_⟩
    exact (hreplaced (hsame.mpr h)).perm (parseText_replaced hbase hlength hlines hall h) (List.Perm.refl _) g
  unchanged := ⟨fun _ => ConfigAnswer.of_failed, fun _ => ConfigAnswer.of_failed, fun _ _ _ => ConfigAnswer.of_failed⟩

/-- Two fields of the defaults are set, one of them in a unit. -/
theorem config_parsing_exact_defaults :
    let text := literal "# limits\nworker_count = 8\r\n\n idle_timeout=2m"
    (parseText defaults text defaults).result = .ok ∧
      (parseText defaults text defaults).outConfig.get .workerCount = .number 8 ∧
      (parseText defaults text defaults).outConfig.get .idleTimeout = .number 120000 ∧
      (parseText defaults text defaults).outConfig.get .listenPort = defaults.get .listenPort := by
  intro text
  have parsing := config_parsing_exact defaults defaults (by decide)
  have htext : text = literal "# limits" ++ 0x0A :: (literal "worker_count = 8" ++ 0x0D :: 0x0A ::
      ([] ++ 0x0A :: literal " idle_timeout=2m")) := by decide
  have hlines : Lines text [literal "# limits", literal "worker_count = 8", [], literal " idle_timeout=2m"] := by
    rw [htext]
    exact .lf (by decide) (by decide) (.crlf (by decide) (.lf (by decide) (by decide) (.last (by decide) (by decide))))
  have hmeans : Forall₂ LineMeans [literal "# limits", literal "worker_count = 8", [], literal " idle_timeout=2m"]
      [none, some (.workerCount, literal "8"), none, some (.idleTimeout, literal "2m")] :=
    .cons (lineEntry_iff.mp rfl) (.cons (lineEntry_iff.mp rfl) (.cons (lineEntry_iff.mp rfl)
      (.cons (lineEntry_iff.mp rfl) .nil)))
  have hworkers : Accepts .workerCount (literal "8") (.number 8) :=
    ⟨by decide, .workerCount rfl (by decide) (by decide)⟩
  have htimeout : Accepts .idleTimeout (literal "2m") (.number 120000) :=
    ⟨by decide, .idleTimeout ⟨literal "2", 2, ("m", 60 * 1000), by decide, rfl, by decide, rfl⟩ (by decide) (by decide)⟩
  have hdistinct : Distinct [(.workerCount, literal "8"), (.idleTimeout, literal "2m")] := by
    refine ⟨by decide, fun e he => ?_⟩
    rcases List.mem_pair.mp he with rfl | rfl
    · exact ⟨_, hworkers⟩
    · exact ⟨_, htimeout⟩
  have hok := ((parsing.accepted text).2 _ hlines (by decide)).mpr ⟨_, hmeans, hdistinct⟩
  have replaced := parsing.replaced text _ _ (by decide) hlines hmeans hok
  obtain ⟨x, hx, hget⟩ := replaced.values (.workerCount, literal "8") (by decide)
  obtain ⟨y, hy, hget'⟩ := replaced.values (.idleTimeout, literal "2m") (by decide)
  exact ⟨hok, hget.trans (hx.unique hworkers), hget'.trans (hy.unique htimeout), replaced.others _ (by decide)⟩

/-- A comment with a control byte is refused, although it is a comment. -/
theorem config_parsing_refuses_controls :
    ¬ ∀ (base out : Config) (text : Bytes) (ls : List Bytes), validate base = .ok () →
      text.length ≤ maxTextSize → Lines text ls →
      ((parseText base text out).result = .ok ↔ ∃ es, List.Forall₂ Means ls es ∧ Distinct es.reduceOption) := by
  intro h
  have hlines : Lines [0x23, 0x01] [[0x23, 0x01]] := .last (by decide) (by decide)
  have hmeans : Means [0x23, 0x01] none := by
    have hmark : trimHorizontalSpace [0x23, 0x01] = 0x23 :: [0x01] := by decide
    exact .comment hmark
  have hok := (h defaults defaults _ _ (by decide) (by decide) hlines).mpr
    ⟨[none], .cons hmeans .nil, ⟨List.nodup_nil, fun e he => absurd he List.not_mem_nil⟩⟩
  exact absurd hok (by decide)

end Vireo.Base
