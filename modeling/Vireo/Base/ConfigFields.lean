/-
  File:      Vireo/Base/ConfigFields.lean
  Subject:   THE FIELDS OF A CONFIGURATION: which values each of them takes, and what the values stand for.
-/
import Vireo.Base.Config
import Vireo.Protocol.NodeListFields

namespace Vireo.Base

open Lib Protocol List

/-! ## 1. What values stand for -/

/-- What a field holds. -/
inductive ConfigValue where
  | text (s : Bytes)
  | number (n : Nat)
  | flag (b : Bool)
deriving DecidableEq

/-- The bytes in front of the end of a string. -/
def cstring (text : Bytes) : Bytes := text.takeWhile (· ≠ 0)

/-- A field of a configuration. -/
def Config.get (c : Config) : ConfigField → ConfigValue
  | .none => .flag false
  | .listenAddress => .text (cstring c.listenAddress.val)
  | .listenPort => .number c.listenPort.toNat
  | .maxConnections => .number c.maxConnections.toNat
  | .workerCount => .number c.workerCount.toNat
  | .idleTimeout => .number c.idleTimeoutMs.toNat
  | .logToStderr => .flag c.logToStderr
  | .logMaxFileSize => .number c.logMaxFileSizeBytes.toNat
  | .dataDir => .text (cstring c.dataDir.val)
  | .logDir => .text (cstring c.logDir.val)

/-- Four numbers below 256 in their shortest form, with dots between them. -/
def IsIpv4 (text : Bytes) : Prop :=
  ∃ a b c d, a < 256 ∧ b < 256 ∧ c < 256 ∧ d < 256 ∧
    text = octetText a ++ 0x2E :: (octetText b ++ 0x2E :: (octetText c ++ 0x2E :: octetText d))

/-- The units of a size, in bytes. -/
def sizeScale : List (String × Nat) := [("", 1), ("B", 1), ("KiB", 2 ^ 10), ("MiB", 2 ^ 20), ("GiB", 2 ^ 30)]

/-- The units of a duration, in milliseconds. -/
def durationScale : List (String × Nat) := [("", 1), ("ms", 1), ("s", 1000), ("m", 60 * 1000)]

/-- A numeral and one of the units: so many of it. -/
def Scaled (units : List (String × Nat)) (text : Bytes) (n : Nat) : Prop :=
  ∃ digits m u, text = digits ++ literal u.1 ∧ decimal? digits = some m ∧ u ∈ units ∧ n = m * u.2

/-- What the fields are called, in a file and in an environment. -/
inductive Named : ConfigField → String → String → Prop
  | listenAddress : Named .listenAddress "listen_address" "VIREO_LISTEN_ADDRESS"
  | listenPort : Named .listenPort "listen_port" "VIREO_LISTEN_PORT"
  | maxConnections : Named .maxConnections "max_connections" "VIREO_MAX_CONNECTIONS"
  | workerCount : Named .workerCount "worker_count" "VIREO_WORKER_COUNT"
  | idleTimeout : Named .idleTimeout "idle_timeout" "VIREO_IDLE_TIMEOUT"
  | logToStderr : Named .logToStderr "log_to_stderr" "VIREO_LOG_TO_STDERR"
  | logMaxFileSize : Named .logMaxFileSize "log_max_file_size" "VIREO_LOG_MAX_FILE_SIZE"
  | dataDir : Named .dataDir "data_dir" "VIREO_DATA_DIR"
  | logDir : Named .logDir "log_dir" "VIREO_LOG_DIR"

/-- The values of a field, and what they stand for. -/
inductive Denotes : ConfigField → Bytes → ConfigValue → Prop
  | listenAddress {t : Bytes} (address : IsIpv4 t) : Denotes .listenAddress t (.text t)
  | listenPort {t : Bytes} {n : Nat} (numeral : decimal? t = some n) (low : 1 ≤ n) (high : n ≤ 65535) :
      Denotes .listenPort t (.number n)
  | maxConnections {t : Bytes} {n : Nat} (numeral : decimal? t = some n) (low : 1 ≤ n) (high : n ≤ 65536) :
      Denotes .maxConnections t (.number n)
  | workerCount {t : Bytes} {n : Nat} (numeral : decimal? t = some n) (low : 1 ≤ n) (high : n ≤ 256) :
      Denotes .workerCount t (.number n)
  | idleTimeout {t : Bytes} {n : Nat} (scaled : Scaled durationScale t n) (low : 1 ≤ n) (high : n ≤ 86400000) :
      Denotes .idleTimeout t (.number n)
  | logToStderr (b : Bool) : Denotes .logToStderr (literal (if b then "true" else "false")) (.flag b)
  | logMaxFileSize {t : Bytes} {n : Nat} (scaled : Scaled sizeScale t n) (low : 1048576 ≤ n)
      (high : n ≤ 1073741824) : Denotes .logMaxFileSize t (.number n)
  | dataDir {t : Bytes} (root : t.head? = some 0x2F) (plain : ∀ b ∈ t, isControl b = false) :
      Denotes .dataDir t (.text t)
  | logDir {t : Bytes} (root : t.head? = some 0x2F) (plain : ∀ b ∈ t, isControl b = false) :
      Denotes .logDir t (.text t)

/-- The values that are taken are not longer than all values may be. -/
def Accepts (field : ConfigField) (text : Bytes) (x : ConfigValue) : Prop :=
  text.length ≤ maxValueSize ∧ Denotes field text x

/-! ## 2. The parsers -/

/-- **The loop over the digits** computes what they stand for, as long as it fits. -/
theorem foldlM_parseDigit (text : Bytes) (value : UInt64) : (∀ v, text.foldlM parseDigit value = .ok v →
      text.all isDigit = true ∧ v.toNat = decimalFrom value.toNat text) ∧
    (text.all isDigit = true → decimalFrom value.toNat text < 2 ^ 64 → ∃ v, text.foldlM parseDigit value = .ok v) := by
  induction text generalizing value with
  | nil => exact ⟨fun v h => ⟨rfl, by rw [decimalFrom_nil, ← Except.ok.inj h]⟩, fun _ _ => ⟨value, rfl⟩⟩
  | cons b text ih =>
    rw [foldlM_cons, all_cons, decimalFrom_cons]
    have hword : b.toNat < 256 := b.toNat_lt
    have hsmall : digitValue b < 2 ^ 64 := by
      unfold digitValue
      omega
    have hdigit : (UInt64.ofNat (digitValue b)).toNat = digitValue b := UInt64.toNat_ofNat_of_lt' hsmall
    have hten : (10 : UInt64).toNat = 10 := rfl
    constructor
    · intro v h
      unfold parseDigit at h
      split at h
      · cases h
      rename_i hb
      cases hmul : checkedU64Mul value 10 with
      | error e =>
        rw [hmul] at h
        cases h
      | ok multiplied =>
        rw [hmul] at h
        cases hadd : checkedU64Add multiplied (UInt64.ofNat (digitValue b)) with
        | error e =>
          have h : (.error e >>= fun v => text.foldlM parseDigit v) = Except.ok v := hadd ▸ h
          cases h
        | ok next =>
          have h : (.ok next >>= fun v => text.foldlM parseDigit v) = Except.ok v := hadd ▸ h
          obtain ⟨hall, hv⟩ := (ih next).1 v h
          have hnext := checkedU64Add_ok hadd
          rw [checkedU64Mul_ok hmul, hdigit, hten] at hnext
          rw [hnext] at hv
          exact ⟨by simp [(Bool.not_eq_false _).mp hb, hall], hv⟩
    · intro hall hlt
      rw [Bool.and_eq_true] at hall
      have hgrow := le_decimalFrom (value.toNat * 10 + digitValue b) text
      have hmul := @checkedU64Mul_of_lt value 10 (by rw [hten]; omega)
      have hm := checkedU64Mul_ok hmul
      rw [hten] at hm
      have hadd := @checkedU64Add_of_lt (value * 10) (UInt64.ofNat (digitValue b)) (by rw [hm, hdigit]; omega)
      have hnext := checkedU64Add_ok hadd
      rw [hm, hdigit] at hnext
      obtain ⟨v, hv⟩ := (ih _).2 hall.2 (by rw [hnext]; exact hlt)
      refine ⟨v, ?_⟩
      have hstep : parseDigit value b = .ok (value * 10 + UInt64.ofNat (digitValue b)) := by
        unfold parseDigit
        rw [hall.1, if_neg (by decide), hmul]
        exact hadd
      rw [hstep]
      exact hv

variable {text : Bytes}

theorem parseU64Decimal_iff {v : UInt64} :
    parseU64Decimal text = .ok v ↔ decimal? text = some v.toNat := by
  obtain ⟨hback, hthere⟩ := foldlM_parseDigit text 0
  have hzero : (0 : UInt64).toNat = 0 := rfl
  rw [hzero] at hback hthere
  unfold parseU64Decimal decimal?
  by_cases hnil : text = []
  · rw [if_pos hnil, if_neg (by simp [hnil])]
    simp
  · rw [if_neg hnil]
    constructor
    · intro h
      obtain ⟨hall, hv⟩ := hback v h
      rw [if_pos ⟨hnil, hall⟩, hv]
    · intro h
      split at h
      · rename_i hdigits
        have hv := Option.some.inj h
        obtain ⟨w, hw⟩ := hthere hdigits.2 (by rw [hv]; exact v.toNat_lt)
        have hsame : w = v := UInt64.toNat_inj.mp (by rw [(hback w hw).2, hv])
        rw [hw, hsame]
      · cases h

/-- Units that can be told apart, from each other and from digits. -/
structure UnitsFit (units : List (String × UInt64)) : Prop where
  apart : units.Pairwise fun u v => literal u.1 ≠ literal v.1
  letter : ∀ u ∈ units, ∀ b ∈ (literal u.1).head?, isDigit b = false
  pos : ∀ u ∈ units, 1 ≤ u.2.toNat

variable {units : List (String × UInt64)}

theorem unitsFit_of_all (apart : units.Pairwise fun u v => literal u.1 ≠ literal v.1)
    (letter : units.all (fun u => !(literal u.1).head?.any isDigit) = true)
    (pos : units.all (fun u => 1 ≤ u.2.toNat) = true) : UnitsFit units := by
  refine ⟨apart, fun u hu b hb => ?_, fun u hu => of_decide_eq_true (all_eq_true.mp pos u hu)⟩
  have hletter := all_eq_true.mp letter u hu
  rw [Option.mem_def.mp hb] at hletter
  simpa using hletter

theorem unitsFit_size : UnitsFit sizeUnits := unitsFit_of_all (by decide) rfl rfl

theorem unitsFit_duration : UnitsFit durationUnits := unitsFit_of_all (by decide) rfl rfl

theorem digits_append {digits suffix : Bytes} (hd : digits.all isDigit = true)
    (hs : ∀ b ∈ suffix.head?, isDigit b = false) :
    (digits ++ suffix).takeWhile isDigit = digits ∧ (digits ++ suffix).dropWhile isDigit = suffix := by
  have hd : ∀ b ∈ digits, isDigit b = true := all_eq_true.mp hd
  rw [takeWhile_append_of_pos hd, dropWhile_append_of_pos hd]
  match suffix with
  | [] => simp
  | b :: suffix =>
    have hb : isDigit b = false := hs b (by simp)
    simp [hb]

theorem find_unit (fit : UnitsFit units) {u : String × UInt64} (hu : u ∈ units) :
    (units.find? fun v => spanEqualsLiteral (literal u.1) v.1) = some u := by
  have apart := fit.apart
  clear fit
  induction units with
  | nil => cases hu
  | cons v units ih =>
    rw [pairwise_cons] at apart
    rw [List.find?_cons]
    rcases mem_cons.mp hu with rfl | hu
    · simp [spanEqualsLiteral]
    have hne : literal u.1 ≠ literal v.1 := (apart.1 u hu).symm
    simp only [spanEqualsLiteral, hne, decide_false]
    exact ih hu apart.2

/-- **A number of units is parsed as that many**, when it fits. -/
theorem parseScaled_iff (fit : UnitsFit units) {v : UInt64} :
    parseScaled units text = .ok v ↔ Scaled (units.map fun u => (u.1, u.2.toNat)) text v.toNat := by
  constructor
  · intro h
    unfold parseScaled at h
    simp only at h
    split at h
    · cases h
    split at h
    · cases h
    rename_i u hfind
    have hu := List.mem_of_find?_eq_some hfind
    have hsuffix := List.find?_some hfind
    simp only [spanEqualsLiteral, decide_eq_true_eq] at hsuffix
    cases hparse : parseU64Decimal (text.takeWhile isDigit) with
    | error e =>
      rw [hparse] at h
      cases h
    | ok m =>
      rw [hparse] at h
      have hmul : checkedU64Mul m u.2 = .ok v := h
      refine ⟨text.takeWhile isDigit, m.toNat, _, ?_, parseU64Decimal_iff.mp hparse, mem_map_of_mem hu,
        checkedU64Mul_ok hmul⟩
      rw [← hsuffix, takeWhile_append_dropWhile]
  · intro ⟨digits, m, _, htext, hm, hmem, hv⟩
    obtain ⟨u, hu, rfl⟩ := mem_map.mp hmem
    have hdigits : digits ≠ [] ∧ digits.all isDigit = true := by
      by_contra hn
      rw [decimal?, if_neg hn] at hm
      cases hm
    obtain ⟨htake, hdrop⟩ := digits_append hdigits.2 (fit.letter u hu)
    have hpos := fit.pos u hu
    have hfits : m * u.2.toNat < 2 ^ 64 := hv ▸ v.toNat_lt
    have hsmall : m < 2 ^ 64 := Nat.lt_of_le_of_lt (Nat.le_mul_of_pos_right m hpos) hfits
    have hword : (UInt64.ofNat m).toNat = m := UInt64.toNat_ofNat_of_lt' hsmall
    have hparse : parseU64Decimal digits = .ok (UInt64.ofNat m) := parseU64Decimal_iff.mpr (by rw [hword, hm])
    have hmul := @checkedU64Mul_of_lt (UInt64.ofNat m) u.2 (by rw [hword]; exact hfits)
    obtain rfl : _ = v := UInt64.toNat_inj.mp ((checkedU64Mul_ok hmul).trans (by rw [hword, hv]))
    subst htext
    unfold parseScaled
    simp only [htake, hdrop, if_neg hdigits.1, find_unit fit hu, hparse]
    exact hmul

theorem ipv4Part_iff {rest : Bytes} : ipv4Part text = some rest ↔
      ∃ n, n < 256 ∧ text = octetText n ++ rest ∧ ∀ b ∈ rest.head?, isDigit b = false := by
  have hall : (text.takeWhile isDigit).all isDigit = true := all_takeWhile
  constructor
  · intro h
    unfold ipv4Part at h
    simp only at h
    split at h
    · cases h
    split at h
    · cases h
    split at h
    · cases h
    split at h
    · cases h
    rename_i hshort hpos hfront hbound
    have hrest := Option.some.inj h
    obtain ⟨n, hn, htake⟩ := octetText_iff.mp ⟨hall, fun h => hpos (by rw [h]; rfl), by omega,
      fun hlong hhead => hfront ⟨hlong, hhead⟩, by omega⟩
    refine ⟨n, hn, by rw [← htake, ← hrest, takeWhile_append_dropWhile], ?_⟩
    intro b hb
    rw [← hrest] at hb
    have hhead := List.head?_dropWhile_not isDigit text
    rw [hb] at hhead
    simpa using hhead
  · intro ⟨n, hn, htext, hrest⟩
    obtain ⟨hdigits, hpos, hshort, hfront, hbound⟩ := octetText_iff.mpr ⟨n, hn, rfl⟩
    obtain ⟨htake, hdrop⟩ := digits_append hdigits hrest
    subst htext
    unfold ipv4Part
    simp only [htake, hdrop]
    rw [if_neg (by omega), if_neg (fun h => hpos (eq_nil_of_length_eq_zero h)),
      if_neg (fun h => hfront h.1 h.2), if_neg (by omega)]

theorem ipv4IsValid_iff : ipv4IsValid text = true ↔ IsIpv4 text := by
  have hdot : isDigit 0x2E = false := by decide
  have hmore : ∀ k text, ipv4Parts (k + 1) text = true ↔
      ∃ n rest, n < 256 ∧ text = octetText n ++ 0x2E :: rest ∧ ipv4Parts k rest = true := by
    intro k text
    rw [ipv4Parts]
    constructor
    · intro h
      split at h
      · rename_i rest hpart
        obtain ⟨n, hn, htext, -⟩ := ipv4Part_iff.mp hpart
        exact ⟨n, rest, hn, htext, h⟩
      · cases h
    · intro ⟨n, rest, hn, htext, hrest⟩
      rw [ipv4Part_iff.mpr ⟨n, hn, htext, by simp [hdot]⟩]
      exact hrest
  have hlast : ∀ text, ipv4Parts 0 text = true ↔ ∃ n, n < 256 ∧ text = octetText n := by
    intro text
    rw [ipv4Parts, decide_eq_true_eq, ipv4Part_iff]
    simp
  unfold ipv4IsValid IsIpv4
  constructor
  · intro h
    obtain ⟨a, rest, ha, htext, h⟩ := (hmore 2 text).mp h
    obtain ⟨b, rest', hb, hrest, h⟩ := (hmore 1 rest).mp h
    obtain ⟨c, rest'', hc, hrest', h⟩ := (hmore 0 rest').mp h
    obtain ⟨d, hd, hrest''⟩ := (hlast rest'').mp h
    subst hrest'' hrest' hrest
    exact ⟨a, b, c, d, ha, hb, hc, hd, htext⟩
  · intro ⟨a, b, c, d, ha, hb, hc, hd, htext⟩
    exact (hmore 2 text).mpr ⟨a, _, ha, htext, (hmore 1 _).mpr ⟨b, _, hb, rfl,
      (hmore 0 _).mpr ⟨c, _, hc, rfl, (hlast _).mpr ⟨d, hd, rfl⟩⟩⟩⟩

theorem pathIsValid_iff :
    pathIsValid text = true ↔ text.head? = some 0x2F ∧ ∀ b ∈ text, isControl b = false := by
  simp [pathIsValid]

theorem parseBoolean_iff {b : Bool} :
    parseBoolean text = .ok b ↔ text = literal (if b then "true" else "false") := by
  have hapart : literal "true" ≠ literal "false" := by decide
  unfold parseBoolean spanEqualsLiteral
  by_cases htrue : text = literal "true"
  · subst htrue
    cases b <;> simp [hapart]
  · by_cases hfalse : text = literal "false"
    · subst hfalse
      cases b <;> simp [hapart.symm]
    · cases b <;> simp [htrue, hfalse]

variable {field : ConfigField}

/-- **A key is found** when it is spelt as the field is called in a file. -/
theorem fieldFromKey_iff : fieldFromKey text = field ∧ field ≠ .none ↔ ∃ k n, Named field k n ∧ text = literal k := by
  constructor
  · intro ⟨h, hne⟩
    unfold fieldFromKey at h
    repeat' split at h
    all_goals
      rename_i htext
      cases h
      first
        | exact absurd rfl hne
        | exact ⟨_, _, by constructor, of_decide_eq_true htext⟩
  · intro ⟨k, n, named, htext⟩
    subst htext
    cases named <;> decide

/-- **A name is found** when it is spelt as the field is called in an environment. -/
theorem fieldFromEnvironmentName_iff : fieldFromEnvironmentName text = field ∧ field ≠ .none ↔
    ∃ k n, Named field k n ∧ text = literal n := by
  constructor
  · intro ⟨h, hne⟩
    unfold fieldFromEnvironmentName at h
    repeat' split at h
    all_goals
      rename_i htext
      cases h
      first
        | exact absurd rfl hne
        | exact ⟨_, _, by constructor, of_decide_eq_true htext⟩
  · intro ⟨k, n, named, htext⟩
    subst htext
    cases named <;> decide

/-! ## 3. Values that are taken -/

theorem digit_plain {b : UInt8} (h : isDigit b = true) : isControl b = false := by
  have hb := isDigit_iff.mp h
  have hdel : b ≠ 0x7F := fun heq => by
    subst heq
    exact absurd hb.2 (by decide)
  have hlow : ¬ b ≤ 0x1F := by
    rw [UInt8.le_iff_toNat_le]
    have hbound : (0x1F : UInt8).toNat = 31 := rfl
    omega
  simp [isControl, hdel, hlow]

variable {n : Nat}

theorem numeral_plain (h : decimal? text = some n) : text ≠ [] ∧ ∀ b ∈ text, isControl b = false := by
  unfold decimal? at h
  split at h
  · rename_i hdigits
    exact ⟨hdigits.1, fun b hb => digit_plain (all_eq_true.mp hdigits.2 b hb)⟩
  · cases h

theorem octet_plain (h : n < 256) : (octetText n).length ≤ 3 ∧ ∀ b ∈ octetText n, isControl b = false := by
  obtain ⟨hdigits, -, hshort, -, -⟩ := octetText_iff.mpr ⟨n, h, rfl⟩
  exact ⟨hshort, fun b hb => digit_plain (all_eq_true.mp hdigits b hb)⟩

theorem ipv4_plain (h : IsIpv4 text) :
    text ≠ [] ∧ text.length < addressCapacity ∧ ∀ b ∈ text, isControl b = false := by
  obtain ⟨a, b, c, d, ha, hb, hc, hd, rfl⟩ := h
  obtain ⟨halen, ha⟩ := octet_plain ha
  obtain ⟨hblen, hb⟩ := octet_plain hb
  obtain ⟨hclen, hc⟩ := octet_plain hc
  obtain ⟨hdlen, hd⟩ := octet_plain hd
  have hdot : isControl 0x2E = false := by decide
  refine ⟨by simp, ?_, ?_⟩
  · simp only [length_append, length_cons, addressCapacity]
    omega
  · intro x hx
    simp only [mem_append, mem_cons] at hx
    rcases hx with hx | rfl | hx | rfl | hx | rfl | hx
    · exact ha x hx
    · exact hdot
    · exact hb x hx
    · exact hdot
    · exact hc x hx
    · exact hdot
    · exact hd x hx

theorem plain_of_any (h : text.any isControl = false) : ∀ b ∈ text, isControl b = false := by
  simpa using h

theorem scaled_plain {units : List (String × Nat)} (h : Scaled units text n)
    (plain : units.all (fun u => !(literal u.1).any isControl) = true) :
    text ≠ [] ∧ ∀ b ∈ text, isControl b = false := by
  obtain ⟨digits, m, u, rfl, hm, hu, -⟩ := h
  obtain ⟨hpos, hdigits⟩ := numeral_plain hm
  refine ⟨by simp [hpos], fun b hb => ?_⟩
  rcases mem_append.mp hb with hb | hb
  · exact hdigits b hb
  · exact plain_of_any (by simpa using all_eq_true.mp plain u hu) b hb

variable {x : ConfigValue}

theorem Denotes.plain (h : Denotes field text x) : text ≠ [] ∧ ∀ b ∈ text, isControl b = false := by
  cases h with
  | listenAddress address => exact ⟨(ipv4_plain address).1, (ipv4_plain address).2.2⟩
  | listenPort numeral => exact numeral_plain numeral
  | maxConnections numeral => exact numeral_plain numeral
  | workerCount numeral => exact numeral_plain numeral
  | idleTimeout scaled => exact scaled_plain scaled (by decide)
  | logToStderr b => cases b <;> exact ⟨by decide, plain_of_any (by decide)⟩
  | logMaxFileSize scaled => exact scaled_plain scaled (by decide)
  | dataDir root plain => exact ⟨fun h => by simp [h] at root, plain⟩
  | logDir root plain => exact ⟨fun h => by simp [h] at root, plain⟩

/-! ## 4. Assignments -/

/-- The string of a field ends in its array. -/
def Config.Ended (c : Config) : ConfigField → Prop
  | .listenAddress => (0 : UInt8) ∈ c.listenAddress.val
  | .dataDir => (0 : UInt8) ∈ c.dataDir.val
  | .logDir => (0 : UInt8) ∈ c.logDir.val
  | _ => True

/-- A field was replaced, and nothing else. -/
structure Assigned (c : Config) (field : ConfigField) (x : ConfigValue) (c' : Config) : Prop where
  value : c'.get field = x
  others : ∀ g ≠ field, c'.get g = c.get g
  ended : ∀ g, c.Ended g → c'.Ended g

theorem cstring_copy (destination : Cells UInt8 n) (hfits : text.length < n)
    (plain : ∀ b ∈ text, isControl b = false) :
    cstring (destination.copy (text ++ [0])).val = text ∧ (0 : UInt8) ∈ (destination.copy (text ++ [0])).val := by
  have hval : (destination.copy (text ++ [0])).val = (text ++ [0]) ++ destination.val.drop (text ++ [0]).length := by
    show overwrite destination.val 0 ((text ++ [0]).take n) = _
    rw [take_of_length_le (by simp; omega), overwrite, List.take_zero, nil_append, Nat.zero_add]
  have hne : ∀ b ∈ text, (decide (b ≠ 0)) = true := by
    intro b hb
    have hplain := plain b hb
    rw [decide_eq_true_eq]
    intro hzero
    subst hzero
    exact absurd hplain (by decide)
  rw [hval]
  refine ⟨?_, by simp⟩
  rw [cstring, append_assoc, takeWhile_append_of_pos hne]
  simp

variable {issue : ConfigIssue} {c' : Config}

theorem assignNumber_ok {minimum maximum : UInt64} {result : Except Result UInt64} {store : UInt64 → Config} :
    assignNumber minimum maximum issue result store = .ok c' ↔
      ∃ v, result = .ok v ∧ minimum.toNat ≤ v.toNat ∧ v.toNat ≤ maximum.toNat ∧ c' = store v := by
  unfold assignNumber
  match result with
  | .error e => simp
  | .ok v =>
    simp only [UInt64.lt_iff_toNat_lt, gt_iff_lt]
    split
    · rename_i hout
      simp
      omega
    · rename_i hin
      simp
      constructor
      · rintro rfl
        exact ⟨by omega, by omega, rfl⟩
      · intro ⟨_, _, h⟩
        exact h.symm

theorem assignString_ok {valid : Bool} {destination : Cells UInt8 n} {store : Cells UInt8 n → Config} :
    assignString valid issue text destination store = .ok c' ↔
      valid = true ∧ text.length < n ∧ c' = store (destination.copy (text ++ [0])) := by
  unfold assignString copySpan
  cases valid with
  | false => simp
  | true =>
    by_cases hlong : text.length ≥ n
    · simp [hlong]
    simp [hlong, eq_comm]
    intro _
    omega

section

variable {c c' : Config} {field : ConfigField} {text : Bytes} {x : ConfigValue} {v : UInt64} {n : Nat}

theorem assigned_listenAddress (hfits : text.length < addressCapacity) (plain : ∀ b ∈ text, isControl b = false) :
    Assigned c .listenAddress (.text text) { c with listenAddress := c.listenAddress.copy (text ++ [0]) } where
  value := congrArg ConfigValue.text (cstring_copy _ hfits plain).1
  others g hg := by cases g <;> first | rfl | exact absurd rfl hg
  ended g hg := by cases g <;> first | exact (cstring_copy _ hfits plain).2 | exact hg

theorem assigned_dataDir (hfits : text.length < pathCapacity) (plain : ∀ b ∈ text, isControl b = false) :
    Assigned c .dataDir (.text text) { c with dataDir := c.dataDir.copy (text ++ [0]) } where
  value := congrArg ConfigValue.text (cstring_copy _ hfits plain).1
  others g hg := by cases g <;> first | rfl | exact absurd rfl hg
  ended g hg := by cases g <;> first | exact hg | exact (cstring_copy _ hfits plain).2

theorem assigned_logDir (hfits : text.length < pathCapacity) (plain : ∀ b ∈ text, isControl b = false) :
    Assigned c .logDir (.text text) { c with logDir := c.logDir.copy (text ++ [0]) } where
  value := congrArg ConfigValue.text (cstring_copy _ hfits plain).1
  others g hg := by cases g <;> first | rfl | exact absurd rfl hg
  ended g hg := by cases g <;> first | exact hg | exact (cstring_copy _ hfits plain).2

theorem assigned_listenPort (hfits : n < 2 ^ 16) (hv : v.toNat = n) :
    Assigned c .listenPort (.number n) { c with listenPort := v.toUInt16 } where
  value := by
    show ConfigValue.number v.toUInt16.toNat = .number n
    rw [UInt64.toNat_toUInt16, hv, Nat.mod_eq_of_lt hfits]
  others g hg := by cases g <;> first | rfl | exact absurd rfl hg
  ended g hg := by cases g <;> exact hg

theorem assigned_maxConnections (hfits : n < 2 ^ 32) (hv : v.toNat = n) :
    Assigned c .maxConnections (.number n) { c with maxConnections := v.toUInt32 } where
  value := by
    show ConfigValue.number v.toUInt32.toNat = .number n
    rw [UInt64.toNat_toUInt32, hv, Nat.mod_eq_of_lt hfits]
  others g hg := by cases g <;> first | rfl | exact absurd rfl hg
  ended g hg := by cases g <;> exact hg

theorem assigned_workerCount (hfits : n < 2 ^ 32) (hv : v.toNat = n) :
    Assigned c .workerCount (.number n) { c with workerCount := v.toUInt32 } where
  value := by
    show ConfigValue.number v.toUInt32.toNat = .number n
    rw [UInt64.toNat_toUInt32, hv, Nat.mod_eq_of_lt hfits]
  others g hg := by cases g <;> first | rfl | exact absurd rfl hg
  ended g hg := by cases g <;> exact hg

theorem assigned_idleTimeout (v : UInt64) :
    Assigned c .idleTimeout (.number v.toNat) { c with idleTimeoutMs := v } where
  value := rfl
  others g hg := by cases g <;> first | rfl | exact absurd rfl hg
  ended g hg := by cases g <;> exact hg

theorem assigned_logMaxFileSize (v : UInt64) :
    Assigned c .logMaxFileSize (.number v.toNat) { c with logMaxFileSizeBytes := v } where
  value := rfl
  others g hg := by cases g <;> first | rfl | exact absurd rfl hg
  ended g hg := by cases g <;> exact hg

theorem assigned_logToStderr (b : Bool) : Assigned c .logToStderr (.flag b) { c with logToStderr := b } where
  value := rfl
  others g hg := by cases g <;> first | rfl | exact absurd rfl hg
  ended g hg := by cases g <;> exact hg

/-- **What an assignment does**: the value was acceptable, and its field alone is replaced. -/
theorem assignField_ok (h : assignField c field text = .ok c') :
    ∃ x, Accepts field text x ∧ Assigned c field x c' := by
  unfold assignField at h
  split at h
  · cases h
  split at h
  · cases h
  split at h
  · cases h
  rename_i hpos hlong hcontrol
  have hshort : text.length ≤ maxValueSize := Nat.not_lt.mp hlong
  have plain : ∀ b ∈ text, isControl b = false := by simpa using hcontrol
  cases field with
  | none => cases h
  | listenAddress =>
    obtain ⟨hvalid, hfits, rfl⟩ := assignString_ok.mp h
    exact ⟨_, ⟨hshort, .listenAddress (ipv4IsValid_iff.mp hvalid)⟩, assigned_listenAddress hfits plain⟩
  | dataDir =>
    obtain ⟨hvalid, hfits, rfl⟩ := assignString_ok.mp h
    exact ⟨_, ⟨hshort, .dataDir (pathIsValid_iff.mp hvalid).1 plain⟩, assigned_dataDir hfits plain⟩
  | logDir =>
    obtain ⟨hvalid, hfits, rfl⟩ := assignString_ok.mp h
    exact ⟨_, ⟨hshort, .logDir (pathIsValid_iff.mp hvalid).1 plain⟩, assigned_logDir hfits plain⟩
  | logToStderr =>
    cases hparse : parseBoolean text with
    | error e =>
      simp only [hparse] at h
      cases h
    | ok b =>
      simp only [hparse] at h
      cases h
      refine ⟨_, ⟨hshort, ?_⟩, assigned_logToStderr b⟩
      rw [parseBoolean_iff.mp hparse]
      exact .logToStderr b
  | listenPort =>
    obtain ⟨v, hparse, hlow, hhigh, rfl⟩ := assignNumber_ok.mp h
    exact ⟨_, ⟨hshort, .listenPort (parseU64Decimal_iff.mp hparse) hlow hhigh⟩,
      assigned_listenPort (Nat.lt_succ_of_le hhigh) rfl⟩
  | maxConnections =>
    obtain ⟨v, hparse, hlow, hhigh, rfl⟩ := assignNumber_ok.mp h
    exact ⟨_, ⟨hshort, .maxConnections (parseU64Decimal_iff.mp hparse) hlow hhigh⟩,
      assigned_maxConnections (Nat.lt_of_le_of_lt hhigh (by decide)) rfl⟩
  | workerCount =>
    obtain ⟨v, hparse, hlow, hhigh, rfl⟩ := assignNumber_ok.mp h
    exact ⟨_, ⟨hshort, .workerCount (parseU64Decimal_iff.mp hparse) hlow hhigh⟩,
      assigned_workerCount (Nat.lt_of_le_of_lt hhigh (by decide)) rfl⟩
  | idleTimeout =>
    obtain ⟨v, hparse, hlow, hhigh, rfl⟩ := assignNumber_ok.mp h
    exact ⟨_, ⟨hshort, .idleTimeout ((parseScaled_iff unitsFit_duration).mp hparse) hlow hhigh⟩,
      assigned_idleTimeout v⟩
  | logMaxFileSize =>
    obtain ⟨v, hparse, hlow, hhigh, rfl⟩ := assignNumber_ok.mp h
    exact ⟨_, ⟨hshort, .logMaxFileSize ((parseScaled_iff unitsFit_size).mp hparse) hlow hhigh⟩,
      assigned_logMaxFileSize v⟩

theorem word_of_le {m : Nat} (h : n ≤ m) (hm : m < 2 ^ 64) : ∃ v : UInt64, v.toNat = n :=
  ⟨UInt64.ofNat n, UInt64.toNat_ofNat_of_lt' (Nat.lt_of_le_of_lt h hm)⟩

theorem assignField_accepts (c : Config) (h : Accepts field text x) :
    ∃ c', assignField c field text = .ok c' ∧ Assigned c field x c' := by
  obtain ⟨hshort, h⟩ := h
  obtain ⟨hpos, plain⟩ := h.plain
  have hcontrol : ¬ text.any isControl = true := by simpa using plain
  unfold assignField
  rw [if_neg (fun h => hpos (eq_nil_of_length_eq_zero h)), if_neg (Nat.not_lt.mpr hshort), if_neg hcontrol]
  cases h with
  | listenAddress address =>
    have hfits := (ipv4_plain address).2.1
    exact ⟨_, assignString_ok.mpr ⟨ipv4IsValid_iff.mpr address, hfits, rfl⟩, assigned_listenAddress hfits plain⟩
  | dataDir root =>
    have hfits : text.length < pathCapacity := Nat.lt_succ_of_le hshort
    exact ⟨_, assignString_ok.mpr ⟨pathIsValid_iff.mpr ⟨root, plain⟩, hfits, rfl⟩, assigned_dataDir hfits plain⟩
  | logDir root =>
    have hfits : text.length < pathCapacity := Nat.lt_succ_of_le hshort
    exact ⟨_, assignString_ok.mpr ⟨pathIsValid_iff.mpr ⟨root, plain⟩, hfits, rfl⟩, assigned_logDir hfits plain⟩
  | logToStderr b =>
    refine ⟨_, ?_, assigned_logToStderr b⟩
    have hparse : parseBoolean (literal (if b then "true" else "false")) = .ok b := parseBoolean_iff.mpr rfl
    simp only [hparse]
  | listenPort numeral low high =>
    obtain ⟨v, rfl⟩ := word_of_le high (by decide)
    exact ⟨_, assignNumber_ok.mpr ⟨v, parseU64Decimal_iff.mpr numeral, low, high, rfl⟩,
      assigned_listenPort (Nat.lt_succ_of_le high) rfl⟩
  | maxConnections numeral low high =>
    obtain ⟨v, rfl⟩ := word_of_le high (by decide)
    exact ⟨_, assignNumber_ok.mpr ⟨v, parseU64Decimal_iff.mpr numeral, low, high, rfl⟩,
      assigned_maxConnections (Nat.lt_of_le_of_lt high (by decide)) rfl⟩
  | workerCount numeral low high =>
    obtain ⟨v, rfl⟩ := word_of_le high (by decide)
    exact ⟨_, assignNumber_ok.mpr ⟨v, parseU64Decimal_iff.mpr numeral, low, high, rfl⟩,
      assigned_workerCount (Nat.lt_of_le_of_lt high (by decide)) rfl⟩
  | idleTimeout scaled low high =>
    obtain ⟨v, rfl⟩ := word_of_le high (by decide)
    exact ⟨_, assignNumber_ok.mpr ⟨v, (parseScaled_iff unitsFit_duration).mpr scaled, low, high, rfl⟩,
      assigned_idleTimeout v⟩
  | logMaxFileSize scaled low high =>
    obtain ⟨v, rfl⟩ := word_of_le high (by decide)
    exact ⟨_, assignNumber_ok.mpr ⟨v, (parseScaled_iff unitsFit_size).mpr scaled, low, high, rfl⟩,
      assigned_logMaxFileSize v⟩

theorem Accepts.unique {x' : ConfigValue} (h : Accepts field text x) (h' : Accepts field text x') : x = x' := by
  obtain ⟨c', hassign, hx⟩ := assignField_accepts defaults h
  obtain ⟨c'', hassign', hx'⟩ := assignField_accepts defaults h'
  rw [hassign] at hassign'
  rw [← hx.value, ← hx'.value, Except.ok.inj hassign']

end

/-! ## 5. Validity -/

/-- The values that a field may hold. -/
inductive ValidValue : ConfigField → ConfigValue → Prop
  | none (b : Bool) : ValidValue .none (.flag b)
  | listenAddress {t : Bytes} (address : IsIpv4 t) : ValidValue .listenAddress (.text t)
  | listenPort {n : Nat} (low : 1 ≤ n) (high : n ≤ 65535) : ValidValue .listenPort (.number n)
  | maxConnections {n : Nat} (low : 1 ≤ n) (high : n ≤ 65536) : ValidValue .maxConnections (.number n)
  | workerCount {n : Nat} (low : 1 ≤ n) (high : n ≤ 256) : ValidValue .workerCount (.number n)
  | idleTimeout {n : Nat} (low : 1 ≤ n) (high : n ≤ 86400000) : ValidValue .idleTimeout (.number n)
  | logToStderr (b : Bool) : ValidValue .logToStderr (.flag b)
  | logMaxFileSize {n : Nat} (low : 1048576 ≤ n) (high : n ≤ 1073741824) : ValidValue .logMaxFileSize (.number n)
  | dataDir {t : Bytes} (root : t.head? = some 0x2F) (plain : ∀ b ∈ t, isControl b = false) :
      ValidValue .dataDir (.text t)
  | logDir {t : Bytes} (root : t.head? = some 0x2F) (plain : ∀ b ∈ t, isControl b = false) :
      ValidValue .logDir (.text t)

/-- A configuration whose fields are all valid. -/
def Config.Valid (c : Config) : Prop := ∀ g, c.Ended g ∧ ValidValue g (c.get g)

theorem Denotes.valid (h : Denotes field text x) : ValidValue field x := by
  cases h with
  | listenAddress address => exact .listenAddress address
  | listenPort _ low high => exact .listenPort low high
  | maxConnections _ low high => exact .maxConnections low high
  | workerCount _ low high => exact .workerCount low high
  | idleTimeout _ low high => exact .idleTimeout low high
  | logToStderr b => exact .logToStderr b
  | logMaxFileSize _ low high => exact .logMaxFileSize low high
  | dataDir root plain => exact .dataDir root plain
  | logDir root plain => exact .logDir root plain

theorem validate_assigned {c : Config} (hc : c.Valid)
    (h : Assigned c field x c') (hx : ValidValue field x) : c'.Valid := by
  intro g
  refine ⟨h.ended g (hc g).1, ?_⟩
  by_cases hg : g = field
  · subst hg
    rw [h.value]
    exact hx
  · rw [h.others g hg]
    exact (hc g).2

theorem validateString_ok {valid : Bytes → Bool} :
    validateString text valid issue field = .ok () ↔ (0 : UInt8) ∈ text ∧ valid (cstring text) = true := by
  unfold validateString boundedStringLength
  cases hfind : text.findIdx? (· = 0) with
  | none =>
    have hnone : ∀ b ∈ text, b ≠ 0 := by simpa using List.findIdx?_eq_none_iff.mp hfind
    have hzero : ¬ (0 : UInt8) ∈ text := fun h => hnone 0 h rfl
    simp [hzero]
  | some length =>
    obtain ⟨hlt, hend, hfront⟩ := List.findIdx?_eq_some_iff_getElem.mp hfind
    have hzero : (0 : UInt8) ∈ text := by
      have hget := getElem_mem hlt
      rwa [of_decide_eq_true hend] at hget
    have htake : text.take length = cstring text := by
      have hsplit : text = text.take length ++ 0 :: text.drop (length + 1) := by
        conv_lhs => rw [← take_append_drop length text, drop_eq_getElem_cons hlt, of_decide_eq_true hend]
      have hne : ∀ b ∈ text.take length, (decide (b ≠ 0)) = true := by
        intro b hb
        obtain ⟨i, hi, rfl⟩ := mem_iff_getElem.mp hb
        rw [length_take] at hi
        have hget := hfront i (by omega)
        rw [getElem_take]
        simpa using hget
      unfold cstring
      conv_rhs => rw [hsplit, takeWhile_append_of_pos hne]
      simp
    simp [hzero, htake]

theorem validateNumber_ok {inRange : Bool} : validateNumber inRange field = .ok () ↔ inRange = true := by
  cases inRange <;> simp [validateNumber]

theorem check_ok {ε α : Type} {check : Except ε Unit} {next : Unit → Except ε α} {a : α} :
    (check >>= next) = .ok a ↔ check = .ok () ∧ next () = .ok a := by
  cases check with
  | error e => exact ⟨fun h => (by cases h), fun h => (by cases h.1)⟩
  | ok u => exact ⟨fun h => ⟨rfl, h⟩, fun h => h.2⟩

/-- **`vireo_config_validate`** accepts the valid configurations. -/
theorem validate_iff {c : Config} : validate c = .ok () ↔ c.Valid := by
  unfold validate
  simp only [check_ok, validateString_ok, validateNumber_ok, ipv4IsValid_iff, pathIsValid_iff, Bool.and_eq_true,
    decide_eq_true_eq, ge_iff_le, UInt16.le_iff_toNat_le, UInt32.le_iff_toNat_le, UInt64.le_iff_toNat_le]
  constructor
  · rintro ⟨⟨hlend, hladdr⟩, hport, ⟨hclow, hchigh⟩, ⟨hwlow, hwhigh⟩, ⟨hilow, hihigh⟩, ⟨hmlow, hmhigh⟩,
      ⟨hdend, hdroot, hdplain⟩, hgend, hgroot, hgplain⟩ g
    cases g with
    | none => exact ⟨trivial, .none false⟩
    | listenAddress => exact ⟨hlend, .listenAddress hladdr⟩
    | listenPort => exact ⟨trivial, .listenPort hport (Nat.le_of_lt_succ c.listenPort.toNat_lt)⟩
    | maxConnections => exact ⟨trivial, .maxConnections hclow hchigh⟩
    | workerCount => exact ⟨trivial, .workerCount hwlow hwhigh⟩
    | idleTimeout => exact ⟨trivial, .idleTimeout hilow hihigh⟩
    | logToStderr => exact ⟨trivial, .logToStderr _⟩
    | logMaxFileSize => exact ⟨trivial, .logMaxFileSize hmlow hmhigh⟩
    | dataDir => exact ⟨hdend, .dataDir hdroot hdplain⟩
    | logDir => exact ⟨hgend, .logDir hgroot hgplain⟩
  · intro h
    obtain ⟨hlend, hladdr⟩ := h .listenAddress
    obtain ⟨-, hport⟩ := h .listenPort
    obtain ⟨-, hconnections⟩ := h .maxConnections
    obtain ⟨-, hworkers⟩ := h .workerCount
    obtain ⟨-, hidle⟩ := h .idleTimeout
    obtain ⟨-, hsize⟩ := h .logMaxFileSize
    obtain ⟨hdend, hdata⟩ := h .dataDir
    obtain ⟨hgend, hlog⟩ := h .logDir
    cases hladdr with | listenAddress address =>
    cases hport with | listenPort plow phigh =>
    cases hconnections with | maxConnections clow chigh =>
    cases hworkers with | workerCount wlow whigh =>
    cases hidle with | idleTimeout ilow ihigh =>
    cases hsize with | logMaxFileSize mlow mhigh =>
    cases hdata with | dataDir droot dplain =>
    cases hlog with | logDir groot gplain =>
    exact ⟨⟨hlend, address⟩, plow, ⟨clow, chigh⟩, ⟨wlow, whigh⟩, ⟨ilow, ihigh⟩, ⟨mlow, mhigh⟩, ⟨hdend, droot, dplain⟩,
      hgend, groot, gplain⟩

end Vireo.Base
