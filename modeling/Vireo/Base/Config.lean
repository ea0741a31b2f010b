/-
  File:      Vireo/Base/Config.lean
  Subject:   THE CONFIGURATION (`src/base/config.c`): its text, its environment, and its file.

  A span of text is the list of its bytes, and a C string the list of those in front of its end. Null pointers
  do not exist here, but for the name and the value of an entry of the environment and for the file's path.
-/
import Vireo.Base.Result
import Vireo.Lib.Decimal
import Vireo.Protocol.NodeList

namespace Vireo.Base

open Lib Protocol

/-! ## 1. Values -/

/-- A text constant. -/
def literal (text : String) : Bytes := text.toList.map fun c => UInt8.ofNat c.toNat

/-- `VIREO_CONFIG_MAX_TEXT_SIZE`. -/
def maxTextSize : Nat := 65536
/-- `VIREO_CONFIG_MAX_LINE_SIZE`. -/
def maxLineSize : Nat := 2048
/-- `VIREO_CONFIG_MAX_VALUE_SIZE`. -/
def maxValueSize : Nat := 1023
/-- `VIREO_CONFIG_PATH_CAPACITY`. -/
def pathCapacity : Nat := 1024
/-- `VIREO_CONFIG_ADDRESS_CAPACITY`. -/
def addressCapacity : Nat := 16
/-- `VIREO_CONFIG_MAX_ENVIRONMENT_ITEMS`. -/
def maxEnvironmentItems : Nat := 9

/-- `vireo_config_field_t`. -/
inductive ConfigField where
  | none
  | listenAddress
  | listenPort
  | maxConnections
  | workerCount
  | idleTimeout
  | logToStderr
  | logMaxFileSize
  | dataDir
  | logDir
deriving DecidableEq, Inhabited

/-- The number of a field. -/
def ConfigField.number : ConfigField → UInt32
  | .none => 0
  | .listenAddress => 1
  | .listenPort => 2
  | .maxConnections => 3
  | .workerCount => 4
  | .idleTimeout => 5
  | .logToStderr => 6
  | .logMaxFileSize => 7
  | .dataDir => 8
  | .logDir => 9

/-- `vireo_config_source_t`. -/
inductive ConfigSource where
  | none
  | config
  | text
  | environment
  | file
deriving DecidableEq, Inhabited

/-- `vireo_config_issue_t`. -/
inductive ConfigIssue where
  | none
  | invalidArgument
  | textTooLarge
  | lineTooLong
  | valueTooLong
  | invalidCharacter
  | missingSeparator
  | emptyKey
  | unknownKey
  | duplicateKey
  | emptyValue
  | invalidInteger
  | invalidBoolean
  | invalidUnit
  | invalidAddress
  | invalidPath
  | valueOutOfRange
  | numericOverflow
  | tooManyEnvironmentItems
  | unknownEnvironment
  | duplicateEnvironment
  | fileOpenFailed
  | fileReadFailed
  | fileCloseFailed
deriving DecidableEq, Inhabited

/-- `vireo_config_t`. -/
structure Config where
  listenAddress : Cells UInt8 addressCapacity
  listenPort : UInt16
  maxConnections : UInt32
  workerCount : UInt32
  idleTimeoutMs : UInt64
  logToStderr : Bool
  logMaxFileSizeBytes : UInt64
  dataDir : Cells UInt8 pathCapacity
  logDir : Cells UInt8 pathCapacity
deriving DecidableEq

/-- `vireo_config_error_t`. -/
structure ConfigError where
  issue : ConfigIssue
  source : ConfigSource
  field : ConfigField
  line : Nat
  entryIndex : Nat
  systemErrno : Int
deriving DecidableEq, Inhabited

/-- `vireo_config_error_clear`. -/
def ConfigError.clear : ConfigError := ⟨.none, .none, .none, 0, 0, 0⟩

/-- `vireo_config_environment_t`. -/
structure EnvironmentEntry where
  name : Option Bytes
  value : Option Bytes
deriving DecidableEq

/-! ## 2. Spans -/

/-- `vireo_config_is_horizontal_space`. -/
def isHorizontalSpace (character : UInt8) : Bool := character = 0x20 || character = 0x09

variable (text : Bytes)

/-- `vireo_config_trim_horizontal_space`. -/
def trimHorizontalSpace : Bytes :=
  ((text.dropWhile isHorizontalSpace).reverse.dropWhile isHorizontalSpace).reverse

/-- `vireo_config_span_equals_literal`. -/
def spanEqualsLiteral (name : String) : Bool := text = literal name

/-- `vireo_config_bounded_string_length`. -/
def boundedStringLength : Option Nat := text.findIdx? (· = 0)

/-- The control bytes. -/
def isControl (byte : UInt8) : Bool := byte ≤ 0x1F || byte = 0x7F

/-- `vireo_config_copy_span`. -/
def copySpan {n : Nat} (destination : Cells UInt8 n) : Except Result (Cells UInt8 n) :=
  if text.length ≥ n then .error .range else .ok (destination.copy (text ++ [0]))

/-! ## 3. The parsers of values -/

/-- One turn of the loop of `vireo_config_parse_u64_decimal`. -/
def parseDigit (value : UInt64) (character : UInt8) : Except Result UInt64 :=
  if isDigit character = false then .error .invalidArgument
  else do
    let multiplied ← checkedU64Mul value 10
    checkedU64Add multiplied (UInt64.ofNat (digitValue character))

/-- `vireo_config_parse_u64_decimal`. -/
def parseU64Decimal : Except Result UInt64 :=
  if text = [] then .error .invalidArgument else text.foldlM parseDigit 0

/-- `vireo_config_parse_boolean`. -/
def parseBoolean : Except Result Bool :=
  if spanEqualsLiteral text "true" then .ok true
  else if spanEqualsLiteral text "false" then .ok false
  else .error .invalidArgument

/-- `vireo_config_parse_size_bytes` and `vireo_config_parse_duration_ms`: digits, then one of the units; no
    unit is the empty one. -/
def parseScaled (units : List (String × UInt64)) (text : Bytes) : Except Result UInt64 :=
  let digits := text.takeWhile isDigit
  let suffix := text.dropWhile isDigit
  if digits = [] then .error .invalidArgument
  else
    match units.find? fun u => spanEqualsLiteral suffix u.1 with
    | none => .error .invalidArgument
    | some u => do
      let value ← parseU64Decimal digits
      checkedU64Mul value u.2

/-- The units of a size. -/
def sizeUnits : List (String × UInt64) := [("", 1), ("B", 1), ("KiB", 1024), ("MiB", 1048576), ("GiB", 1073741824)]

/-- The units of a duration. -/
def durationUnits : List (String × UInt64) := [("", 1), ("ms", 1), ("s", 1000), ("m", 60000)]

/-- `vireo_config_parse_size_bytes`. -/
def parseSizeBytes : Except Result UInt64 := parseScaled sizeUnits text

/-- `vireo_config_parse_duration_ms`. -/
def parseDurationMs : Except Result UInt64 := parseScaled durationUnits text

/-- One part of an address: what is behind its digits. -/
def ipv4Part : Option Bytes :=
  let digits := text.takeWhile isDigit
  if digits.length > 3 then none
  else if digits.length = 0 then none
  else if digits.length > 1 ∧ digits.head? = some 0x30 then none
  else if decimalFrom 0 digits > 255 then none
  else some (text.dropWhile isDigit)

/-- The loop of `vireo_config_ipv4_is_valid`, with this many parts behind the next one. -/
def ipv4Parts : Nat → Bytes → Bool
  | 0, text => ipv4Part text = some []
  | k + 1, text =>
    match ipv4Part text with
    | some (0x2E :: rest) => ipv4Parts k rest
    | _ => false

/-- `vireo_config_ipv4_is_valid`. -/
def ipv4IsValid : Bool := ipv4Parts 3 text

/-- `vireo_config_path_is_valid`. -/
def pathIsValid : Bool := text.head? = some 0x2F && !text.any isControl

/-! ## 4. Fields -/

/-- `vireo_config_field_from_key`. -/
def fieldFromKey : ConfigField :=
  if spanEqualsLiteral text "listen_address" then .listenAddress
  else if spanEqualsLiteral text "listen_port" then .listenPort
  else if spanEqualsLiteral text "max_connections" then .maxConnections
  else if spanEqualsLiteral text "worker_count" then .workerCount
  else if spanEqualsLiteral text "idle_timeout" then .idleTimeout
  else if spanEqualsLiteral text "log_to_stderr" then .logToStderr
  else if spanEqualsLiteral text "log_max_file_size" then .logMaxFileSize
  else if spanEqualsLiteral text "data_dir" then .dataDir
  else if spanEqualsLiteral text "log_dir" then .logDir
  else .none

/-- `vireo_config_field_from_environment_name`. -/
def fieldFromEnvironmentName : ConfigField :=
  if spanEqualsLiteral text "VIREO_LISTEN_ADDRESS" then .listenAddress
  else if spanEqualsLiteral text "VIREO_LISTEN_PORT" then .listenPort
  else if spanEqualsLiteral text "VIREO_MAX_CONNECTIONS" then .maxConnections
  else if spanEqualsLiteral text "VIREO_WORKER_COUNT" then .workerCount
  else if spanEqualsLiteral text "VIREO_IDLE_TIMEOUT" then .idleTimeout
  else if spanEqualsLiteral text "VIREO_LOG_TO_STDERR" then .logToStderr
  else if spanEqualsLiteral text "VIREO_LOG_MAX_FILE_SIZE" then .logMaxFileSize
  else if spanEqualsLiteral text "VIREO_DATA_DIR" then .dataDir
  else if spanEqualsLiteral text "VIREO_LOG_DIR" then .logDir
  else .none

/-- The end of an assignment of a number: `store` puts it into the candidate. -/
def assignNumber (minimum maximum : UInt64) (syntaxIssue : ConfigIssue) (result : Except Result UInt64)
    (store : UInt64 → Config) : Except (Result × ConfigIssue) Config :=
  match result with
  | .error e => .error (e, if e = .overflow then .numericOverflow else syntaxIssue)
  | .ok value =>
    if value < minimum ∨ value > maximum then .error (.range, .valueOutOfRange) else .ok (store value)

/-- The end of an assignment of a string: `store` puts it into the candidate. -/
def assignString {n : Nat} (valid : Bool) (issue : ConfigIssue) (text : Bytes) (destination : Cells UInt8 n)
    (store : Cells UInt8 n → Config) : Except (Result × ConfigIssue) Config :=
  if valid = false then .error (.invalidArgument, issue)
  else
    match copySpan text destination with
    | .error e => .error (e, .valueTooLong)
    | .ok copied => .ok (store copied)

/-- `vireo_config_assign_field`: the candidate, or the result and the issue. -/
def assignField (candidate : Config) (field : ConfigField) (text : Bytes) : Except (Result × ConfigIssue) Config :=
  if text.length = 0 then .error (.invalidArgument, .emptyValue)
  else if text.length > maxValueSize then .error (.range, .valueTooLong)
  else if text.any isControl then .error (.invalidArgument, .invalidCharacter)
  else
    match field with
    | .listenAddress =>
      assignString (ipv4IsValid text) .invalidAddress text candidate.listenAddress fun s =>
        { candidate with listenAddress := s }
    | .dataDir =>
      assignString (pathIsValid text) .invalidPath text candidate.dataDir fun s => { candidate with dataDir := s }
    | .logDir =>
      assignString (pathIsValid text) .invalidPath text candidate.logDir fun s => { candidate with logDir := s }
    | .logToStderr =>
      match parseBoolean text with
      | .error e => .error (e, .invalidBoolean)
      | .ok enabled => .ok { candidate with logToStderr := enabled }
    | .listenPort =>
      assignNumber 1 65535 .invalidInteger (parseU64Decimal text) fun v =>
        { candidate with listenPort := v.toUInt16 }
    | .maxConnections =>
      assignNumber 1 65536 .invalidInteger (parseU64Decimal text) fun v =>
        { candidate with maxConnections := v.toUInt32 }
    | .workerCount =>
      assignNumber 1 256 .invalidInteger (parseU64Decimal text) fun v => { candidate with workerCount := v.toUInt32 }
    | .idleTimeout =>
      assignNumber 1 86400000 .invalidUnit (parseDurationMs text) fun v => { candidate with idleTimeoutMs := v }
    | .logMaxFileSize =>
      assignNumber 1048576 1073741824 .invalidUnit (parseSizeBytes text) fun v =>
        { candidate with logMaxFileSizeBytes := v }
    | .none => .error (.invalidArgument, .invalidArgument)

/-! ## 5. Validation -/

/-- A string of a configuration ends in its array and is valid. -/
def validateString (valid : Bytes → Bool) (issue : ConfigIssue) (field : ConfigField) :
    Except (Result × ConfigError) Unit :=
  match boundedStringLength text with
  | none => .error (.range, ⟨.valueTooLong, .config, field, 0, 0, 0⟩)
  | some length =>
    if valid (text.take length) = false then .error (.invalidArgument, ⟨issue, .config, field, 0, 0, 0⟩)
    else .ok ()

/-- A number of a configuration is in its range. -/
def validateNumber (inRange : Bool) (field : ConfigField) : Except (Result × ConfigError) Unit :=
  if inRange = false then .error (.range, ⟨.valueOutOfRange, .config, field, 0, 0, 0⟩) else .ok ()

/-- `vireo_config_validate`. The type of the port keeps it below its maximum. -/
def validate (config : Config) : Except (Result × ConfigError) Unit := do
  validateString config.listenAddress.val ipv4IsValid .invalidAddress .listenAddress
  validateNumber (config.listenPort ≥ 1) .listenPort
  validateNumber (config.maxConnections ≥ 1 && config.maxConnections ≤ 65536) .maxConnections
  validateNumber (config.workerCount ≥ 1 && config.workerCount ≤ 256) .workerCount
  validateNumber (config.idleTimeoutMs ≥ 1 && config.idleTimeoutMs ≤ 86400000) .idleTimeout
  validateNumber (config.logMaxFileSizeBytes ≥ 1048576 && config.logMaxFileSizeBytes ≤ 1073741824) .logMaxFileSize
  validateString config.dataDir.val pathIsValid .invalidPath .dataDir
  validateString config.logDir.val pathIsValid .invalidPath .logDir

/-- `vireo_config_defaults`. -/
def defaults : Config where
  listenAddress := (Cells.fill _ 0).copy (literal "127.0.0.1")
  listenPort := 9000
  maxConnections := 1024
  workerCount := 4
  idleTimeoutMs := 60000
  logToStderr := true
  logMaxFileSizeBytes := 67108864
  dataDir := (Cells.fill _ 0).copy (literal "/var/lib/vireo")
  logDir := (Cells.fill _ 0).copy (literal "/var/log/vireo")

/-! ## 6. Text -/

/-- A candidate, and the fields that were seen. -/
abbrev Candidate := Config × UInt32

/-- `field_mask`. -/
def fieldMask (field : ConfigField) : UInt32 := 1 <<< (field.number - 1)

/-- A line is taken apart: nothing when it is blank or a comment, or the field and the trimmed value. -/
def lineEntry (text : Bytes) : Except (Result × ConfigIssue) (Option (ConfigField × Bytes)) :=
  if text.length > maxLineSize then .error (.range, .lineTooLong)
  else if text.any fun byte => isControl byte && byte ≠ 0x09 then .error (.invalidArgument, .invalidCharacter)
  else
    let text := trimHorizontalSpace text
    if text = [] then .ok none
    else if text.head? = some 0x23 then .ok none
    else
      let front := text.takeWhile (· ≠ 0x3D)
      match text.dropWhile (· ≠ 0x3D) with
      | [] => .error (.invalidArgument, .missingSeparator)
      | _ :: back =>
        let key := trimHorizontalSpace front
        if key = [] then .error (.invalidArgument, .emptyKey)
        else if fieldFromKey key = .none then .error (.invalidArgument, .unknownKey)
        else .ok (some (fieldFromKey key, trimHorizontalSpace back))

/-- A field that was not seen yet is assigned. -/
def applyEntry (duplicate : ConfigIssue) (s : Candidate) (field : ConfigField) (value : Bytes) :
    Except (Result × ConfigIssue) Candidate :=
  if s.2 &&& fieldMask field ≠ 0 then .error (.invalidArgument, duplicate)
  else
    match assignField s.1 field value with
    | .error e => .error e
    | .ok candidate => .ok (candidate, s.2 ||| fieldMask field)

/-- `vireo_config_parse_line`. -/
def parseLine (s : Candidate) (text : Bytes) (line : Nat) : Except (Result × ConfigError) Candidate :=
  match lineEntry text with
  | .error e => .error (e.1, ⟨e.2, .text, .none, line, 0, 0⟩)
  | .ok none => .ok s
  | .ok (some entry) =>
    match applyEntry .duplicateKey s entry.1 entry.2 with
    | .error e => .error (e.1, ⟨e.2, .text, entry.1, line, 0, 0⟩)
    | .ok s => .ok s

/-- The end of a line that an LF ends: a CR in front of the LF is not part of it. -/
def dropReturn (line : Bytes) : Bytes := if line.getLast? = some 0x0D then line.dropLast else line

/-- The loop of `vireo_config_parse_text`. A text has at most as many lines as bytes. -/
def parseLines : Nat → Bytes → Nat → Candidate → Except (Result × ConfigError) Candidate
  | 0, _, _, s => .ok s
  | k + 1, text, line, s =>
    if text = [] then .ok s
    else
      let body := text.takeWhile (· ≠ 0x0A)
      let rest := text.dropWhile (· ≠ 0x0A)
      match parseLine s (if rest ≠ [] then dropReturn body else body) line with
      | .error e => .error e
      | .ok s => parseLines k (rest.drop 1) (line + 1) s

/-- What a call returns and leaves in its outputs. -/
structure ConfigAnswer where
  result : Result
  outConfig : Config
  outError : ConfigError

/-- The end of a call: a failure leaves the configuration alone. -/
def ConfigAnswer.of (out : Config) : Except (Result × ConfigError) Config → ConfigAnswer
  | .error e => ⟨e.1, out, e.2⟩
  | .ok config => ⟨.ok, config, .clear⟩

/-- `vireo_config_parse_text` up to its output. -/
def parseCandidate (base : Config) (text : Bytes) : Except (Result × ConfigError) Config := do
  validate base
  if text.length > maxTextSize then .error (.range, ⟨.textTooLarge, .text, .none, 0, 0, 0⟩)
  else
    let s ← parseLines text.length text 1 (base, 0)
    validate s.1
    .ok s.1

/-- `vireo_config_parse_text`. -/
def parseText (base : Config) (text : Bytes) (out : Config) : ConfigAnswer := .of out (parseCandidate base text)

/-! ## 7. Environment and file -/

/-- One turn of the loop of `vireo_config_apply_environment`. -/
def applyEnvironmentEntry (s : Candidate) (entry : EnvironmentEntry) (entryIndex : Nat) :
    Except (Result × ConfigError) Candidate :=
  match entry.name, entry.value with
  | some name, some value =>
    let field := fieldFromEnvironmentName name
    if field = .none then .error (.invalidArgument, ⟨.unknownEnvironment, .environment, .none, 0, entryIndex, 0⟩)
    else
      match applyEntry .duplicateEnvironment s field (trimHorizontalSpace value) with
      | .error e => .error (e.1, ⟨e.2, .environment, field, 0, entryIndex, 0⟩)
      | .ok s => .ok s
  | _, _ => .error (.invalidArgument, ⟨.invalidArgument, .environment, .none, 0, entryIndex, 0⟩)

/-- The loop of `vireo_config_apply_environment`. -/
def applyEntries : List EnvironmentEntry → Nat → Candidate → Except (Result × ConfigError) Candidate
  | [], _, s => .ok s
  | entry :: entries, entryIndex, s =>
    match applyEnvironmentEntry s entry entryIndex with
    | .error e => .error e
    | .ok s => applyEntries entries (entryIndex + 1) s

/-- `vireo_config_apply_environment` up to its output. -/
def environmentCandidate (base : Config) (environment : List EnvironmentEntry) :
    Except (Result × ConfigError) Config := do
  validate base
  if environment.length > maxEnvironmentItems then
    .error (.range, ⟨.tooManyEnvironmentItems, .environment, .none, 0, 0, 0⟩)
  else
    let s ← applyEntries environment 1 (base, 0)
    validate s.1
    .ok s.1

/-- `vireo_config_apply_environment`. -/
def applyEnvironment (base : Config) (environment : List EnvironmentEntry) (out : Config) : ConfigAnswer :=
  .of out (environmentCandidate base environment)

/-- What the file system answers: each call may fail, and `text` is what is read, up to one byte more than the
    largest text. -/
structure ConfigFile where
  openErrno : Option Int
  text : Bytes
  readErrno : Option Int
  closeErrno : Option Int
deriving DecidableEq

/-- `ENOENT`. -/
def enoent : Int := 2

/-- The file of `vireo_config_load`, from its opening to its closing. -/
def loadFile (candidate : Config) (file : ConfigFile) : Except (Result × ConfigError) Config :=
  match file.openErrno with
  | some e =>
    .error (if e = enoent then .notFound else .io, ⟨.fileOpenFailed, .file, .none, 0, 0, e⟩)
  | none =>
    let parsed : Except (Result × ConfigError) Config :=
      match file.readErrno with
      | some e => .error (.io, ⟨.fileReadFailed, .file, .none, 0, 0, e⟩)
      | none =>
        if file.text.length > maxTextSize then .error (.range, ⟨.textTooLarge, .text, .none, 0, 0, 0⟩)
        else parseCandidate candidate file.text
    match parsed, file.closeErrno with
    | .error e, _ => .error e
    | .ok _, some e => .error (.io, ⟨.fileCloseFailed, .file, .none, 0, 0, e⟩)
    | .ok next, none => .ok next

/-- The defaults, or what the file makes of them when there is one. -/
def fileCandidate (filePath : Option Bytes) (file : ConfigFile) : Except (Result × ConfigError) Config :=
  if filePath.isSome then loadFile defaults file else .ok defaults

/-- `vireo_config_load` up to its output. -/
def loadCandidate (filePath : Option Bytes) (file : ConfigFile) (environment : List EnvironmentEntry) :
    Except (Result × ConfigError) Config :=
  if filePath = some [] then .error (.invalidArgument, ⟨.invalidArgument, .none, .none, 0, 0, 0⟩)
  else do
    let candidate ← fileCandidate filePath file
    let next ← environmentCandidate candidate environment
    validate next
    .ok next

/-- `vireo_config_load`. -/
def load (filePath : Option Bytes) (file : ConfigFile) (environment : List EnvironmentEntry) (out : Config) :
    ConfigAnswer :=
  .of out (loadCandidate filePath file environment)

end Vireo.Base
