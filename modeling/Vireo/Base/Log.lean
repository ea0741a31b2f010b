/-
  File:      Vireo/Base/Log.lean
  Subject:   LOG LINES CANNOT BE FORGED (`vireo_log_format` of `src/base/log.c`).
-/
import Vireo.Base.Config
import Vireo.Lib.Positional

namespace Vireo.Base

open Lib Protocol List

/-! ## 1. The formatter -/

/-- `size` bytes of `data`. -/
structure LogSpan where
  data : Option Bytes
  size : Nat

def LogSpan.bytes (s : LogSpan) : Bytes := (s.data.getD []).take s.size

structure LogRecord where
  level : Int
  module : LogSpan
  connectionId : UInt64
  generation : UInt64
  sequence : UInt32
  requestId : LogSpan
  taskId : LogSpan
  message : LogSpan

@[ext]
structure LogTimestamp where
  year : UInt16
  month : UInt8
  day : UInt8
  hour : UInt8
  minute : UInt8
  second : UInt8
  nanosecond : UInt32

structure LogWriter where
  data : Option Bytes
  size : Nat
  result : Result

/-- A writer without data only counts. -/
def LogWriter.append (w : LogWriter) (s : Bytes) : LogWriter :=
  if w.result ≠ .ok then w
  else
    match checkedSizeAdd w.size s.length with
    | .error e => { w with result := e }
    | .ok next => { w with data := w.data.map (overwrite · w.size s), size := next }

def logLevelName : Int → Bytes
  | 0 => literal "DEBUG"
  | 1 => literal "INFO"
  | 2 => literal "WARN"
  | 3 => literal "ERROR"
  | _ => literal "unknown"

/-- `vireo_log_append_number`, byte by byte. -/
def numberPieces (value width : Nat) : List Bytes :=
  (replicate (width - (numeral value).length) 0x30 ++ numeral value).map fun b => [b]

/-- A digit of `hex`. -/
def upperHex (n : UInt8) : UInt8 := if n < 10 then 0x30 + n else 0x37 + n

def escaped (b : UInt8) : Bytes :=
  if b = 0x0A then [0x5C, 0x6E]
  else if b = 0x0D then [0x5C, 0x72]
  else if b = 0x09 then [0x5C, 0x74]
  else if b = 0x22 ∨ b = 0x5C then [0x5C, b]
  else if 0x20 ≤ b ∧ b ≤ 0x7E then [b]
  else [0x5C, 0x78, upperHex (b >>> 4), upperHex (b &&& 0x0F)]

/-- `vireo_log_append_span`. -/
def spanPieces (s : LogSpan) : List Bytes := [0x22] :: s.bytes.map escaped ++ [[0x22]]

/-- `vireo_log_render`: what it appends, up to the line feed. -/
def logPieces (r : LogRecord) (t : LogTimestamp) (threadId : UInt64) : List Bytes :=
  numberPieces t.year.toNat 4 ++ literal "-" :: numberPieces t.month.toNat 2 ++
  literal "-" :: numberPieces t.day.toNat 2 ++ literal "T" :: numberPieces t.hour.toNat 2 ++
  literal ":" :: numberPieces t.minute.toNat 2 ++ literal ":" :: numberPieces t.second.toNat 2 ++
  literal "." :: numberPieces t.nanosecond.toNat 9 ++ literal "Z level=" :: logLevelName r.level ::
  literal " tid=" :: numberPieces threadId.toNat 0 ++ literal " module=" :: spanPieces r.module ++
  literal " connection_id=" :: numberPieces r.connectionId.toNat 0 ++
  literal " generation=" :: numberPieces r.generation.toNat 0 ++
  literal " sequence=" :: numberPieces r.sequence.toNat 0 ++
  literal " request_id=" :: spanPieces r.requestId ++ literal " task_id=" :: spanPieces r.taskId ++
  literal " message=" :: spanPieces r.message

def LogWriter.render (w : LogWriter) (r : LogRecord) (t : LogTimestamp) (threadId : UInt64) : LogWriter :=
  (logPieces r t threadId ++ [[0x0A]]).foldl LogWriter.append w

def LogTimestamp.valid (t : LogTimestamp) : Bool :=
  let leap := t.year % 4 = 0 ∧ (t.year % 100 ≠ 0 ∨ t.year % 400 = 0)
  let days := if t.month = 2 ∧ leap then 29
    else [31, 28, 31, 30, 31, 30, 31, 31, 30, 31, 30, 31].getD (t.month.toNat - 1) 0
  ¬ (t.year < 1970 ∨ t.year > 9999 ∨ t.month < 1 ∨ t.month > 12 ∨ t.hour > 23 ∨ t.minute > 59 ∨
    t.second > 59 ∨ t.nanosecond > 999999999) ∧ 1 ≤ t.day ∧ t.day.toNat ≤ days

def LogSpan.validate (s : LogSpan) (limit : Nat) : Result :=
  if s.size > limit then .range else if s.size ≠ 0 ∧ s.data = none then .invalidArgument else .ok

/-- `VIREO_LOG_MAX_LINE_SIZE`. -/
def logMaxLineSize : Nat := 32768

/-- `vireo_log_format` up to the end of its first pass: the length of the line. -/
def logMeasure (r : LogRecord) (t : LogTimestamp) (threadId : UInt64) (capacity : Nat) : Except Result Nat :=
  if threadId = 0 ∨ r.level < 0 ∨ r.level > 3 then .error .invalidArgument
  else if t.valid = false then .error .range
  else
    match [r.module.validate 64, r.requestId.validate 128, r.taskId.validate 128, r.message.validate 4096].find?
        (· != .ok) with
    | some e => .error e
    | none =>
      let measure := (LogWriter.mk none 0 .ok).render r t threadId
      if measure.result ≠ .ok then .error measure.result
      else if measure.size > logMaxLineSize then .error .range
      else
        match checkedSizeAdd measure.size 1 with
        | .error e => .error e
        | .ok required => if capacity < required then .error .range else .ok measure.size

/-- `vireo_log_format`: the result, the buffer and `out_size`. What is `none` is a null pointer. -/
def logFormat (record : Option LogRecord) (timestamp : Option LogTimestamp) (threadId : UInt64)
    (buffer : Option Bytes) (capacity : Nat) (outSize : Option Nat) : Result × Option Bytes × Option Nat :=
  match record, timestamp, buffer, outSize with
  | some r, some t, some b, some _ =>
    match logMeasure r t threadId capacity with
    | .error e => (e, buffer, outSize)
    | .ok _ =>
      let output := (LogWriter.mk (some b) 0 .ok).render r t threadId
      (.ok, output.data.map (overwrite · output.size [0]), some output.size)
  | _, _, _, _ => (.invalidArgument, buffer, outSize)

/-- The line that a call left. -/
def logged (o : Result × Option Bytes × Option Nat) : Bytes := (o.2.1.getD []).take (o.2.2.getD 0)

/-! ## 2. Both passes -/

theorem append_failed {w : LogWriter} (h : w.result ≠ .ok) (ps : List Bytes) :
    ps.foldl LogWriter.append w = w := by
  induction ps with
  | nil => rfl
  | cons s ps ih => rw [foldl_cons, LogWriter.append, if_pos h, ih]

/-- **A pass appends the whole line**, unless the sum of the lengths cannot be represented. -/
theorem append_all (ps : List Bytes) (w : LogWriter) (hw : w.result = .ok) (hs : w.size ≤ sizeMax)
    (hd : ∀ d ∈ w.data, w.size ≤ d.length) :
    (w.size + ps.flatten.length ≤ sizeMax → ps.foldl LogWriter.append w =
      ⟨w.data.map (overwrite · w.size ps.flatten), w.size + ps.flatten.length, .ok⟩) ∧
    (¬ w.size + ps.flatten.length ≤ sizeMax → (ps.foldl LogWriter.append w).result ≠ .ok) := by
  induction ps generalizing w with
  | nil =>
    obtain ⟨data, size, result⟩ := w
    obtain rfl : result = .ok := hw
    simp [hs]
  | cons s ps ih =>
    rw [foldl_cons, flatten_cons, length_append]
    by_cases hfit : w.size + s.length ≤ sizeMax
    · have hstep : w.append s = ⟨w.data.map (overwrite · w.size s), w.size + s.length, .ok⟩ := by
        rw [LogWriter.append, if_neg (not_not.mpr hw), checkedSizeAdd, if_neg (by omega)]
        simp [hw]
      have hdata : ∀ d ∈ w.data.map (overwrite · w.size s), w.size + s.length ≤ d.length := by
        intro d hmem
        obtain ⟨d', hd', rfl⟩ := Option.map_eq_some_iff.mp hmem
        have := hd d' hd'
        simp only [overwrite, length_append, length_take, length_drop]
        omega
      obtain ⟨hok, hbad⟩ := ih ⟨w.data.map (overwrite · w.size s), w.size + s.length, .ok⟩ rfl hfit hdata
      rw [hstep]
      refine ⟨fun h => ?_, fun h => hbad (by show ¬ w.size + s.length + _ ≤ _; omega)⟩
      rw [hok (by show w.size + s.length + _ ≤ _; omega)]
      simp only [Option.map_map, LogWriter.mk.injEq, and_true]
      refine ⟨Option.map_congr fun d hmem => overwrite_append _ (hd d hmem), Nat.add_assoc ..⟩
    · have hstep : (w.append s).result ≠ .ok := by
        rw [LogWriter.append, if_neg (not_not.mpr hw), checkedSizeAdd, if_pos (by omega)]
        exact Result.overflow_ne_ok
      rw [append_failed hstep]
      exact ⟨fun h => absurd h (by omega), fun _ => hstep⟩

/-- The line. -/
def logLine (r : LogRecord) (t : LogTimestamp) (threadId : UInt64) : Bytes :=
  (logPieces r t threadId).flatten ++ [0x0A]

theorem render_eq (d : Option Bytes) (r : LogRecord) (t : LogTimestamp) (threadId : UInt64) :
    ((logLine r t threadId).length ≤ sizeMax → (LogWriter.mk d 0 .ok).render r t threadId =
      ⟨d.map (overwrite · 0 (logLine r t threadId)), (logLine r t threadId).length, .ok⟩) ∧
    (¬ (logLine r t threadId).length ≤ sizeMax → ((LogWriter.mk d 0 .ok).render r t threadId).result ≠ .ok) := by
  have h := append_all (logPieces r t threadId ++ [[0x0A]]) ⟨d, 0, .ok⟩ rfl (Nat.zero_le _) fun _ _ => Nat.zero_le _
  rw [flatten_append, flatten_singleton, Nat.zero_add] at h
  exact h

theorem logMeasure_spec (r : LogRecord) (t : LogTimestamp) (threadId : UInt64) (capacity : Nat) :
    match logMeasure r t threadId capacity with
    | .error e => e ≠ .ok
    | .ok n => (0 ≤ r.level ∧ r.level ≤ 3) ∧ n = (logLine r t threadId).length ∧
        ((LogWriter.mk none 0 .ok).render r t threadId).size = n ∧ n ≤ logMaxLineSize := by
  obtain ⟨hok, hbad⟩ := render_eq none r t threadId
  generalize hm : logMeasure r t threadId capacity = m
  unfold logMeasure at hm
  generalize (LogWriter.mk none 0 .ok).render r t threadId = measure at hok hbad hm ⊢
  split at hm
  · subst hm
    exact nofun
  next hlevel =>
  split at hm
  · subst hm
    exact nofun
  split at hm
  next e he =>
    subst hm
    simpa using find?_some he
  dsimp only at hm
  split at hm
  · subst hm
    assumption
  next hresult =>
  split at hm
  · subst hm
    exact nofun
  next hmax =>
  have hmeasure := hok (not_not.mp (mt hbad hresult))
  rw [checkedSizeAdd, if_neg (by rw [sizeMax]; unfold logMaxLineSize at hmax; omega)] at hm
  dsimp only at hm
  split at hm <;> subst hm
  · exact nofun
  · exact ⟨by omega, by rw [hmeasure], rfl, by omega⟩

/-! ## 3. What a line says -/

section Split

variable {x x' l : Bytes} {v v' width : Nat} {b b' : UInt8}

/-- A byte that can be printed. -/
def isPrintable (b : UInt8) : Bool := 0x20 ≤ b && b ≤ 0x7E

theorem flatten_numberPieces (value width : Nat) : (numberPieces value width).flatten =
    replicate (width - (numeral value).length) 0x30 ++ numeral value := by
  rw [numberPieces, ← flatMap_def, flatMap_singleton']

theorem digits_numberPieces (value width : Nat) : ∀ b ∈ (numberPieces value width).flatten, isDigit b = true := by
  rw [flatten_numberPieces]
  intro b hb
  rcases mem_append.mp hb with zero | digit
  · rw [eq_of_mem_replicate zero]; rfl
  · exact all_eq_true.mp (isNumeral_numeral value).digits b digit

theorem decimalFrom_numberPieces (value width : Nat) :
    decimalFrom 0 (numberPieces value width).flatten = value := by
  have hzeros : ∀ k, decimalFrom 0 (replicate k 0x30) = 0 := fun k => by
    induction k with
    | zero => rfl
    | succ k ih => exact ih
  have hnumeral := decimalFrom_numeral value
  have hstart := hzeros (width - (numeral value).length)
  unfold decimalFrom at hnumeral hstart ⊢
  rw [flatten_numberPieces, foldl_append, hstart, hnumeral]

theorem number_split (hl : l.head?.any (!isDigit ·) = true)
    (h : (numberPieces v width).flatten ++ (l ++ x) = (numberPieces v' width).flatten ++ (l ++ x')) :
    v = v' ∧ x = x' := by
  have htake : ∀ v x, ((numberPieces v width).flatten ++ (l ++ x)).takeWhile isDigit =
      (numberPieces v width).flatten := fun v x => by
    obtain _ | ⟨c, l⟩ := l
    · cases hl
    · rw [takeWhile_append_of_pos (digits_numberPieces v width), cons_append,
        takeWhile_cons_of_neg (by simpa using hl), List.append_nil]
  have heq := congrArg (takeWhile isDigit) h
  rw [htake, htake] at heq
  rw [heq] at h
  refine ⟨?_, append_cancel_left (append_cancel_left h)⟩
  rw [← decimalFrom_numberPieces v width, heq, decimalFrom_numberPieces]

def hexValue (c : UInt8) : UInt8 := if c < 0x40 then c - 0x30 else c - 0x37

/-- The byte that was escaped so. -/
def unescaped : Bytes → UInt8
  | [0x5C, 0x6E] => 0x0A
  | [0x5C, 0x72] => 0x0D
  | [0x5C, 0x74] => 0x09
  | [0x5C, 0x78, h, l] => (hexValue h <<< 4) ||| hexValue l
  | [_, b] => b
  | [b] => b
  | _ => 0

theorem escaped_spec (b : UInt8) : unescaped (escaped b) = b ∧ (escaped b).all isPrintable = true := by
  have h : ∀ n : Fin 256, unescaped (escaped (UInt8.ofNat n)) = UInt8.ofNat n ∧
    (escaped (UInt8.ofNat n)).all isPrintable = true := by decide +kernel
  have hb := h ⟨b.toNat, b.toNat_lt⟩
  rwa [UInt8.ofNat_toNat] at hb

theorem escaped_cases (b : UInt8) : (escaped b = [b] ∧ b ≠ 0x5C ∧ b ≠ 0x22) ∨
    (∃ d, escaped b = [0x5C, d] ∧ d ≠ 0x78) ∨ ∃ h l, escaped b = [0x5C, 0x78, h, l] := by
  unfold escaped
  split
  · exact .inr (.inl ⟨_, rfl, by decide⟩)
  split
  · exact .inr (.inl ⟨_, rfl, by decide⟩)
  split
  · exact .inr (.inl ⟨_, rfl, by decide⟩)
  split
  next hb => exact .inr (.inl ⟨b, rfl, by rcases hb with rfl | rfl <;> decide⟩)
  next hb =>
    split
    · exact .inl ⟨rfl, fun h => hb (.inr h), fun h => hb (.inl h)⟩
    · exact .inr (.inr ⟨_, _, rfl⟩)

theorem escaped_split (h : escaped b ++ x = escaped b' ++ x') : b = b' ∧ x = x' := by
  have hlength : (escaped b).length = (escaped b').length := by
    rcases escaped_cases b with ⟨hb, h1, -⟩ | ⟨d, hb, h1⟩ | ⟨d, e, hb⟩ <;>
      rcases escaped_cases b' with ⟨hb', h1', -⟩ | ⟨d', hb', h1'⟩ | ⟨d', e', hb'⟩ <;>
      rw [hb, hb'] at h ⊢ <;> simp_all
  obtain ⟨heq, hrest⟩ := append_inj h hlength
  exact ⟨by rw [← (escaped_spec b).1, heq, (escaped_spec b').1], hrest⟩

theorem quoted_split {bs bs' : Bytes}
    (h : (bs.map escaped).flatten ++ 0x22 :: x = (bs'.map escaped).flatten ++ 0x22 :: x') : bs = bs' ∧ x = x' := by
  have hquote : ∀ (b : UInt8) (y z : Bytes), escaped b ++ y ≠ 0x22 :: z := fun b y z hb => by
    rcases escaped_cases b with ⟨he, -, h1⟩ | ⟨d, he, -⟩ | ⟨d, e, he⟩ <;> rw [he] at hb <;> simp_all
  induction bs generalizing bs' with
  | nil =>
    cases bs' with
    | nil => exact ⟨rfl, (cons.inj h).2⟩
    | cons b' bs' => exact absurd (h.trans (append_assoc ..)).symm (hquote _ _ _)
  | cons b bs ih =>
    cases bs' with
    | nil => exact absurd ((append_assoc ..).symm.trans h) (hquote _ _ _)
    | cons b' bs' =>
      simp only [map_cons, flatten_cons, append_assoc] at h
      obtain ⟨rfl, hrest⟩ := escaped_split h
      obtain ⟨rfl, hx⟩ := ih hrest
      exact ⟨rfl, hx⟩

theorem span_split {s s' : LogSpan} (h : (spanPieces s).flatten ++ x = (spanPieces s').flatten ++ x') :
    s.bytes = s'.bytes ∧ x = x' := by
  simp only [spanPieces, flatten_append, flatten_cons, flatten_nil, append_assoc, cons_append, nil_append] at h
  exact quoted_split (cons.inj h).2

theorem level_split {i j : Int} (hi : 0 ≤ i ∧ i ≤ 3) (hj : 0 ≤ j ∧ j ≤ 3)
    (h : logLevelName i ++ (literal " tid=" ++ x) = logLevelName j ++ (literal " tid=" ++ x')) :
    i = j ∧ x = x' := by
  obtain rfl | rfl | rfl | rfl : i = 0 ∨ i = 1 ∨ i = 2 ∨ i = 3 := by omega
  all_goals
    obtain rfl | rfl | rfl | rfl : j = 0 ∨ j = 1 ∨ j = 2 ∨ j = 3 := by omega
    all_goals
      revert h
      simp [logLevelName, literal]

end Split

/-- What two inputs say is the same. -/
structure SameLog (r : LogRecord) (t : LogTimestamp) (threadId : UInt64) (r' : LogRecord) (t' : LogTimestamp)
    (threadId' : UInt64) : Prop where
  timestamp : t = t'
  level : r.level = r'.level
  thread : threadId = threadId'
  module : r.module.bytes = r'.module.bytes
  connection : r.connectionId = r'.connectionId
  generation : r.generation = r'.generation
  sequence : r.sequence = r'.sequence
  request : r.requestId.bytes = r'.requestId.bytes
  task : r.taskId.bytes = r'.taskId.bytes
  message : r.message.bytes = r'.message.bytes

section Line

variable {r r' : LogRecord} {t t' : LogTimestamp} {threadId threadId' : UInt64}

theorem printable_logPieces (hlevel : 0 ≤ r.level ∧ r.level ≤ 3) :
    (logPieces r t threadId).flatten.all isPrintable = true := by
  have number : ∀ v w, (numberPieces v w).flatten.all isPrintable = true := fun v w =>
    all_eq_true.mpr fun b hb => by
      have hdigit := isDigit_iff.mp (digits_numberPieces v w b hb)
      simp only [isPrintable, Bool.and_eq_true, decide_eq_true_eq, UInt8.le_iff_toNat_le]
      exact ⟨by simp; omega, by simp; omega⟩
  have span : ∀ s : LogSpan, (spanPieces s).flatten.all isPrintable = true := fun s => by
    simp only [spanPieces, flatten_append, flatten_cons, flatten_nil, all_append, all_flatten, all_map,
      cons_append, all_cons, all_nil]
    rw [show s.bytes.all ((fun x => x.all isPrintable) ∘ escaped) = true from
      all_eq_true.mpr fun b _ => (escaped_spec b).2]
    rfl
  have level : (logLevelName r.level).all isPrintable = true := by
    obtain h | h | h | h : r.level = 0 ∨ r.level = 1 ∨ r.level = 2 ∨ r.level = 3 := by omega
    all_goals
      rw [h]
      decide
  simp only [logPieces, flatten_append, flatten_cons, all_append, number, span, level, Bool.and_true,
    Bool.true_and]
  decide

/-- **Two lines are the same only if all that they say is.** -/
theorem logLine_inj (hlevel : 0 ≤ r.level ∧ r.level ≤ 3) (hlevel' : 0 ≤ r'.level ∧ r'.level ≤ 3)
    (h : logLine r t threadId = logLine r' t' threadId') :
    SameLog r t threadId r' t' threadId' := by
  simp only [logLine, logPieces, flatten_append, flatten_cons, append_assoc] at h
  obtain ⟨hyear, h⟩ := number_split (by decide) h
  obtain ⟨hmonth, h⟩ := number_split (by decide) h
  obtain ⟨hday, h⟩ := number_split (by decide) h
  obtain ⟨hhour, h⟩ := number_split (by decide) h
  obtain ⟨hminute, h⟩ := number_split (by decide) h
  obtain ⟨hsecond, h⟩ := number_split (by decide) h
  obtain ⟨hnanosecond, h⟩ := number_split (by decide) h
  obtain ⟨hlevel, h⟩ := level_split hlevel hlevel' h
  obtain ⟨hthread, h⟩ := number_split (by decide) h
  obtain ⟨hmodule, h⟩ := span_split h
  obtain ⟨hconnection, h⟩ := number_split (by decide) (append_cancel_left h)
  obtain ⟨hgeneration, h⟩ := number_split (by decide) h
  obtain ⟨hsequence, h⟩ := number_split (by decide) h
  obtain ⟨hrequest, h⟩ := span_split h
  obtain ⟨htask, h⟩ := span_split (append_cancel_left h)
  obtain ⟨hmessage, -⟩ := span_split (append_cancel_left h)
  refine ⟨?_, hlevel, UInt64.toNat_inj.mp hthread, hmodule, UInt64.toNat_inj.mp hconnection,
    UInt64.toNat_inj.mp hgeneration, UInt32.toNat_inj.mp hsequence, hrequest, htask, hmessage⟩
  exact LogTimestamp.ext (UInt16.toNat_inj.mp hyear) (UInt8.toNat_inj.mp hmonth) (UInt8.toNat_inj.mp hday)
    (UInt8.toNat_inj.mp hhour) (UInt8.toNat_inj.mp hminute) (UInt8.toNat_inj.mp hsecond)
    (UInt32.toNat_inj.mp hnanosecond)

end Line

/-! ## 4. The call -/

/-- One line of printable text, as long as it was measured. -/
structure OneLine (r : LogRecord) (t : LogTimestamp) (threadId : UInt64) (o : Result × Option Bytes × Option Nat) :
    Prop where
  text : ∃ body, logged o = body ++ [0x0A] ∧ body.all isPrintable = true
  size : o.2.2 = some (logged o).length
  measured : ((LogWriter.mk none 0 .ok).render r t threadId).size = (logged o).length
  short : (logged o).length ≤ logMaxLineSize

theorem logFormat_cases (record : Option LogRecord) (timestamp : Option LogTimestamp) (threadId : UInt64)
    (buffer : Option Bytes) (capacity : Nat) (outSize : Option Nat) :
    let o := logFormat record timestamp threadId buffer capacity outSize
    (o.1 ≠ .ok ∧ o.2 = (buffer, outSize)) ∨ ∃ r t, record = some r ∧ timestamp = some t ∧ o.1 = .ok ∧
      (0 ≤ r.level ∧ r.level ≤ 3) ∧ logged o = logLine r t threadId ∧ OneLine r t threadId o := by
  unfold logFormat
  split
  next r t b n =>
    have hspec := logMeasure_spec r t threadId capacity
    split
    next e he => exact .inl ⟨by rwa [he] at hspec, rfl⟩
    next m hm =>
      rw [hm] at hspec
      obtain ⟨hlevel, hsize, hmeasured, hmax⟩ := hspec
      have hsmall : logMaxLineSize ≤ sizeMax := by decide
      have hrender := (render_eq (some b) r t threadId).1 (by omega)
      have hlogged : logged (.ok, ((LogWriter.mk (some b) 0 .ok).render r t threadId).data.map
          (overwrite · ((LogWriter.mk (some b) 0 .ok).render r t threadId).size [0]),
          some ((LogWriter.mk (some b) 0 .ok).render r t threadId).size) = logLine r t threadId := by
        rw [hrender]
        simp [logged, overwrite]
      refine .inr ⟨r, t, rfl, rfl, rfl, hlevel, hlogged, ⟨_, hlogged, printable_logPieces hlevel⟩, ?_, ?_, ?_⟩
      · rw [hlogged, hrender]
      · rw [hlogged, hmeasured, hsize]
      · rw [hlogged, ← hsize]
        exact hmax
  next => exact .inl ⟨Result.noConfusion, rfl⟩

/-- **Log lines cannot be forged**: an accepted call writes one line, which says what was logged, and a call
    that fails nothing. -/
theorem log_unforgeable :
    (∀ record timestamp threadId buffer capacity outSize,
      let o := logFormat record timestamp threadId buffer capacity outSize
      (o.1 ≠ .ok → o.2 = (buffer, outSize)) ∧
      (o.1 = .ok → ∃ r t, record = some r ∧ timestamp = some t ∧ OneLine r t threadId o)) ∧
    ∀ r t threadId buffer capacity outSize r' t' threadId' buffer' capacity' outSize',
      let o := logFormat (some r) (some t) threadId buffer capacity outSize
      let o' := logFormat (some r') (some t') threadId' buffer' capacity' outSize'
      o.1 = .ok → o'.1 = .ok → (logged o = logged o' ↔ SameLog r t threadId r' t' threadId') := by
  constructor
  · intro record timestamp threadId buffer capacity outSize
    obtain ⟨hno, hkept⟩ | ⟨r, t, hr, ht, hok, -, -, hline⟩ :=
      logFormat_cases record timestamp threadId buffer capacity outSize
    · exact ⟨fun _ => hkept, fun h => absurd h hno⟩
    · exact ⟨fun h => absurd hok h, fun _ => ⟨r, t, hr, ht, hline⟩⟩
  · intro r t threadId buffer capacity outSize r' t' threadId' buffer' capacity' outSize' o o' h h'
    obtain ⟨hno, -⟩ | ⟨r₀, t₀, hr, ht, -, hlevel, hline, -⟩ :=
      logFormat_cases (some r) (some t) threadId buffer capacity outSize
    · exact absurd h hno
    obtain ⟨hno, -⟩ | ⟨r₀', t₀', hr', ht', -, hlevel', hline', -⟩ :=
      logFormat_cases (some r') (some t') threadId' buffer' capacity' outSize'
    · exact absurd h' hno
    cases hr; cases ht; cases hr'; cases ht'
    refine (hline.congr hline').trans ⟨logLine_inj hlevel hlevel', fun same => ?_⟩
    unfold logLine logPieces spanPieces
    rw [same.timestamp, same.level, same.thread, same.module, same.connection, same.generation, same.sequence,
      same.request, same.task, same.message]

/-- A record with a quote and a line feed in it. -/
def spiteful : LogRecord := ⟨1, ⟨some [0x22], 1⟩, 1, 1, 1, ⟨none, 0⟩, ⟨none, 0⟩, ⟨some [0x0A], 1⟩⟩

theorem log_unforgeable_line :
    OneLine spiteful ⟨1970, 1, 1, 0, 0, 0, 0⟩ 1
      (logFormat (some spiteful) (some ⟨1970, 1, 1, 0, 0, 0, 0⟩) 1 (some (replicate 512 0)) 512 (some 0)) := by
  obtain ⟨r, t, hr, ht, hline⟩ := (log_unforgeable.1 (some spiteful) (some ⟨1970, 1, 1, 0, 0, 0, 0⟩) 1
    (some (replicate 512 0)) 512 (some 0)).2 (by decide +kernel)
  cases hr
  cases ht
  exact hline

end Vireo.Base
