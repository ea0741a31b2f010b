/-
  File:      Vireo/Protocol/NodeMessage.lean
  Subject:   MESSAGES: what an encoder and a decoder of one have to do to be inverse to each other.
-/
import Vireo.Protocol.NodeCommand

namespace Vireo.Protocol

open Lib

/-! ## 1. Messages -/

/-- A message of a command: the values that its encoder takes, what it makes of them, and how they come
    back. -/
structure NodeMessage (V : Type) where
  command : UInt16
  flags : UInt16
  Valid : V → Prop
  status : V → UInt16
  sequence : V → UInt32
  session : V → UInt32
  fields : V → List TlvField
  trimmed : V → V

namespace NodeMessage

variable {V : Type} (m : NodeMessage V)

def body (v : V) : Bytes := tlvCoding.encodeAll (m.fields v)

def header (v : V) : Header :=
  nodeHeader m.command m.flags (m.status v) (m.body v).length (m.sequence v) (m.session v)

/-- The frame of a value, and of its fields in another order. -/
def frameOf (v : V) (fields : List TlvField) : Bytes :=
  sealedFrame (m.header v) (tlvCoding.encodeAll fields)

def frame (v : V) : Bytes := m.frameOf v (m.fields v)

/-- What an encoder does; `frame` is its local buffer. -/
structure Encodes {n : Nat} (encode : V → Nat → Cells UInt8 n → Except Result Bytes) : Prop where
  fits : ∀ v capacity frame, m.Valid v → (m.frame v).length ≤ capacity →
    encode v capacity frame = .ok (m.frame v)
  short : ∀ v capacity frame, m.Valid v → capacity < (m.frame v).length →
    encode v capacity frame = .error .range
  invalid : ∀ v capacity frame, ¬ m.Valid v → encode v capacity frame = .error .invalidArgument

/-- What a decoder does behind the envelope. -/
structure Reads (precheck : Nat → Option NodeIssue) (validate : Header → Except (Result × CodecIssue) Unit)
    (rest : Header → Prop) (read : Header → Bytes → Except NodeIssue V) : Prop where
  validate_crc : ∀ h c, validate { h with crc32c := c } = validate h
  validate_sequence : ∀ h, validate h = .ok () → h.sequence ≠ 0
  rest_crc : ∀ (h : Header) c, rest { h with crc32c := c } ↔ rest h
  passes : ∀ v, m.Valid v → precheck (32 + (m.body v).length) = none ∧ (m.body v).length ≤ maxBodySize ∧
    validate (m.header v) = .ok () ∧ ¬ rest (m.header v)
  there : ∀ v, m.Valid v → read ((m.header v).sealedWith (m.body v)) (m.body v) = .ok (m.trimmed v)
  back : ∀ h body v, validate h = .ok () → ¬ rest h → h.bodyLen.toNat = body.length → h.command = m.command →
    h.flags = m.flags → read h body = .ok v →
    m.Valid v ∧ m.trimmed v = v ∧ m.status v = h.status ∧ m.sequence v = h.sequence ∧
      m.session v = h.sessionHandle ∧ ∃ fields, (m.fields v).Perm fields ∧ body = tlvCoding.encodeAll fields

/-- **The round trips of a message.** -/
structure RoundTrips {n : Nat} (encode : V → Nat → Cells UInt8 n → Except Result Bytes)
    (decode : Bytes → V → NodeDecoded V) : Prop where
  /-- The encoder takes the valid values, and needs room for their frames and no more. -/
  encodes : m.Encodes encode
  /-- A frame that was encoded is decoded as the value, without what is behind its lengths. -/
  there : ∀ v, m.Valid v → ∀ out, decode (m.frame v) out = ⟨.ok, m.trimmed v, .none⟩
  /-- A refusal leaves the output alone. -/
  unchanged : ∀ wire out, (decode wire out).result ≠ .ok → (decode wire out).out = out
  /-- What is decoded is valid, and comes back the same. -/
  valid : ∀ wire out v, decode wire out = ⟨.ok, v, .none⟩ → m.Valid v ∧ m.trimmed v = v
  /-- It is encoded into as many bytes as it came in, and these are decoded as it. -/
  again : ∀ wire out v, decode wire out = ⟨.ok, v, .none⟩ → ∀ frame out',
    ∃ wire', encode v wire.length frame = .ok wire' ∧ decode wire' out' = ⟨.ok, v, .none⟩
  /-- The frame that was decoded is, to the last byte, the frame of the value with its fields in some
      order. -/
  bytes : ∀ wire out v, decode wire out = ⟨.ok, v, .none⟩ →
    ∃ fields, (m.fields v).Perm fields ∧ wire = m.frameOf v fields
  /-- Its checksum is right. -/
  crc : ∀ wire out, (decode wire out).result = .ok →
    (frameCrc32cVerify (wire.take headerSize) (wire.drop headerSize)).1 = .ok
  /-- Nothing is decoded with a diagnosis. -/
  issue : ∀ wire out, (decode wire out).result = .ok → (decode wire out).issue = .none

variable {m}

theorem length_frame (v : V) : (m.frame v).length = 32 + (m.body v).length := length_sealedFrame _ _

theorem Encodes.of {n : Nat} {encode : V → Nat → Cells UInt8 n → Except Result Bytes}
    (hinvalid : ∀ v capacity frame, ¬ m.Valid v → encode v capacity frame = .error .invalidArgument)
    (hvalid : ∀ v capacity frame, m.Valid v → encode v capacity frame =
      if capacity < 32 + (m.body v).length then .error .range else .ok (m.frame v)) : m.Encodes encode := by
  refine ⟨fun v capacity frame hv hroom => ?_, fun v capacity frame hv hshort => ?_, hinvalid⟩
  · rw [length_frame] at hroom
    rw [hvalid v capacity frame hv, if_neg (by omega)]
  · rw [length_frame] at hshort
    rw [hvalid v capacity frame hv, if_pos hshort]

theorem length_encodeAll_perm {fields fields' : List TlvField} (h : fields.Perm fields') :
    (tlvCoding.encodeAll fields).length = (tlvCoding.encodeAll fields').length := by
  induction h with
  | nil => rfl
  | cons f _ ih =>
    rw [Coding.encodeAll_cons, Coding.encodeAll_cons, List.length_append, List.length_append, ih]
  | swap f g l =>
    simp only [Coding.encodeAll_cons, List.length_append]
    omega
  | trans _ _ ih ih' => exact ih.trans ih'

section RoundTrips

variable {n : Nat} {encode : V → Nat → Cells UInt8 n → Except Result Bytes} {precheck : Nat → Option NodeIssue}
  {validate : Header → Except (Result × CodecIssue) Unit} {rest : Header → Prop} [DecidablePred rest]
  {read : Header → Bytes → Except NodeIssue V}

section

variable (h : m.Reads precheck validate rest read)
include h

theorem Reads.decode_frame {v : V} (hv : m.Valid v) (out : V) :
    nodeDecode (nodeEnvelope precheck validate (NodeRefused m.command m.flags rest)) read (m.frame v) out =
      ⟨.ok, m.trimmed v, .none⟩ := by
  obtain ⟨hpre, hmax, hvalid, hgood⟩ := h.passes v hv
  have henv : nodeEnvelope precheck validate (NodeRefused m.command m.flags rest) (m.frame v) =
      .ok ((m.header v).sealedWith (m.body v)) :=
    nodeEnvelope_sealed h.validate_crc h.rest_crc hpre hmax hvalid hgood
  have hlen : ((m.header v).sealedWith (m.body v)).bodyLen.toNat = (m.body v).length :=
    length_nodeHeader m.command m.flags (m.status v) (m.sequence v) (m.session v) hmax
  have hdrop : (m.frame v).drop 32 = m.body v := rfl
  unfold nodeDecode
  rw [henv]
  dsimp only
  rw [hdrop, hlen, List.take_length, h.there v hv]
  rfl

theorem Reads.of_decode {wire : Bytes} {out : V}
    (hok : (nodeDecode (nodeEnvelope precheck validate (NodeRefused m.command m.flags rest)) read wire
      out).result = .ok) :
    ∃ v fields, nodeDecode (nodeEnvelope precheck validate (NodeRefused m.command m.flags rest)) read wire out =
        ⟨.ok, v, .none⟩ ∧ m.Valid v ∧ m.trimmed v = v ∧ (m.fields v).Perm fields ∧
      wire = m.frameOf v fields ∧ (tlvCoding.encodeAll fields).length ≤ maxBodySize := by
  unfold nodeDecode at hok ⊢
  cases henv : nodeEnvelope precheck validate (NodeRefused m.command m.flags rest) wire with
  | error issue =>
    rw [henv] at hok
    cases hok
  | ok header =>
    rw [henv] at hok
    dsimp only at hok ⊢
    obtain ⟨hpassed, hvalid, hcommand, hflags⟩ :=
      passed_of_nodeEnvelope h.validate_crc h.validate_sequence h.rest_crc henv
    have hbody : (wire.drop 32).take header.bodyLen.toNat = wire.drop 32 := hpassed.body
    rw [hbody] at hok ⊢
    cases hread : read header (wire.drop 32) with
    | error issue =>
      rw [hread] at hok
      cases hok
    | ok v =>
      obtain ⟨hgood, htrimmed, hstatus, hsequence, hsession, fields, hperm, hall⟩ :=
        h.back header (wire.drop 32) v hvalid hpassed.kept hpassed.length hcommand hflags hread
      have hmax : (m.body v).length ≤ maxBodySize := (h.passes v hgood).2.1
      have hlen : (m.body v).length = (tlvCoding.encodeAll fields).length := length_encodeAll_perm hperm
      refine ⟨v, fields, rfl, hgood, htrimmed, hperm, ?_, by omega⟩
      have hdrop : wire.drop headerSize = tlvCoding.encodeAll fields := hall
      unfold frameOf NodeMessage.header
      rw [hstatus, hsequence, hsession, hlen, ← hdrop]
      exact hpassed.bytes

/-- **An encoder and a decoder that do what they have to are inverse to each other.** -/
theorem Reads.roundTrips (hencode : m.Encodes encode) : m.RoundTrips encode
      (nodeDecode (nodeEnvelope precheck validate (NodeRefused m.command m.flags rest)) read) := by
  have hdecoded : ∀ {wire out v}, nodeDecode (nodeEnvelope precheck validate (NodeRefused m.command m.flags rest))
      read wire out = ⟨.ok, v, .none⟩ →
      m.Valid v ∧ m.trimmed v = v ∧ ∃ fields, (m.fields v).Perm fields ∧ wire = m.frameOf v fields := by
    intro wire out v hok
    obtain ⟨v', fields, hdecode, hgood, htrimmed, hperm, hwire, -⟩ := h.of_decode (congrArg NodeDecoded.result hok)
    rw [hok] at hdecode
    cases hdecode
    exact ⟨hgood, htrimmed, fields, hperm, hwire⟩
  refine ⟨hencode, fun v hv out => h.decode_frame hv out, fun wire out hbad => NodeDecoded.of_unchanged hbad,
    fun wire out v hok => ?_, fun wire out v hok buffer out' => ?_, fun wire out v hok => (hdecoded hok).2.2,
    fun wire out hok => ?_, fun wire out hok => ?_⟩
  · obtain ⟨hgood, htrimmed, -⟩ := hdecoded hok
    exact ⟨hgood, htrimmed⟩
  · obtain ⟨hgood, htrimmed, fields, hperm, hwire⟩ := hdecoded hok
    have hlen : (m.frame v).length = wire.length := by
      rw [hwire, frame, frameOf, frameOf, length_sealedFrame, length_sealedFrame, length_encodeAll_perm hperm]
    refine ⟨m.frame v, hencode.fits v _ buffer hgood hlen.le, ?_⟩
    rw [h.decode_frame hgood, htrimmed]
  · obtain ⟨v, fields, -, hgood, -, hperm, hwire, hmax⟩ := h.of_decode hok
    have hlen : (m.header v).bodyLen.toNat = (tlvCoding.encodeAll fields).length := by
      rw [← length_encodeAll_perm hperm]
      exact length_nodeHeader _ _ _ _ _ (h.passes v hgood).2.1
    rw [hwire, frameOf, take_sealedFrame, drop_sealedFrame]
    rw [frameCrc32cVerify_sealed hlen hmax]
  · obtain ⟨v, fields, hdecode, -⟩ := h.of_decode hok
    rw [hdecode]

end

end RoundTrips

end NodeMessage

/-! ## 2. Requests and responses -/

/-- `vireo_node_root_request_t` and its siblings. -/
structure NodeRequest (P : Type) where
  sequence : UInt32
  sessionHandle : UInt32
  payload : P
deriving DecidableEq

/-- `vireo_node_root_response_t` and its siblings. -/
structure NodeResponse (P : Type) where
  status : UInt16
  sequence : UInt32
  sessionHandle : UInt32
  payload : P
deriving DecidableEq

/-- What a body holds: the values that are taken, their fields, and how they come back. -/
structure NodePayload (P : Type) where
  Good : P → Prop
  fields : P → List TlvField
  trimmed : P → P

namespace NodePayload

variable {P : Type} (b : NodePayload P)

def body (p : P) : Bytes := tlvCoding.encodeAll (b.fields p)

/-- A reader of such bodies, behind an envelope that refuses some of their lengths. -/
structure Reads (refuse : UInt32 → Prop) (read : Bytes → Except NodeIssue P) : Prop where
  size : ∀ p, b.Good p → (b.body p).length ≤ maxBodySize ∧ ¬ refuse (UInt32.ofNat (b.body p).length)
  there : ∀ p, b.Good p → read (b.body p) = .ok (b.trimmed p)
  back : ∀ n body p, ¬ refuse n → n.toNat = body.length → read body = .ok p →
    b.Good p ∧ b.trimmed p = p ∧ ∃ fields, (b.fields p).Perm fields ∧ body = tlvCoding.encodeAll fields

/-- The request of a command. -/
def request (command : UInt16) : NodeMessage (NodeRequest P) where
  command := command
  flags := 0
  Valid v := v.sequence ≠ 0 ∧ b.Good v.payload
  status _ := 0
  sequence := NodeRequest.sequence
  session := NodeRequest.sessionHandle
  fields v := b.fields v.payload
  trimmed v := { v with payload := b.trimmed v.payload }

/-- The response of a command: the payload is there when the status is OK, and `zero` when it is not. -/
def response (command : UInt16) (allowed : List UInt16) (zero : P) : NodeMessage (NodeResponse P) where
  command := command
  flags := flagResponse
  Valid v := v.sequence ≠ 0 ∧ decide (v.status ∈ allowed) = true ∧
    if v.status = 0 then v.sessionHandle ≠ 0 ∧ b.Good v.payload else v.sessionHandle = 0 ∧ v.payload = zero
  status := NodeResponse.status
  sequence := NodeResponse.sequence
  session := NodeResponse.sessionHandle
  fields v := if v.status = 0 then b.fields v.payload else []
  trimmed v := if v.status = 0 then { v with payload := b.trimmed v.payload } else v

end NodePayload

/-- The decoder of a request. -/
def nodeRequestDecode {P : Type} (precheck : Nat → Option NodeIssue) (command : UInt16) (refuse : UInt32 → Prop)
    [DecidablePred refuse] (read : Bytes → Except NodeIssue P) : Bytes → NodeRequest P → NodeDecoded (NodeRequest P) :=
  nodeDecode
    (nodeEnvelope precheck requestHeaderValidate (NodeRefused command 0 fun h => refuse h.bodyLen))
    fun h body => (read body).map fun payload => ⟨h.sequence, h.sessionHandle, payload⟩

/-- The decoder of a response. -/
def nodeResponseDecode {P : Type} (precheck : Nat → Option NodeIssue) (command : UInt16) (allowed : List UInt16)
    (refuse : UInt32 → Prop) [DecidablePred refuse] (zero : P) (read : Bytes → Except NodeIssue P) :
    Bytes → NodeResponse P → NodeDecoded (NodeResponse P) :=
  nodeDecode
    (nodeEnvelope precheck responseHeaderValidate
      (NodeRefused command flagResponse
        (ResponseRefused (fun status => status ∈ allowed) fun h => h.sessionHandle = 0 ∨ refuse h.bodyLen)))
    fun h body =>
      if h.status = 0 then
        (read body).map fun payload => ⟨h.status, h.sequence, h.sessionHandle, payload⟩
      else .ok ⟨h.status, h.sequence, h.sessionHandle, zero⟩

/-- The reader of a body: its fields are read into `start`, and what comes of them is checked. -/
def nodeRead {P : Type} (rules : List TlvRule) (seen : Nat) (issueOf : TlvIssue → NodeIssue)
    (step : P → TlvView → Except Result P) (start : P) (good : P → Bool) (body : Bytes) : Except NodeIssue P :=
  match readBody rules rules.length seen issueOf step body start with
  | .error issue => .error issue
  | .ok p => if good p = false then .error .value else .ok p

/-- What the fields of a body hold, by the rules; the lengths of a payload that is `Proper` are those of its
    arrays. -/
structure NodePayload.Held {P : Type} (b : NodePayload P) (Proper : P → Prop) (rules : List TlvRule)
    (step : P → TlvView → Except Result P) (start : P) (good : P → Bool) : Prop where
  table : ValidRules rules
  size : ∀ p, b.Good p → (b.body p).length ≤ maxBodySize
  proper : ∀ p, b.Good p → Proper p
  /-- A payload that is taken is one of the rules, and passes the check when it comes back. -/
  fits : ∀ p, b.Good p → Accepted rules .reject (b.body p) (b.fields p) ∧ good (b.trimmed p) = true
  /-- The fields that are accepted are those of a payload, in some order. -/
  holds : ∀ s fields, Accepted rules .reject s fields →
    ∃ p, Proper p ∧ b.trimmed p = p ∧ (b.fields p).Perm fields ∧ (good p = true → b.Good p)
  /-- The fields of a payload are read as the payload, in any order. -/
  fold : ∀ s fields p, Accepted rules .reject s fields → Proper p → (b.fields p).Perm fields →
    fields.foldlM (fun p f => step p f.view) start = .ok (b.trimmed p)

section Decode

variable {P : Type} {b : NodePayload P} {precheck : Nat → Option NodeIssue} {command : UInt16}
  {allowed : List UInt16} {refuse : UInt32 → Prop} [DecidablePred refuse] {zero : P}
  {read : Bytes → Except NodeIssue P}

theorem map_ok {α β : Type} {x : Except NodeIssue α} {f : α → β} {y : β} (h : x.map f = .ok y) :
    ∃ a, x = .ok a ∧ f a = y := by
  cases x with
  | error issue => cases h
  | ok a => exact ⟨a, rfl, Except.ok.inj h⟩

omit [DecidablePred refuse] in
/-- **A reader that goes by the rules reads what the fields hold.** -/
theorem NodePayload.Held.reads {rules : List TlvRule} {seen : Nat} {issueOf : TlvIssue → NodeIssue}
    {step : P → TlvView → Except Result P} {start : P} {good : P → Bool} {Proper : P → Prop}
    (h : b.Held Proper rules step start good)
    (hseen : rules.length ≤ seen)
    (hrefuse : ∀ p, b.Good p → ¬ refuse (UInt32.ofNat (b.body p).length)) :
    b.Reads refuse (nodeRead rules seen issueOf step start good) := by
  have hall : rules.take rules.length = rules := List.take_length
  have hbody : ∀ body p, readBody rules rules.length seen issueOf step body start = .ok p ↔
      ∃ fields, Accepted rules .reject body fields ∧ fields.foldlM (fun p f => step p f.view) start = .ok p := by
    intro body p
    have hread := @readBody_iff P rules _ _ issueOf step body start p (hall.symm ▸ h.table) (Nat.le_refl _) hseen
    rwa [hall] at hread
  refine ⟨fun p hp => ⟨h.size p hp, hrefuse p hp⟩, fun p hp => ?_, fun n body p _ _ hread => ?_⟩
  · obtain ⟨haccepted, hgood⟩ := h.fits p hp
    have hread := (hbody _ _).mpr ⟨_, haccepted, h.fold _ _ p haccepted (h.proper p hp) (.refl _)⟩
    unfold nodeRead
    rw [hread]
    dsimp only
    rw [hgood, if_neg (by decide)]
  · unfold nodeRead at hread
    split at hread
    · cases hread
    rename_i p' hp'
    split at hread
    · cases hread
    rename_i hgood
    cases hread
    obtain ⟨fields, haccepted, hfold⟩ := (hbody _ _).mp hp'
    obtain ⟨q, hproper, htrimmed, hperm, hq⟩ := h.holds _ _ haccepted
    have hsame := h.fold _ _ q haccepted hproper hperm
    rw [hfold, htrimmed] at hsame
    cases hsame
    exact ⟨hq (Bool.not_eq_false _ ▸ hgood), htrimmed, fields, hperm, haccepted.all⟩

theorem NodePayload.Reads.request_roundTrips (h : b.Reads refuse read) (hknown : commandIsKnown command = true)
    (hreserved : commandIsReserved command = false)
    (hpre : ∀ p, b.Good p → precheck (32 + (b.body p).length) = none) {n : Nat}
    {encode : NodeRequest P → Nat → Cells UInt8 n → Except Result Bytes}
    (hencode : (b.request command).Encodes encode) :
    (b.request command).RoundTrips encode (nodeRequestDecode precheck command refuse read) := by
  refine NodeMessage.Reads.roundTrips ⟨fun _ _ => rfl, fun _ hvalid =>
    sequence_of_headerValidate (headerValidate_of_request hvalid), fun _ _ => .rfl,
    fun v ⟨hsequence, hgood⟩ => ?_, fun v ⟨_, hgood⟩ => ?_,
    fun header body v hvalid hrest hlen _ _ hread => ?_⟩ hencode
  · obtain ⟨hmax, hrefuse⟩ := h.size v.payload hgood
    exact ⟨hpre v.payload hgood, hmax, validate_requestHeader hknown hreserved hmax hsequence, hrefuse⟩
  · show (read (b.body v.payload)).map _ = _
    rw [h.there v.payload hgood]
    rfl
  · obtain ⟨payload, hpayload, rfl⟩ := map_ok hread
    obtain ⟨hgood, htrimmed, fields, hperm, hall⟩ := h.back _ body payload hrest hlen hpayload
    refine ⟨⟨sequence_of_headerValidate (headerValidate_of_request hvalid), hgood⟩, ?_,
      (status_of_request hvalid).symm, rfl, rfl, fields, hperm, hall⟩
    show (⟨_, _, b.trimmed payload⟩ : NodeRequest P) = _
    rw [htrimmed]

theorem NodePayload.Reads.response_roundTrips (h : b.Reads refuse read) (hknown : commandIsKnown command = true)
    (hreserved : commandIsReserved command = false) (hall : allowed.all statusIsKnown = true)
    (hpre : ∀ p, b.Good p → precheck (32 + (b.body p).length) = none) (hempty : precheck 32 = none) {n : Nat}
    {encode : NodeResponse P → Nat → Cells UInt8 n → Except Result Bytes}
    (hencode : (b.response command allowed zero).Encodes encode) :
    (b.response command allowed zero).RoundTrips encode
      (nodeResponseDecode precheck command allowed refuse zero read) := by
  refine NodeMessage.Reads.roundTrips ⟨fun _ _ => rfl, fun _ hvalid =>
    sequence_of_headerValidate (headerValidate_of_response hvalid), fun _ _ => .rfl,
    fun v ⟨hsequence, hstatus, hgood⟩ => ?_, fun v ⟨_, _, hgood⟩ => ?_,
    fun header body v hvalid hrest hlen _ _ hread => ?_⟩ hencode
  · by_cases hok : v.status = 0
    · rw [if_pos hok] at hgood
      obtain ⟨hsession, hgood⟩ := hgood
      obtain ⟨hmax, hrefuse⟩ := h.size v.payload hgood
      have hbody : (b.response command allowed zero).body v = b.body v.payload :=
        congrArg tlvCoding.encodeAll (if_pos hok)
      rw [hbody]
      refine ⟨hpre v.payload hgood, hmax, ?_, ?_⟩
      · unfold NodeMessage.header
        rw [hbody]
        exact validate_responseHeader hknown hreserved hall hmax hsequence hstatus
      · unfold NodeMessage.header
        rw [hbody]
        show ¬ (decide (v.status ∈ allowed) = false ∨ if v.status = 0 then
          v.sessionHandle = 0 ∨ refuse (UInt32.ofNat (b.body v.payload).length) else _)
        rw [hstatus, if_pos hok]
        simp only [Bool.true_eq_false, false_or, not_or]
        exact ⟨hsession, hrefuse⟩
    · rw [if_neg hok] at hgood
      have hbody : (b.response command allowed zero).body v = [] :=
        congrArg tlvCoding.encodeAll (if_neg hok)
      rw [hbody]
      refine ⟨hempty, Nat.zero_le _, ?_, ?_⟩
      · unfold NodeMessage.header
        rw [hbody]
        exact validate_responseHeader hknown hreserved hall (Nat.zero_le _) hsequence hstatus
      · unfold NodeMessage.header
        rw [hbody]
        show ¬ (decide (v.status ∈ allowed) = false ∨ if v.status = 0 then _ else
          v.sessionHandle ≠ 0 ∨ (0 : UInt32) ≠ 0)
        rw [hstatus, if_neg hok]
        simp [hgood.1]
  · by_cases hok : v.status = 0
    · rw [if_pos hok] at hgood
      have hbody : (b.response command allowed zero).body v = b.body v.payload :=
        congrArg tlvCoding.encodeAll (if_pos hok)
      have htrimmed : (b.response command allowed zero).trimmed v =
          { v with payload := b.trimmed v.payload } := if_pos hok
      rw [hbody, htrimmed]
      refine (if_pos hok).trans ?_
      rw [h.there v.payload hgood.2]
      rfl
    · rw [if_neg hok] at hgood
      have htrimmed : (b.response command allowed zero).trimmed v = v := if_neg hok
      rw [htrimmed]
      refine (if_neg hok).trans ?_
      rw [← hgood.2]
      rfl
  · simp only [ResponseRefused, not_or, Bool.not_eq_false] at hrest
    have hsequence := sequence_of_headerValidate (headerValidate_of_response hvalid)
    by_cases hok : header.status = 0
    · have hkept := hrest.2
      rw [if_pos hok, not_or] at hkept
      have hread' : ((read body).map fun payload => (⟨header.status, header.sequence, header.sessionHandle,
          payload⟩ : NodeResponse P)) = .ok v := (if_pos hok).symm.trans hread
      obtain ⟨payload, hpayload, rfl⟩ := map_ok hread'
      obtain ⟨hgood, htrimmed, fields, hperm, hbody⟩ := h.back _ body payload hkept.2 hlen hpayload
      refine ⟨⟨hsequence, hrest.1, ?_⟩, ?_, rfl, rfl, rfl, fields, ?_, hbody⟩
      · rw [if_pos hok]
        exact ⟨hkept.1, hgood⟩
      · refine (if_pos hok).trans ?_
        show (⟨_, _, _, b.trimmed payload⟩ : NodeResponse P) = _
        rw [htrimmed]
      · show (if header.status = 0 then b.fields payload else []).Perm fields
        rw [if_pos hok]
        exact hperm
    · have hkept := hrest.2
      rw [if_neg hok, not_or, not_not, not_not] at hkept
      have hread' : (.ok ⟨header.status, header.sequence, header.sessionHandle, zero⟩ :
          Except NodeIssue (NodeResponse P)) = .ok v := (if_neg hok).symm.trans hread
      cases hread'
      have hnil : body = [] := by
        rw [← List.length_eq_zero_iff, ← hlen, hkept.2]
        rfl
      refine ⟨⟨hsequence, hrest.1, ?_⟩, if_neg hok, rfl, rfl, rfl, [], ?_, hnil⟩
      · rw [if_neg hok]
        exact ⟨hkept.1, rfl⟩
      · show (if header.status = 0 then b.fields zero else []).Perm []
        rw [if_neg hok]

end Decode

/-! ## 3. Encoders -/

/-- The encoder of STAT: the value, the room, then the fields. -/
def nodeRequestEncode {P : Type} (command : UInt16) (good : P → Bool) (size : P → Nat)
    (put : P → TlvWriter → Except Result TlvWriter) (v : NodeRequest P) (capacity : Nat) (frame : Bytes) :
    Except Result Bytes :=
  if v.sequence = 0 ∨ good v.payload = false then .error .invalidArgument
  else
    let body := size v.payload
    if capacity < 32 + body then .error .range
    else do
      let frame ← nodeWrite body frame (put v.payload)
      publish (nodeHeader command 0 0 body v.sequence v.sessionHandle) frame (32 + body)

/-- The encoder of MKDIR, MOVE and REMOVE: the fields are written and checked before the room is. -/
def nodeSchemaRequestEncode {P : Type} (command : UInt16) (good : P → Bool) (size : P → Nat)
    (put : P → TlvWriter → Except Result TlvWriter) (rules : List TlvRule) (seen : Nat) (v : NodeRequest P)
    (capacity : Nat) (frame : Bytes) : Except Result Bytes :=
  if v.sequence = 0 ∨ good v.payload = false then .error .invalidArgument
  else do
    let body := size v.payload
    let frame ← nodeWrite body frame (put v.payload)
    let report := schemaValidate (some (slice frame 32 body)) body (some rules) rules.length .reject
      (some (List.replicate seen 0)) seen
    if report.result = .protocol then .error .invalidArgument
    else if report.result ≠ .ok then .error report.result
    else if capacity < 32 + body then .error .range
    else publish (nodeHeader command 0 0 body v.sequence v.sessionHandle) frame (32 + body)

/-- The encoder of a response. -/
def nodeResponseEncode {P : Type} (command : UInt16) (allowed : List UInt16) (good isZero : P → Bool)
    (size : P → Nat) (put : P → TlvWriter → Except Result TlvWriter) (v : NodeResponse P) (capacity : Nat)
    (frame : Bytes) : Except Result Bytes :=
  if v.sequence = 0 ∨ decide (v.status ∈ allowed) = false ∨
      (if v.status = 0 then v.sessionHandle = 0 ∨ good v.payload = false
      else v.sessionHandle ≠ 0 ∨ isZero v.payload = false) then .error .invalidArgument
  else
    let body := if v.status = 0 then size v.payload else 0
    if capacity < 32 + body then .error .range
    else do
      let frame ← if body ≠ 0 then nodeWrite body frame (put v.payload) else .ok frame
      publish (nodeHeader command flagResponse v.status body v.sequence v.sessionHandle) frame (32 + body)

/-- What the encoders write of a payload that is taken, into a frame of `n` bytes. -/
structure NodePayload.Writes {P : Type} (b : NodePayload P) (size : P → Nat)
    (put : P → TlvWriter → Except Result TlvWriter) (n : Nat) (p : P) : Prop where
  size : size p = (b.body p).length
  put : ∀ w, put p w = (b.fields p).foldlM TlvWriter.putField w
  room : 32 + (b.body p).length ≤ n
  max : (b.body p).length ≤ maxBodySize

section Encode

variable {P : Type} {b : NodePayload P} {command : UInt16} {allowed : List UInt16} {good isZero : P → Bool}
  {size : P → Nat} {put : P → TlvWriter → Except Result TlvWriter} {n : Nat} {zero : P}

theorem NodePayload.Writes.write {p : P} (h : b.Writes size put n p) (frame : Cells UInt8 n) :
    nodeWrite (size p) frame.val (put p) = .ok (overwrite frame.val 32 (b.body p)) := by
  rw [h.size]
  exact nodeWrite_eq h.put (by rw [frame.property]; exact h.room) h.max

theorem nodeRequest_encodes (hgood : ∀ p, good p = true ↔ b.Good p)
    (hwrites : ∀ p, b.Good p → b.Writes size put n p) :
    (b.request command).Encodes fun v capacity (frame : Cells UInt8 n) =>
      nodeRequestEncode command good size put v capacity frame.val := by
  refine .of (fun v capacity frame hv => ?_) fun v capacity frame ⟨hsequence, hv⟩ => ?_
  · refine if_pos ?_
    by_cases hsequence : v.sequence = 0
    · exact .inl hsequence
    · refine .inr (Bool.not_eq_true _ ▸ fun hok => hv ⟨hsequence, (hgood _).mp hok⟩)
  · have hw := hwrites v.payload hv
    have hroom : 32 + (b.body v.payload).length ≤ frame.val.length := by
      rw [frame.property]
      exact hw.room
    unfold nodeRequestEncode
    rw [if_neg (by simp [hsequence, (hgood _).mpr hv])]
    dsimp only
    rw [hw.write frame, ok_bind, hw.size, publish_sealed hroom hw.max]
    rfl

/-- **So does the encoder that checks the fields**, when the check is the rest of what is asked. -/
theorem nodeSchemaRequest_encodes {rules : List TlvRule} {seen : Nat} (hv : ValidRules rules)
    (hseen : rules.length ≤ seen) (hbad : ∀ p, b.Good p → good p = true)
    (hwrites : ∀ p, good p = true → b.Writes size put n p)
    (hrest : ∀ p, good p = true → ((∃ fields, Accepted rules .reject (b.body p) fields) ↔ b.Good p)) :
    (b.request command).Encodes fun v capacity (frame : Cells UInt8 n) =>
      nodeSchemaRequestEncode command good size put rules seen v capacity frame.val := by
  -- a value that passes the first check is written, and refused when the rules refuse its fields
  have hwritten : ∀ (v : NodeRequest P) (capacity : Nat) (frame : Cells UInt8 n), v.sequence ≠ 0 →
      good v.payload = true → (b.Good v.payload →
        nodeSchemaRequestEncode command good size put rules seen v capacity frame.val =
          if capacity < 32 + (b.body v.payload).length then .error .range
          else .ok ((b.request command).frame v)) ∧
      (¬ b.Good v.payload → nodeSchemaRequestEncode command good size put rules seen v capacity frame.val =
          .error .invalidArgument) := by
    intro v capacity frame hsequence hgood
    have hw := hwrites v.payload hgood
    have hroom : 32 + (b.body v.payload).length ≤ frame.val.length := by
      rw [frame.property]
      exact hw.room
    have hcall : SchemaCall (some (b.body v.payload)) (b.body v.payload).length (some rules) rules.length
        .reject (some (List.replicate seen 0)) seen := ⟨rfl, rfl, List.length_replicate, hv, by decide, hseen⟩
    have hok := (schemaValidate_iff hcall).trans (hrest v.payload hgood)
    unfold nodeSchemaRequestEncode
    rw [if_neg (by simp [hsequence, hgood])]
    dsimp only
    rw [hw.write frame, ok_bind, hw.size, slice_overwrite (show 32 ≤ frame.val.length by omega)]
    refine ⟨fun hvalid => ?_, fun hinvalid => ?_⟩
    · rw [hok.mpr hvalid, if_neg (by decide), if_neg (by decide), publish_sealed hroom hw.max]
      rfl
    · cases schemaValidate_judged hcall with
      | accepted _ ok => exact absurd (hok.mp ok) hinvalid
      | refused bad => rw [bad, if_pos rfl]
  refine .of (fun v capacity frame hinvalid => ?_) fun v capacity frame ⟨hsequence, hvalid⟩ =>
    (hwritten v capacity frame hsequence (hbad _ hvalid)).1 hvalid
  by_cases hsequence : v.sequence = 0
  · exact if_pos (.inl hsequence)
  cases hgood : good v.payload with
  | false => exact if_pos (.inr hgood)
  | true =>
    exact (hwritten v capacity frame hsequence hgood).2 fun hvalid => hinvalid ⟨hsequence, hvalid⟩

theorem nodeResponse_encodes (hgood : ∀ p, good p = true ↔ b.Good p)
    (hzero : ∀ p, isZero p = true ↔ p = zero) (hsome : ∀ p, b.Good p → size p ≠ 0)
    (hwrites : ∀ p, b.Good p → b.Writes size put n p) :
    (b.response command allowed zero).Encodes fun v capacity (frame : Cells UInt8 n) =>
      nodeResponseEncode command allowed good isZero size put v capacity frame.val := by
  have hcheck : ∀ v : NodeResponse P, ¬ (b.response command allowed zero).Valid v ↔
      v.sequence = 0 ∨ decide (v.status ∈ allowed) = false ∨
        (if v.status = 0 then v.sessionHandle = 0 ∨ good v.payload = false
        else v.sessionHandle ≠ 0 ∨ isZero v.payload = false) := by
    intro v
    have hg := hgood v.payload
    have hz := hzero v.payload
    show ¬ (v.sequence ≠ 0 ∧ decide (v.status ∈ allowed) = true ∧ if v.status = 0 then
      v.sessionHandle ≠ 0 ∧ b.Good v.payload else v.sessionHandle = 0 ∧ v.payload = zero) ↔ _
    rw [← hg, ← hz]
    split <;> grind
  refine .of (fun v capacity frame hv => if_pos ((hcheck v).mp hv)) fun v capacity frame hv => ?_
  have hpass := (hcheck v).not.mp (not_not.mpr hv)
  obtain ⟨-, -, hgood'⟩ := hv
  unfold nodeResponseEncode
  rw [if_neg hpass]
  dsimp only
  by_cases hok : v.status = 0
  · rw [if_pos hok] at hgood'
    have hw := hwrites v.payload hgood'.2
    have hroom : 32 + (b.body v.payload).length ≤ frame.val.length := by
      rw [frame.property]
      exact hw.room
    have hfields : (b.response command allowed zero).fields v = b.fields v.payload := if_pos hok
    have hbody : (b.response command allowed zero).body v = b.body v.payload :=
      congrArg tlvCoding.encodeAll hfields
    rw [if_pos hok, if_pos (hsome _ hgood'.2), hw.write frame, ok_bind, hw.size, publish_sealed hroom hw.max,
      NodeMessage.frame, NodeMessage.frameOf, NodeMessage.header, hbody, hfields]
    rfl
  · have hfields : (b.response command allowed zero).fields v = [] := if_neg hok
    have hbody : (b.response command allowed zero).body v = [] := congrArg tlvCoding.encodeAll hfields
    rw [if_neg hok, if_neg (not_not.mpr rfl), ok_bind, Nat.add_zero, publish_empty, NodeMessage.frame,
      NodeMessage.frameOf, NodeMessage.header, hbody, hfields]
    rfl

end Encode

end Vireo.Protocol
