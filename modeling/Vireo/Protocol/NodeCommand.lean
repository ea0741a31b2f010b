/-
  File:      Vireo/Protocol/NodeCommand.lean
  Subject:   THE COMMANDS ON ONE NODE (`src/protocol/node_root.c`, `node_stat.c`, `node_mkdir.c`,
             `node_move.c`, `node_remove.c`): what their ten codecs have in common.

  Null pointers do not exist here. A local buffer has the bytes it happens to have.
-/
import Vireo.Protocol.NodeListFields

namespace Vireo.Protocol

open Lib List

/-! ## 1. Decoders -/

/-- `vireo_node_stat_issue_t` and its four siblings, which list the same values. -/
inductive NodeIssue where
  | none
  | header
  | envelope
  | crc
  | fields
  | value
deriving Inhabited

/-- What a decoder returns and leaves in its outputs. -/
structure NodeDecoded (V : Type) where
  result : Result
  out : V
  issue : NodeIssue

/-- The end of every decoder: a refusal is PROTOCOL and leaves the output alone. -/
def NodeDecoded.of {V : Type} (out : V) : Except NodeIssue V → NodeDecoded V
  | .error issue => ⟨.protocol, out, issue⟩
  | .ok next => ⟨.ok, next, .none⟩

theorem NodeDecoded.of_unchanged {V : Type} {out : V} {answer : Except NodeIssue V}
    (h : (NodeDecoded.of out answer).result ≠ .ok) : (NodeDecoded.of out answer).out = out := by
  cases answer with
  | error issue => rfl
  | ok v => exact absurd rfl h

/-- What every `envelope` refuses: another command, a task, other flags, another size; `rest` is what a
    command adds. -/
abbrev NodeRefused (command flags : UInt16) (rest : Header → Prop) (h : Header) (size : Nat) : Prop :=
  h.command ≠ command ∨ h.taskHandle ≠ 0 ∨ h.flags ≠ flags ∨ size ≠ 32 + h.bodyLen.toNat ∨ rest h

/-- What an `envelope` adds for responses: a status of the command, `ok` refused of an OK, no session and body
    with another. -/
abbrev ResponseRefused (allowed : UInt16 → Bool) (ok : Header → Prop) (h : Header) : Prop :=
  allowed h.status = false ∨ if h.status = 0 then ok h else h.sessionHandle ≠ 0 ∨ h.bodyLen ≠ 0

/-- `envelope`: `precheck` looks at the size of the frame alone. -/
def nodeEnvelope (precheck : Nat → Option NodeIssue) (validate : Header → Except (Result × CodecIssue) Unit)
    (refused : Header → Nat → Prop) [∀ h n, Decidable (refused h n)] (wire : Bytes) : Except NodeIssue Header :=
  match precheck wire.length with
  | some issue => .error issue
  | none => frameEnvelope .header .envelope .crc validate refused wire

/-- The check of the size of the frame that most of them start with. -/
def sizeCheck (bad : Nat → Prop) [DecidablePred bad] (size : Nat) : Option NodeIssue :=
  if size < 32 then some .header else if bad size then some .envelope else none

/-- A body is checked against the first `count` rules, and its fields are then read one after the other. -/
def readBody {V : Type} (rules : List TlvRule) (count seen : Nat) (issueOf : TlvIssue → NodeIssue)
    (step : V → TlvView → Except Result V) (body : Bytes) (next : V) : Except NodeIssue V :=
  let report := schemaValidate (some body) body.length (some rules) count .reject
    (some (List.replicate seen 0)) seen
  if report.result ≠ .ok then .error (issueOf report.issue)
  else
    match TlvReader.init (some body) body.length with
    | .error _ => .error .fields
    | .ok reader =>
      match TlvReader.foldFields step (body.length + 1) reader next with
      | .error _ => .error .fields
      | .ok next => .ok next

/-- The end of every decoder: `read` makes a value of the header and of the body, or refuses. -/
def nodeDecode {V : Type} (envelope : Bytes → Except NodeIssue Header)
    (read : Header → Bytes → Except NodeIssue V) (wire : Bytes) (out : V) : NodeDecoded V :=
  .of out <|
    match envelope wire with
    | .error issue => .error issue
    | .ok h => read h ((wire.drop 32).take h.bodyLen.toNat)

/-- What the encoders do with their local frame: a writer is put behind the header, for `size` bytes. -/
def nodeWrite (size : Nat) (frame : Bytes) (put : TlvWriter → Except Result TlvWriter) :
    Except Result Bytes := do
  let w ← TlvWriter.init (some (slice frame 32 size)) size
  let w ← put w
  .ok (overwrite frame 32 (w.data.getD []))

/-- `VIREO_NODE_MKDIR_KEY_SIZE` and its siblings. -/
def keySize : Nat := 16

/-- `VIREO_NODE_MKDIR_TLV_IDEMPOTENCY_KEY` and its siblings. -/
def tlvIdempotencyKey : UInt16 := 0x0420

/-! ## 2. What passes the envelope -/

/-- The header that a message goes out with. -/
def nodeHeader (command flags status : UInt16) (bodySize : Nat) (sequence session : UInt32) : Header :=
  ⟨command, flags, status, UInt32.ofNat bodySize, sequence, session, 0, 0⟩

/-- A frame that passed: it is the header of a message, sealed, and a body. -/
structure Passed (wire : Bytes) (h : Header) (command flags : UInt16) (rest : Header → Prop) : Prop where
  bytes : wire = sealedFrame (nodeHeader command flags h.status (wire.drop headerSize).length h.sequence
    h.sessionHandle) (wire.drop headerSize)
  body : (wire.drop headerSize).take h.bodyLen.toNat = wire.drop headerSize
  length : h.bodyLen.toNat = (wire.drop headerSize).length
  sequence : h.sequence ≠ 0
  kept : ¬ rest h

section Envelope

variable {precheck : Nat → Option NodeIssue} {command flags : UInt16} {rest : Header → Prop} {wire : Bytes}
  {h : Header} {validate : Header → Except (Result × CodecIssue) Unit}

theorem checks_nodeRefused (hvalidate : ∀ h c, validate { h with crc32c := c } = validate h)
    (hrest : ∀ (h : Header) c, rest { h with crc32c := c } ↔ rest h) :
    Checks validate (NodeRefused command flags rest) := by
  refine ⟨hvalidate, fun h c n => ?_, fun h n hgood => ?_⟩
  · have hsame := hrest h c
    simp only [NodeRefused, hsame]
  · simp only [NodeRefused, not_or, ne_eq, not_not] at hgood
    exact hgood.2.2.2.1

variable [DecidablePred rest]

section

variable (hvalidate : ∀ h c, validate { h with crc32c := c } = validate h)
include hvalidate

theorem passed_of_nodeEnvelope (hsequence : ∀ h, validate h = .ok () → h.sequence ≠ 0)
    (hrest : ∀ (h : Header) c, rest { h with crc32c := c } ↔ rest h)
    (henv : nodeEnvelope precheck validate (NodeRefused command flags rest) wire = .ok h) :
    Passed wire h command flags rest ∧ validate h = .ok () ∧ h.command = command ∧ h.flags = flags := by
  unfold nodeEnvelope at henv
  split at henv
  · cases henv
  obtain ⟨hwire, -, hvalid, hgood, hbody⟩ := frameEnvelope_ok _ _ _ (checks_nodeRefused hvalidate hrest) henv
  simp only [NodeRefused, not_or, ne_eq, not_not] at hgood
  obtain ⟨hcommand, htask, hflags, hsize, hrest'⟩ := hgood
  have hlen : h.bodyLen.toNat = (wire.drop headerSize).length := by
    rw [headerSize] at hsize
    rw [headerSize]
    omega
  refine ⟨⟨?_, hbody, hlen, hsequence h hvalid, hrest'⟩, hvalid, hcommand, hflags⟩
  have hheader : nodeHeader command flags h.status (wire.drop headerSize).length h.sequence h.sessionHandle =
      { h with crc32c := 0 } := by
    unfold nodeHeader
    rw [← hlen, UInt32.ofNat_toNat, ← hcommand, ← hflags, htask]
  rw [hheader]
  exact hwire

theorem nodeEnvelope_sealed {status : UInt16} {sequence session : UInt32} {body : Bytes}
    (hrest : ∀ (h : Header) c, rest { h with crc32c := c } ↔ rest h) (hpre : precheck (32 + body.length) = none)
    (hmax : body.length ≤ maxBodySize)
    (hvalid : validate (nodeHeader command flags status body.length sequence session) = .ok ())
    (hgood : ¬ rest (nodeHeader command flags status body.length sequence session)) :
    nodeEnvelope precheck validate (NodeRefused command flags rest)
        (sealedFrame (nodeHeader command flags status body.length sequence session) body) =
      .ok ((nodeHeader command flags status body.length sequence session).sealedWith body) := by
  have hlen : (nodeHeader command flags status body.length sequence session).bodyLen.toNat = body.length := by
    show (UInt32.ofNat body.length).toNat = body.length
    exact UInt32.toNat_ofNat_of_lt' (Nat.lt_of_le_of_lt hmax (by decide))
  have hpass : ¬ NodeRefused command flags rest (nodeHeader command flags status body.length sequence session)
      (headerSize + body.length) := by
    simp only [NodeRefused, not_or, ne_eq, not_not, hlen]
    exact ⟨rfl, rfl, rfl, rfl, hgood⟩
  have hframe : precheck (sealedFrame (nodeHeader command flags status body.length sequence session)
      body).length = none := by
    rw [length_sealedFrame]
    exact hpre
  unfold nodeEnvelope
  rw [hframe]
  dsimp only
  rw [frameEnvelope_sealed _ _ _ (checks_nodeRefused hvalidate hrest), if_neg (by omega), hvalid]
  dsimp only
  rw [if_neg hpass]

end

end Envelope

variable {h : Header}

theorem sequence_of_headerValidate (hvalid : headerValidate h = .ok ()) : h.sequence ≠ 0 := by
  unfold headerValidate at hvalid
  split at hvalid
  · cases hvalid
  split at hvalid
  · cases hvalid
  split at hvalid
  · cases hvalid
  split at hvalid
  · cases hvalid
  split at hvalid
  · cases hvalid
  · rename_i hsequence
    exact hsequence

theorem headerValidate_of_request (hvalid : requestHeaderValidate h = .ok ()) :
    headerValidate h = .ok () := by
  unfold requestHeaderValidate at hvalid
  cases hcommon : headerValidate h with
  | error e =>
    rw [hcommon] at hvalid
    cases hvalid
  | ok u => rfl

theorem headerValidate_of_response (hvalid : responseHeaderValidate h = .ok ()) :
    headerValidate h = .ok () := by
  unfold responseHeaderValidate at hvalid
  cases hcommon : headerValidate h with
  | error e =>
    rw [hcommon] at hvalid
    cases hvalid
  | ok u => rfl

theorem status_of_request (hvalid : requestHeaderValidate h = .ok ()) : h.status = 0 := by
  have hcommon := headerValidate_of_request hvalid
  unfold requestHeaderValidate at hvalid
  rw [hcommon] at hvalid
  change (if h.flags &&& flagResponse ≠ 0 then _ else _) = _ at hvalid
  split at hvalid
  · cases hvalid
  split at hvalid
  · cases hvalid
  split at hvalid
  · cases hvalid
  · rename_i hstatus
    exact not_not.mp hstatus

variable {n : Nat}

theorem length_nodeHeader (command flags status : UInt16) (sequence session : UInt32)
    (h : n ≤ maxBodySize) : (nodeHeader command flags status n sequence session).bodyLen.toNat = n :=
  UInt32.toNat_ofNat_of_lt' (Nat.lt_of_le_of_lt h (by decide))

theorem sizeCheck_of {bad : Nat → Prop} [DecidablePred bad] (h : ¬ bad (32 + n)) :
    sizeCheck bad (32 + n) = none := by
  unfold sizeCheck
  rw [if_neg (by omega), if_neg h]

variable {allowed : List UInt16} {status : UInt16}

theorem statusIsKnown_of_mem
    (hall : allowed.all statusIsKnown = true) (h : decide (status ∈ allowed) = true) :
    statusIsKnown status = true :=
  all_eq_true.mp hall status (of_decide_eq_true h)

variable {command : UInt16} {sequence session : UInt32}

/-- **The header of a request without a status** is in order when it has a sequence number. -/
theorem validate_requestHeader
    (hknown : commandIsKnown command = true) (hreserved : commandIsReserved command = false)
    (hmax : n ≤ maxBodySize) (hsequence : sequence ≠ 0) :
    requestHeaderValidate (nodeHeader command 0 0 n sequence session) = .ok () := by
  have hlen := length_nodeHeader command 0 0 sequence session hmax
  exact (requestHeaderValidate_iff hknown hreserved rfl (hlen.trans_le hmax)).mpr ⟨hsequence, rfl⟩

/-- **So is the header of a response** with a status that the command allows. -/
theorem validate_responseHeader (hknown : commandIsKnown command = true)
    (hreserved : commandIsReserved command = false) (hall : allowed.all statusIsKnown = true)
    (hmax : n ≤ maxBodySize) (hsequence : sequence ≠ 0) (hstatus : decide (status ∈ allowed) = true) :
    responseHeaderValidate (nodeHeader command flagResponse status n sequence session) = .ok () := by
  have hlen := length_nodeHeader command flagResponse status sequence session hmax
  exact (responseHeaderValidate_iff hknown hreserved rfl (hlen.trans_le hmax)).mpr
    ⟨hsequence, statusIsKnown_of_mem hall hstatus⟩

/-! ## 3. Bodies -/

variable {frame : Bytes} {fields : List TlvField}

theorem nodeWrite_eq {put : TlvWriter → Except Result TlvWriter}
    (hput : ∀ w, put w = fields.foldlM TlvWriter.putField w)
    (hframe : 32 + (tlvCoding.encodeAll fields).length ≤ frame.length)
    (hmax : (tlvCoding.encodeAll fields).length ≤ maxBodySize) :
    nodeWrite (tlvCoding.encodeAll fields).length frame put =
      .ok (overwrite frame 32 (tlvCoding.encodeAll fields)) := by
  generalize hbody : tlvCoding.encodeAll fields = body at *
  have hslice : (slice frame 32 body.length).length = body.length := length_slice hframe
  obtain ⟨hinit, hsound⟩ := init_sound (slice frame 32 body.length) (by
    rw [hslice]
    exact hmax.trans (by decide))
  obtain ⟨w, hfold, hwrote⟩ := putFields_spec hsound fields (by
    show 0 + _ ≤ (slice frame 32 body.length).length
    rw [hbody, hslice, Nat.zero_add])
  rw [hslice] at hinit hfold hwrote
  have hdata : w.data.getD [] = body := by
    rw [hwrote.data, hbody]
    show overwrite (slice frame 32 body.length) 0 body = body
    rw [overwrite, List.take_zero, nil_append, Nat.zero_add, drop_of_length_le hslice.le, List.append_nil]
  unfold nodeWrite
  rw [hinit, ok_bind, hput, hfold, ok_bind, hdata]

theorem publish_sealed {flags : UInt16} {body : Bytes}
    (hframe : 32 + body.length ≤ frame.length) (hmax : body.length ≤ maxBodySize) :
    publish (nodeHeader command flags status body.length sequence session) (overwrite frame 32 body)
        (32 + body.length) =
      .ok (sealedFrame (nodeHeader command flags status body.length sequence session) body) :=
  publish_eq (length_nodeHeader _ _ _ _ _ hmax) hmax (slice_overwrite (by omega))

theorem publish_empty {flags : UInt16} :
    publish (nodeHeader command flags status 0 sequence session) frame 32 =
      .ok (sealedFrame (nodeHeader command flags status 0 sequence session) []) := by
  generalize hheader : nodeHeader command flags status 0 sequence session = header
  have hequal : header.bodyLen.toNat = ([] : Bytes).length := by
    rw [← hheader]
    rfl
  have hempty : publish header frame (32 + ([] : Bytes).length) = .ok (sealedFrame header []) :=
    publish_eq hequal (Nat.zero_le _) List.take_zero
  exact hempty

section Read

variable {V : Type} {rules : List TlvRule} {count seen : Nat} {issueOf : TlvIssue → NodeIssue}
  {step : V → TlvView → Except Result V} {body : Bytes} {next v : V}

/-- **What a body is read as**: what its fields make of the value, when the rules accept them. -/
theorem readBody_iff (hv : ValidRules (rules.take count)) (hcount : count ≤ rules.length)
    (hseen : count ≤ seen) :
    readBody rules count seen issueOf step body next = .ok v ↔
      ∃ fields, Accepted (rules.take count) .reject body fields ∧
        fields.foldlM (fun v f => step v f.view) next = .ok v := by
  have hlen : (List.replicate seen (0 : UInt8)).length = seen := length_replicate
  have hschema := @schema_prefix_iff _ body (List.replicate seen 0) _ hv hcount (by omega)
  rw [hlen] at hschema
  have hread : ∀ fields, body = tlvCoding.encodeAll fields →
      TlvReader.foldFields step (body.length + 1) (.over body) next =
        fields.foldlM (fun v f => step v f.view) next := fun fields hall =>
    foldFields_eq step (TlvReader.sound_over body) hall (Nat.lt_succ_self _) _
  rw [readBody]
  constructor
  · intro h
    split at h
    · cases h
    rename_i hok
    obtain ⟨fields, haccepted⟩ := hschema.mp (not_not.mp hok)
    rw [TlvReader.init_over] at h
    dsimp only at h
    rw [hread fields haccepted.all] at h
    split at h
    · cases h
    rename_i next' hfold
    cases h
    exact ⟨fields, haccepted, hfold⟩
  · intro ⟨fields, haccepted, hfold⟩
    rw [if_neg (not_not.mpr (hschema.mpr ⟨fields, haccepted⟩)), TlvReader.init_over]
    dsimp only
    rw [hread fields haccepted.all, hfold]

end Read

section Put

variable {V : Type} {step : V → TlvView → Except Result V} {put : TlvField → V → V}

theorem foldlM_put {fields fields' : List TlvField} (hstep : ∀ f ∈ fields, ∀ v, step v f.view = .ok (put f v))
    (hcomm : ∀ f g : TlvField, f.type ≠ g.type → ∀ v, put f (put g v) = put g (put f v))
    (hnodup : (fields.map (·.type)).Nodup) (hperm : fields.Perm fields') (v : V) :
    fields.foldlM (fun v f => step v f.view) v = .ok (fields'.foldl (fun v f => put f v) v) := by
  have hpure : ∀ (l : List TlvField) v, (∀ f ∈ l, ∀ v, step v f.view = .ok (put f v)) →
      l.foldlM (fun v f => step v f.view) v = .ok (l.foldl (fun v f => put f v) v) := by
    intro l
    induction l with
    | nil => exact fun v _ => rfl
    | cons f l ih =>
      intro v hl
      rw [forall_mem_cons] at hl
      rw [foldlM_cons, hl.1 v, ok_bind, ih _ hl.2, foldl_cons]
  rw [hpure fields v hstep]
  refine congrArg Except.ok (hperm.foldl_eq' (fun f hf g hg v => ?_) v)
  by_cases htype : f.type = g.type
  · rw [inj_on_of_nodup_map hnodup hf hg htype]
  · exact (hcomm f g htype v).symm

theorem ite_type_comm {α : Type} {x y t : UInt16} (hne : x ≠ y) (a b c : α) :
    (if x = t then a else if y = t then b else c) = if y = t then b else if x = t then a else c := by
  by_cases hx : x = t
  · have hy : ¬ y = t := fun hy => hne (hx.trans hy.symm)
    rw [if_pos hx, if_neg hy, if_pos hx]
  · rw [if_neg hx, if_neg hx]

end Put

variable {rules : List TlvRule} {f : TlvField}

theorem Accepted.ruled {s : Bytes} (h : Accepted rules .reject s fields) (hf : f ∈ fields) :
    ∃ rule ∈ rules, f.type = rule.type ∧ rule.Fits f.value := by
  obtain ⟨rule, hrule, htype⟩ := h.known.resolve_left (by decide) f hf
  exact ⟨rule, hrule, htype.symm, h.fits f hf rule hrule htype⟩

/-- **Fields that may not be left out are there in the order of their rules**, up to their own order. -/
theorem Accepted.ordered {s : Bytes} (hv : ValidRules rules)
    (h : Accepted rules .reject s fields) (hstrict : ∀ rule ∈ rules, rule.repeatable = false)
    (hall : ∀ rule ∈ rules, rule.required = true) :
    ∃ fields', fields.Perm fields' ∧ fields'.map TlvField.type = rules.map TlvRule.type :=
  exists_perm_of_map_perm TlvField.type (h.types_perm_all hv hstrict hall)

theorem readU64_of_length (hlen : f.value.length = 8) : f.view.readU64 = .ok (readU64Be f.value) := by
  unfold TlvView.readU64 TlvField.view
  rw [if_neg (by simp), if_neg (not_not.mpr hlen)]
  rfl

theorem readU16_of_length (hlen : f.value.length = 2) : f.view.readU16 = .ok (readU16Be f.value) := by
  unfold TlvView.readU16 TlvField.view
  rw [if_neg (by simp), if_neg (not_not.mpr hlen)]
  rfl

variable {type : UInt16}

theorem eq_ofBytes (htype : f.type = type)
    (hle : f.value.length ≤ tlvMaxValueSize) : f = ⟨type, f.value, hle⟩ := by
  subst htype
  rfl

theorem eq_ofU64 (htype : f.type = type) (hlen : f.value.length = 8) :
    f = .ofU64 type (readU64Be f.value) := by
  obtain ⟨ftype, value, hle⟩ := f
  have hvalue : writeU64Be (readU64Be value) = value := by
    rw [writeU64Be_read hlen.ge, take_of_length_le hlen.le]
  subst htype
  unfold TlvField.ofU64
  simp only [hvalue]

theorem eq_ofU16 (htype : f.type = type) (hlen : f.value.length = 2) :
    f = .ofU16 type (readU16Be f.value) := by
  obtain ⟨ftype, value, hle⟩ := f
  have hvalue : writeU16Be (readU16Be value) = value := by
    rw [writeU16Be_read hlen.ge, take_of_length_le hlen.le]
  subst htype
  unfold TlvField.ofU16
  simp only [hvalue]

end Vireo.Protocol
