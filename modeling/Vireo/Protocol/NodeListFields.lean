/-
  File:      Vireo/Protocol/NodeListFields.lean
  Subject:   THE FIELDS OF A DIRECTORY LISTING: what the encoder writes, and that the schemas accept it.
-/
import Vireo.Protocol.NodeList

namespace Vireo.Protocol

open Lib List
open TlvWriter (chain init putField)

/-! ## 1. Values as fields -/

def TlvField.ofU16 (type value : UInt16) : TlvField := 
  ⟨type, writeU16Be value, by rw [length_writeU16Be]; decide⟩

def TlvField.ofU64 (type : UInt16) (value : UInt64) : TlvField :=
  ⟨type, writeU64Be value, by rw [length_writeU64Be]; decide⟩

theorem readU64_view (type : UInt16) (value : UInt64) :
    (TlvField.ofU64 type value).view.readU64 = .ok value := by
  simp [TlvView.readU64, TlvField.view, TlvField.ofU64]

theorem readU16_view (type value : UInt16) : (TlvField.ofU16 type value).view.readU16 = .ok value := by
  simp [TlvView.readU16, TlvField.view, TlvField.ofU16]

theorem type_u64 (type : UInt16) (value : UInt64) : (TlvField.ofU64 type value).view.type = type := rfl

theorem type_u16 (type value : UInt16) : (TlvField.ofU16 type value).view.type = type := rfl

variable {n : Nat}

theorem Cells.copy_full {α : Type} (c d : Cells α n) : c.copy d.val = d := by
  apply Subtype.ext
  show overwrite c.val 0 (d.val.take n) = d.val
  have hd : d.val.take n = d.val := take_of_length_le d.property.le
  rw [hd, overwrite, List.take_zero, nil_append, Nat.zero_add, d.property,
    drop_of_length_le c.property.le, List.append_nil]

theorem zeroBytes_iff {c : Cells UInt8 n} : zeroBytes c.val = true ↔ c = .fill n 0 := by
  unfold zeroBytes
  constructor
  · intro h
    apply Subtype.ext
    refine eq_replicate_iff.mpr ⟨c.property, fun b hb => ?_⟩
    simpa using all_eq_true.mp h b hb
  · intro h
    rw [h]
    simp [Cells.fill]

/-- The fields of an entry, in the order they are written. -/
def entryFields (e : NodeListEntry) : List TlvField :=
  [.ofU64 tlvNodeId e.nodeId, .ofU64 tlvParentId e.parentId,
    ⟨tlvNameBytes, e.name.val.take e.nameLength, by
      rw [length_take, e.name.property, nameCapacity, tlvMaxValueSize]
      omega⟩,
    .ofU16 tlvNodeType e.type, .ofU64 tlvSize e.size, .ofU64 tlvCreatedAtMs e.createdAtMs,
    .ofU64 tlvUpdatedAtMs e.updatedAtMs] ++
  if e.hasObjectHash then [⟨tlvObjectHash, e.objectHash.val, by rw [e.objectHash.property]; decide⟩]
  else []

theorem length_encodeAll_entry (e : NodeListEntry) : (tlvCoding.encodeAll (entryFields e)).length =
      70 + min e.nameLength nameCapacity + if e.hasObjectHash then 36 else 0 := by
  have hname := e.name.property
  have hhash : e.objectHash.val.length = 32 := e.objectHash.property
  cases h : e.hasObjectHash <;>
    simp [entryFields, h, tlvCoding, TlvField.length_encode, TlvField.ofU16, TlvField.ofU64, tlvHeaderSize,
      hname, hhash] <;> omega

/-- An entry as a field of its page. -/
def entryField (e : NodeListEntry) : TlvField :=
  ⟨tlvNodeEntry, tlvCoding.encodeAll (entryFields e), by
    rw [length_encodeAll_entry, nameCapacity, tlvMaxValueSize]
    split <;> omega⟩

/-- The fields of a page, in the order they are written. -/
def responseFields (v : NodeListResponse) : List TlvField :=
  [.ofU64 tlvDirectoryId v.directoryId, .ofU16 tlvPageSize v.pageSize] ++
    (v.entries.val.take v.count).map entryField ++
  if v.hasMore then [⟨tlvNextPageToken, v.nextPageToken.val, by rw [v.nextPageToken.property]; decide⟩]
  else []

/-! ## 2. The encoder writes the fields -/

variable {e : NodeListEntry}

theorem length_le_of_entryValid (h : entryValid e = true) :
    0 < e.nameLength ∧ e.nameLength ≤ nameCapacity := by
  unfold entryValid at h
  split at h
  · cases h
  · omega

theorem init_sound (buf : Bytes) (h : buf.length ≤ sizeMax) :
    init (some buf) buf.length = .ok ⟨some buf, buf.length, 0⟩ ∧
      (⟨some buf, buf.length, 0⟩ : TlvWriter).Sound :=
  ⟨if_neg (by simp), ⟨Nat.zero_le _, rfl, h⟩⟩

theorem TlvWriter.Wrote.front {buf s : Bytes} {w : TlvWriter}
    (h : (⟨some buf, n, 0⟩ : TlvWriter).Wrote s w) : (w.data.getD []).take w.used = s := by
  rw [h.data, h.used]
  simp [overwrite]

theorem ok_bind {α β : Type} (a : α) (f : α → Except Result β) : (Except.ok a >>= f) = f a := rfl

theorem bind_ok {α : Type} (x : Except Result α) : (x >>= fun a => Except.ok a) = x := by
  cases x <;> rfl

section Chain

variable (w : TlvWriter) {type : UInt16} {value : Bytes}

theorem putField_u16 (type value : UInt16) :
    w.putField (.ofU16 type value) = chain (w.putU16 type value) := rfl

theorem putField_u64 (type : UInt16) (value : UInt64) :
    w.putField (.ofU64 type value) = chain (w.putU64 type value) := rfl

theorem putField_bytes {n : Nat} (hlen : value.length = n) (hle : value.length ≤ tlvMaxValueSize) :
    w.putField ⟨type, value, hle⟩ = chain (w.put type (some value) n) := by
  rw [← hlen]
  rfl

theorem putField_take {n : Nat} (hlen : (value.take n).length = n)
    (hle : (value.take n).length ≤ tlvMaxValueSize) :
    w.putField ⟨type, value.take n, hle⟩ = chain (w.put type (some value) n) := by
  rw [putField_bytes w hlen hle, ← put_take]

end Chain

theorem writeEntry_eq (h : e.nameLength ≤ nameCapacity) (buf : Cells UInt8 entryBodyMax) :
    writeEntry e buf = .ok (tlvCoding.encodeAll (entryFields e)) := by
  have hlen := length_encodeAll_entry e
  have hbuf := buf.property
  have hname : (e.name.val.take e.nameLength).length = e.nameLength := by
    rw [length_take, e.name.property]
    omega
  obtain ⟨hinit, hsound⟩ := init_sound buf.val (by rw [hbuf]; decide)
  obtain ⟨w, hput, hwrote⟩ := putFields_spec hsound (entryFields e) (by
    show 0 + _ ≤ buf.val.length
    rw [hlen, hbuf, nameCapacity, entryBodyMax]
    split <;> omega)
  rw [hbuf] at hinit hput hwrote
  have hchain : writeEntry e buf = (entryFields e).foldlM putField ⟨some buf.val, entryBodyMax, 0⟩ >>=
        fun w => .ok ((w.data.getD []).take w.used) := by
    have hhash : e.objectHash.val.length = 32 := e.objectHash.property
    unfold writeEntry entryFields
    rw [hinit]
    cases e.hasObjectHash <;>
      simp only [foldlM_append, foldlM_cons, foldlM_nil, bind_assoc, ok_bind, bind_pure,
        putField_u16, putField_u64, putField_take _ hname, putField_bytes _ hhash, if_true,
        Bool.false_eq_true, if_false, List.append_nil]
  rw [hchain, hput]
  exact congrArg Except.ok hwrote.front

variable {es : List NodeListEntry}

theorem writeEntries_eq (h : ∀ e ∈ es, e.nameLength ≤ nameCapacity)
    (inner : Cells UInt8 entryBodyMax) (w : TlvWriter) :
    writeEntries inner w es = (es.map entryField).foldlM putField w := by
  induction es generalizing w with
  | nil => rfl
  | cons e es ih =>
    rw [forall_mem_cons] at h
    unfold writeEntries
    rw [writeEntry_eq h.1, ok_bind, map_cons, foldlM_cons]
    simp only [ih h.2]
    rfl

/-! ## 3. The size of a page -/

theorem entryValid_of_entriesValid {dir last : UInt64}
    (h : entriesValid dir last es = true) : ∀ e ∈ es, entryValid e = true := by
  induction es generalizing last with
  | nil => simp
  | cons e es ih =>
    unfold entriesValid at h
    split at h
    · cases h
    rename_i hgood
    rw [forall_mem_cons]
    exact ⟨by simpa using (not_or.mp hgood).1, ih h⟩

theorem increasing_of_entriesValid {dir last : UInt64} (h : entriesValid dir last es = true) :
    (∀ e ∈ es, last < e.nodeId) ∧ (es.map NodeListEntry.nodeId).Pairwise (· < ·) := by
  induction es generalizing last with
  | nil => simp
  | cons e es ih =>
    unfold entriesValid at h
    split at h
    · cases h
    rename_i hgood
    simp only [not_or, UInt64.not_le] at hgood
    obtain ⟨hlater, hsorted⟩ := ih h
    have hlast : last < e.nodeId := hgood.2.2.2
    refine ⟨forall_mem_cons.mpr ⟨hlast, fun f hf => ?_⟩, ?_⟩
    · have := hlater f hf
      rw [UInt64.lt_iff_toNat_lt] at *
      omega
    · rw [map_cons, pairwise_cons]
      refine ⟨fun id hid => ?_, hsorted⟩
      obtain ⟨f, hf, rfl⟩ := mem_map.mp hid
      exact hlater f hf

/-- What a page is, if it is one of a listing that went well. -/
structure ValidPage (v : NodeListResponse) : Prop where
  session : v.sessionHandle ≠ 0
  directory : v.directoryId ≠ 0
  size_pos : 1 ≤ v.pageSize
  size_le : v.pageSize ≤ 64
  count_le : v.count ≤ v.pageSize.toNat
  full : v.hasMore = true → v.count = v.pageSize.toNat
  noToken : v.hasMore = false → zeroBytes v.nextPageToken.val = true
  entries : entriesValid v.directoryId 0 (v.entries.val.take v.count) = true

variable {v : NodeListResponse}

theorem responseValid_common (h : responseValid v = true) :
    v.sequence ≠ 0 ∧ statusAllowed v.status = true := by
  unfold responseValid at h
  split at h
  · cases h
  · rename_i hgood
    simpa using hgood

theorem responseValid_page (hok : v.status = 0) :
    responseValid v = true ↔ v.sequence ≠ 0 ∧ ValidPage v := by
  have hallowed : statusAllowed v.status = true := by rw [hok]; decide
  unfold responseValid
  rw [hallowed, hok]
  constructor
  · intro h
    split at h
    · cases h
    rename_i hseq
    have hgood : ¬ (v.sessionHandle = 0 ∨ v.directoryId = 0 ∨ v.pageSize < 1 ∨ v.pageSize > 64 ∨
        v.count > v.pageSize.toNat ∨ (if v.hasMore = true then v.count ≠ v.pageSize.toNat
          else zeroBytes v.nextPageToken.val = false)) := by
      intro hbad
      rw [if_neg (by decide), if_pos hbad] at h
      cases h
    rw [if_neg (by decide), if_neg hgood] at h
    simp only [not_or, UInt16.not_lt, gt_iff_lt, Nat.not_lt] at hgood
    obtain ⟨hsession, hdir, hpos, hle, hcount, htoken⟩ := hgood
    refine ⟨by simpa using hseq, hsession, hdir, hpos, hle, hcount, fun hmore => ?_, fun hmore => ?_, h⟩
    · rw [hmore, if_pos rfl] at htoken
      exact not_not.mp htoken
    · rw [hmore, if_neg (by decide)] at htoken
      simpa using htoken
  · intro ⟨hseq, hpage⟩
    have hpos := hpage.size_pos
    have hle := hpage.size_le
    have hcount := hpage.count_le
    rw [if_neg (by simpa using hseq), if_neg (by decide), if_neg]
    · exact hpage.entries
    simp only [not_or, UInt16.not_lt, gt_iff_lt, Nat.not_lt]
    refine ⟨hpage.session, hpage.directory, hpos, hle, hcount, ?_⟩
    cases hmore : v.hasMore with
    | false => simp [hpage.noToken hmore]
    | true => simp [hpage.full hmore]

theorem ValidPage.count_le_capacity (h : ValidPage v) : v.count ≤ 64 := by
  have hcount := h.count_le
  have hle := UInt16.le_iff_toNat_le.mp h.size_le
  rw [show (64 : UInt16).toNat = 64 from rfl] at hle
  omega

theorem length_encode_entryField (h : e.nameLength ≤ nameCapacity) :
    (entryField e).encode.length = 4 + 70 + e.nameLength + if e.hasObjectHash then 36 else 0 := by
  rw [TlvField.length_encode]
  show tlvHeaderSize + (tlvCoding.encodeAll (entryFields e)).length = _
  rw [length_encodeAll_entry, Nat.min_eq_left h, tlvHeaderSize]
  omega

theorem foldl_entry_size (h : ∀ e ∈ es, e.nameLength ≤ nameCapacity) (n : Nat) :
    es.foldl (fun body e => body + (4 + 70 + e.nameLength + if e.hasObjectHash then 36 else 0)) n =
      n + (tlvCoding.encodeAll (es.map entryField)).length := by
  induction es generalizing n with
  | nil => rfl
  | cons e es ih =>
    rw [forall_mem_cons] at h
    have hlen : (tlvCoding.encode (entryField e)).length = _ := length_encode_entryField h.1
    rw [foldl_cons, ih h.2, map_cons, Coding.encodeAll_cons, length_append, hlen]
    omega

theorem foldl_entry_size_le (h : ∀ e ∈ es, e.nameLength ≤ nameCapacity) :
    (tlvCoding.encodeAll (es.map entryField)).length ≤ es.length * 365 := by
  induction es with
  | nil => simp
  | cons e es ih =>
    rw [forall_mem_cons] at h
    have hlen : (tlvCoding.encode (entryField e)).length = _ := length_encode_entryField h.1
    have hname := h.1
    have hrest := ih h.2
    rw [map_cons, Coding.encodeAll_cons, length_append, hlen, length_cons]
    rw [nameCapacity] at hname
    split <;> omega

section Page

variable {v : NodeListResponse}

theorem ValidPage.names (h : ValidPage v) :
    ∀ e ∈ v.entries.val.take v.count, e.nameLength ≤ nameCapacity := fun e he =>
  (length_le_of_entryValid (entryValid_of_entriesValid h.entries e he)).2

theorem responseBodySize_eq (hok : v.status = 0) (h : ValidPage v) :
    responseBodySize v = (tlvCoding.encodeAll (responseFields v)).length := by
  have htoken : v.nextPageToken.val.length = 96 := v.nextPageToken.property
  have hu64 : ∀ t x, (tlvCoding.encode (TlvField.ofU64 t x)).length = 12 := fun t x => rfl
  have hu16 : ∀ t x, (tlvCoding.encode (TlvField.ofU16 t x)).length = 6 := fun t x => rfl
  unfold responseBodySize responseFields
  rw [if_pos hok, foldl_entry_size h.names]
  cases v.hasMore with
  | false =>
    simp only [Bool.false_eq_true, if_false, List.append_nil, Coding.encodeAll_append,
      Coding.encodeAll_cons, Coding.encodeAll_nil, length_append, hu64, hu16]
  | true =>
    have hbytes : ∀ hle, (tlvCoding.encode ⟨tlvNextPageToken, v.nextPageToken.val, hle⟩).length = 100 := by
      intro hle
      show (TlvField.encode _).length = _
      rw [TlvField.length_encode, tlvHeaderSize]
      show 4 + v.nextPageToken.val.length = 100
      omega
    simp only [if_true, Coding.encodeAll_append, Coding.encodeAll_cons, Coding.encodeAll_nil,
      length_append, hu64, hu16, hbytes, List.append_nil]
    omega

theorem responseBodySize_le (hok : v.status = 0) (h : ValidPage v) :
    responseBodySize v ≤ responseBodyMax := by
  have hsize := foldl_entry_size_le h.names
  have hcount := h.count_le_capacity
  rw [length_take, v.entries.property] at hsize
  unfold responseBodySize
  rw [if_pos hok, foldl_entry_size h.names, responseBodyMax]
  split <;> omega

theorem responseBodySize_other (hbad : v.status ≠ 0) : responseBodySize v = 0 := if_neg hbad

/-- **A page is written as its fields**, over all of the region that was measured for it. -/
theorem responseWrite_eq (hok : v.status = 0) (h : ValidPage v) (frame : Cells UInt8 responseFrameMax)
    (inner : Cells UInt8 entryBodyMax) :
    ∃ w, responseWrite v frame inner = .ok w ∧ w.used = responseBodySize v ∧
      w.data.getD [] = tlvCoding.encodeAll (responseFields v) := by
  have hsize := responseBodySize_eq hok h
  have hle := responseBodySize_le hok h
  have hframe := frame.property
  have hslice : (slice frame.val 32 (responseBodySize v)).length = responseBodySize v := by
    refine length_slice ?_
    rw [hframe, responseFrameMax]
    rw [responseBodyMax] at hle
    omega
  obtain ⟨hinit, hsound⟩ := init_sound (slice frame.val 32 (responseBodySize v)) (by
    rw [hslice, sizeMax]
    rw [responseBodyMax] at hle
    omega)
  obtain ⟨w, hput, hwrote⟩ := putFields_spec hsound (responseFields v) (by
    show 0 + _ ≤ (slice frame.val 32 (responseBodySize v)).length
    omega)
  rw [hslice] at hinit hput hwrote
  have htoken : v.nextPageToken.val.length = 96 := v.nextPageToken.property
  have hchain : responseWrite v frame inner = (responseFields v).foldlM putField
        ⟨some (slice frame.val 32 (responseBodySize v)), responseBodySize v, 0⟩ := by
    unfold responseWrite responseFields
    dsimp only
    rw [hinit]
    cases v.hasMore <;> simp only [hok, if_true, writeEntries_eq h.names, foldlM_append, foldlM_cons,
        foldlM_nil, bind_assoc, ok_bind, bind_ok, bind_pure, putField_u16, putField_u64,
        putField_bytes _ htoken, Bool.false_eq_true, if_false, List.append_nil]
  refine ⟨w, hchain.trans hput, ?_, ?_⟩
  · rw [hwrote.used, hsize]
    exact Nat.zero_add _
  · rw [hwrote.data]
    show overwrite (slice frame.val 32 (responseBodySize v)) 0 _ = _
    rw [overwrite, List.take_zero, nil_append, Nat.zero_add, ← hsize, drop_of_length_le (by omega),
      List.append_nil]

/-! ## 4. The frame -/

theorem publish_eq {header : Header} {frame body : Bytes} (hequal : header.bodyLen.toNat = body.length)
    (hbody : body.length ≤ maxBodySize) (hslice : slice frame 32 body.length = body) :
    publish header frame (32 + body.length) = .ok ((header.sealedWith body).encoded ++ body) := by
  have hle : header.bodyLen.toNat ≤ maxBodySize := by omega
  have hencode : headerEncode header 32 = .ok header.encoded := headerEncode_ok hle
  have hencode' : headerEncode (header.sealedWith body) 32 = .ok (header.sealedWith body).encoded :=
    headerEncode_ok hle
  have hover : ∀ (f : Bytes) (h : Header), overwrite f 0 h.encoded = h.encoded ++ f.drop 32 := by
    intro f h
    rw [overwrite, h.length_encoded]
    rfl
  have htake : ∀ (f : Bytes) (h : Header), (h.encoded ++ f).take 32 = h.encoded := fun f h => rfl
  have hdrop : ∀ (f : Bytes) (h : Header), (h.encoded ++ f).drop 32 = f := fun f h => rfl
  have hcalc : frameCrc32cCalculate header.encoded body = .ok (header.sealedWith body).crc32c :=
    frameCrc32cCalculate_encoded hequal hbody header.crc32c
  have hrest : (frame.drop 32).take body.length = body := hslice
  unfold publish
  rw [hencode, ok_bind]
  dsimp only
  rw [hover, htake, slice, hdrop, Nat.add_sub_cancel_left, hrest, hcalc, ok_bind]
  change (headerEncode (header.sealedWith body) 32 >>= _) = _
  rw [hencode', ok_bind, hover, hdrop]
  have hfront : ∀ (f : Bytes) (h : Header) n, (h.encoded ++ f).take (32 + n) = h.encoded ++ f.take n :=
    fun f h n => by
      show List.take (h.encoded.length + n) (h.encoded ++ f) = h.encoded ++ f.take n
      exact take_length_add_append n
  rw [hfront, hrest]

end Page

theorem statusIsKnown_of_allowed {status : UInt16} (h : statusAllowed status = true) :
    statusIsKnown status = true := by
  have hall : ([0, 1001, 1002, 1004, 1005, 1006, 1007, 1008, 1101, 1201, 1901, 1902, 1906, 1907,
      1908] : List UInt16).all statusIsKnown = true := rfl
  exact all_eq_true.mp hall status (of_decide_eq_true h)

/-- The header that a response goes out with. -/
structure ResponseHeader (h : Header) : Prop where
  command : h.command = commandNodeList
  task : h.taskHandle = 0
  status : statusAllowed h.status = true
  sequence : h.sequence ≠ 0
  flags : h.flags = flagResponse ∨ h.flags = flagResponse ||| flagMore
  session : if h.status = 0 then h.sessionHandle ≠ 0
    else h.sessionHandle = 0 ∧ h.bodyLen = 0 ∧ h.flags = flagResponse

theorem ResponseHeader.validate {h : Header} (hh : ResponseHeader h)
    (hbody : h.bodyLen.toNat ≤ maxBodySize) : responseHeaderValidate h = .ok () := by
  have hflags : flagsHaveUnknownBits h.flags = false ∧ h.flags &&& flagResponse ≠ 0 := by
    rcases hh.flags with heq | heq
    · rw [heq]; decide
    · rw [heq]; decide
  have hcommand : commandIsReserved h.command = false ∧ commandIsKnown h.command = true := by
    rw [hh.command]
    decide
  have hcommon : headerValidate h = .ok () := by
    unfold headerValidate
    rw [if_neg (by omega), hflags.1, if_neg (by decide), hcommand.1, if_neg (by decide), hcommand.2,
      if_neg (by decide), if_neg (show ¬ h.sequence = sequenceNone from hh.sequence)]
  unfold responseHeaderValidate
  rw [hcommon]
  show (if h.flags &&& flagResponse = 0 then _ else _) = _
  rw [if_neg hflags.2, statusIsKnown_of_allowed hh.status, if_neg (by decide)]

theorem envelope_sealed {h : Header} {body : Bytes} (hh : ResponseHeader h)
    (hequal : h.bodyLen.toNat = body.length) (hbody : body.length ≤ responseBodyMax) :
    envelope ((h.sealedWith body).encoded ++ body) true = .ok (h.sealedWith body) := by
  have hmax : body.length ≤ maxBodySize := hbody.trans (by decide)
  have hequal' : (h.sealedWith body).bodyLen.toNat = body.length := hequal
  have hlen : ((h.sealedWith body).encoded ++ body).length = 32 + body.length := by
    rw [length_append]
    rfl
  have htake : ((h.sealedWith body).encoded ++ body).take 32 = (h.sealedWith body).encoded := rfl
  have hdrop : ((h.sealedWith body).encoded ++ body).drop 32 = body := rfl
  have hh' : ResponseHeader (h.sealedWith body) := { hh with }
  rw [responseBodyMax] at hbody
  rw [envelope]
  rw [hlen, if_neg (by omega), if_pos rfl, if_neg (by rw [responseFrameMax]; omega),
    headerDecode_encode _ (by omega)]
  dsimp only
  rw [if_pos rfl, hh'.validate (by omega)]
  dsimp only
  rw [if_neg, htake, hdrop, hequal', take_length, if_neg]
  · rw [frameCrc32cVerify_sealed hequal hmax]
    simp
  · have hflags := hh'.flags
    have hsession := hh'.session
    simp only [if_true, not_or, not_and, not_not, ne_eq]
    refine ⟨hh'.command, hh'.task, ⟨fun hne => hflags.resolve_left hne, by simp [hh'.status], ?_⟩,
      by rw [hequal']⟩
    split
    · rename_i hok
      rw [if_pos hok] at hsession
      exact hsession
    · rename_i hbad
      rw [if_neg hbad] at hsession
      simp [hsession]

/-! ## 5. The schemas -/

theorem schema_iff {p : Bytes} {rules : List TlvRule} (hv : ValidRules rules) (hlen : rules.length ≤ 8) :
    schema p rules rules.length = true ↔ ∃ fields, Accepted rules .reject p fields := by
  unfold schema
  rw [decide_eq_true_iff]
  exact schemaValidate_iff ⟨rfl, rfl, rfl, hv, by decide, hlen⟩

theorem valid_entryRules : ValidRules entryRules :=
  (rulesAreValid_iff (some entryRules)).mp (by decide)

theorem valid_responseRules : ValidRules responseRules :=
  (rulesAreValid_iff (some responseRules)).mp (by decide)

theorem schema_entry (hpos : 0 < e.nameLength) (hle : e.nameLength ≤ nameCapacity) :
    schema (tlvCoding.encodeAll (entryFields e)) entryRules 8 = true := by
  have hname : (e.name.val.take e.nameLength).length = e.nameLength := by
    rw [length_take, e.name.property]
    omega
  have hhash : e.objectHash.val.length = 32 := e.objectHash.property
  rw [nameCapacity] at hle
  refine (schema_iff valid_entryRules (by decide)).mpr ⟨entryFields e, ?_⟩
  have htypes : (entryFields e).map TlvField.type =
      [0x0401, 0x0402, 0x0403, 0x0404, 0x0405, 0x0406, 0x0407] ++
        if e.hasObjectHash then [0x0408] else [] := by
    unfold entryFields
    cases e.hasObjectHash <;> rfl
  refine accepted_of_ruled valid_entryRules ?_ ?_ ?_
  · unfold entryFields
    simp only [forall_mem_append, forall_mem_cons]
    refine ⟨⟨⟨_, by decide, rfl, fits_u64 0x0401 true false _⟩,
      ⟨_, by decide, rfl, fits_u64 0x0402 true false _⟩,
      ⟨⟨0x0403, 1, 255, .bytes, true, false⟩, by decide, rfl, fits_bytes ?_ ?_⟩,
      ⟨_, by decide, rfl, fits_u16 0x0404 true false _⟩,
      ⟨_, by decide, rfl, fits_u64 0x0405 true false _⟩,
      ⟨_, by decide, rfl, fits_u64 0x0406 true false _⟩,
      ⟨_, by decide, rfl, fits_u64 0x0407 true false _⟩, by simp⟩, ?_⟩
    · show 1 ≤ (e.name.val.take e.nameLength).length
      omega
    · show (e.name.val.take e.nameLength).length ≤ 255
      omega
    · intro f hf
      split at hf
      · rw [mem_singleton.mp hf]
        refine ⟨⟨0x0408, 32, 32, .bytes, false, false⟩, by decide, rfl, fits_bytes ?_ ?_⟩
        · exact hhash.ge
        · exact hhash.le
      · cases hf
  · rw [htypes]
    cases e.hasObjectHash <;> decide
  · rw [htypes]
    cases e.hasObjectHash <;> decide

theorem schema_response (v : NodeListResponse) :
    schema (tlvCoding.encodeAll (responseFields v)) responseRules 4 = true := by
  have htoken : v.nextPageToken.val.length = 96 := v.nextPageToken.property
  refine (schema_iff valid_responseRules (by decide)).mpr ⟨responseFields v, ?_⟩
  have hentries : ((v.entries.val.take v.count).map entryField).map TlvField.type =
      List.replicate (v.entries.val.take v.count).length 0x0413 := by
    rw [map_map]
    exact map_const' ..
  have htypes : (responseFields v).map TlvField.type = [0x0410, 0x0411] ++
      List.replicate (v.entries.val.take v.count).length 0x0413 ++
        if v.hasMore then [0x0414] else [] := by
    unfold responseFields
    rw [map_append, map_append, hentries]
    cases v.hasMore <;> rfl
  refine accepted_of_ruled valid_responseRules ?_ ?_ ?_
  · unfold responseFields
    simp only [forall_mem_append, forall_mem_cons]
    refine ⟨⟨⟨⟨_, by decide, rfl, fits_u64 0x0410 true false _⟩,
      ⟨_, by decide, rfl, fits_u16 0x0411 true false _⟩, by simp⟩, ?_⟩, ?_⟩
    · intro f hf
      obtain ⟨e, -, rfl⟩ := mem_map.mp hf
      refine ⟨⟨0x0413, 0, 361, .bytes, false, true⟩, by decide, rfl, fits_bytes (Nat.zero_le _) ?_⟩
      show (tlvCoding.encodeAll (entryFields e)).length ≤ 361
      rw [length_encodeAll_entry, nameCapacity]
      split <;> omega
    · intro f hf
      split at hf
      · rw [mem_singleton.mp hf]
        refine ⟨⟨0x0414, 96, 96, .bytes, false, false⟩, by decide, rfl, fits_bytes ?_ ?_⟩
        · exact htoken.ge
        · exact htoken.le
      · cases hf
  · rw [htypes]
    generalize (v.entries.val.take v.count).length = n
    cases v.hasMore <;> simp [responseRules, count_append, count_cons, count_replicate]
  · rw [htypes]
    cases v.hasMore <;> simp [responseRules]

end Vireo.Protocol
