/-
  File:      Vireo/Protocol/Tlv.lean
  Subject:   TYPE-LENGTH-VALUE FIELDS (`src/protocol/tlv.c`): the writer and the reader.

  A pointer is the list of the bytes behind it, or nothing when it is null. Null handles and null
  outputs do not exist here.
-/
import Vireo.Lib.Region
import Vireo.Lib.Stream
import Vireo.Protocol.Wire

namespace Vireo.Protocol

open Lib List

/-! ## 1. The functions -/

/-- `vireo_tlv_issue_t`. -/
inductive TlvIssue where
  | none
  | truncatedHeader
  | truncatedValue
  | unknownType
  | invalidLength
  | duplicateField
  | missingRequiredField
  | invalidUtf8
  | invalidName
deriving DecidableEq, Inhabited

/-- `VIREO_TLV_HEADER_SIZE`. -/
def tlvHeaderSize : Nat := 4

/-- `VIREO_TLV_LENGTH_OFFSET`; the type comes before it, at offset 0. -/
def tlvLengthOffset : Nat := 2

/-- `VIREO_TLV_MAX_VALUE_SIZE`. -/
def tlvMaxValueSize : Nat := 65535

/-- `vireo_tlv_writer_t`. -/
structure TlvWriter where
  data : Option Bytes
  capacity : Nat
  used : Nat
deriving DecidableEq

/-- `vireo_tlv_reader_t`. -/
structure TlvReader where
  data : Option Bytes
  size : Nat
  offset : Nat

/-- `vireo_tlv_view_t`. -/
structure TlvView where
  type : UInt16
  value : Option Bytes
  length : Nat
deriving DecidableEq, Inhabited

/-- What `vireo_tlv_reader_next` returns and leaves in its three outputs. -/
structure TlvNext where
  result : Result
  reader : TlvReader
  view : TlvView
  issue : TlvIssue

namespace TlvWriter

variable (w : TlvWriter)

/-- `vireo_tlv_writer_is_valid`. -/
def isValid : Bool :=
  if w.used > w.capacity then false
  else if w.data.isNone ∧ w.capacity ≠ 0 then false
  else true

/-- `vireo_tlv_writer_init`. -/
def init (data : Option Bytes) (capacity : Nat) : Except Result TlvWriter :=
  if data.isNone ∧ capacity ≠ 0 then .error .invalidArgument else .ok ⟨data, capacity, 0⟩

/-- `vireo_tlv_writer_put`: everything is checked before the first byte is written. -/
def put (type : UInt16) (value : Option Bytes) (valueSize : Nat) :
    Result × TlvWriter :=
  if w.isValid = false then (.invalidArgument, w)
  else if value.isNone ∧ valueSize ≠ 0 then (.invalidArgument, w)
  else if valueSize > tlvMaxValueSize then (.range, w)
  else
    match checkedSizeAdd tlvHeaderSize valueSize with
    | .error e => (e, w)
    | .ok tlvSize =>
      match checkedSizeAdd w.used tlvSize with
      | .error e => (e, w)
      | .ok newUsed =>
        if newUsed > w.capacity then (.range, w)
        else
          let write (wire : Bytes) : Bytes :=
            let typed := overwrite wire w.used (writeU16Be type)
            let sized := overwrite typed (w.used + tlvLengthOffset)
              (writeU16Be (UInt16.ofNat valueSize))
            if valueSize ≠ 0 then
              overwrite sized (w.used + tlvHeaderSize) ((value.getD []).take valueSize)
            else sized
          (.ok, { w with data := w.data.map write, used := newUsed })

/-- `vireo_tlv_writer_put_u16`. -/
def putU16 (type value : UInt16) : Result × TlvWriter :=
  w.put type (some (writeU16Be value)) 2

/-- `vireo_tlv_writer_put_u32`. -/
def putU32 (type : UInt16) (value : UInt32) : Result × TlvWriter :=
  w.put type (some (writeU32Be value)) 4

/-- `vireo_tlv_writer_put_u64`. -/
def putU64 (type : UInt16) (value : UInt64) : Result × TlvWriter :=
  w.put type (some (writeU64Be value)) 8

/-- A call inside a chain of puts that stops at the first one that fails. -/
def chain (r : Result × TlvWriter) : Except Result TlvWriter :=
  if r.1 = .ok then .ok r.2 else .error r.1

end TlvWriter

namespace TlvReader

/-- `vireo_tlv_reader_is_valid`. -/
def isValid (r : TlvReader) : Bool :=
  if r.offset > r.size then false
  else if r.data.isNone ∧ r.size ≠ 0 then false
  else true

/-- `vireo_tlv_reader_init`. -/
def init (data : Option Bytes) (size : Nat) : Except Result TlvReader :=
  if data.isNone ∧ size ≠ 0 then .error .invalidArgument else .ok ⟨data, size, 0⟩

/-- `vireo_tlv_reader_next`. -/
def next (r : TlvReader) (out : TlvView) : TlvNext :=
  if r.isValid = false then ⟨.invalidArgument, r, out, .none⟩
  else if r.offset = r.size then ⟨.notFound, r, out, .none⟩
  else
    let remaining := r.size - r.offset
    if remaining < tlvHeaderSize then ⟨.protocol, r, out, .truncatedHeader⟩
    else
      let wire := (r.data.getD []).drop r.offset
      let valueSize := (readU16Be (wire.drop tlvLengthOffset)).toNat
      if valueSize > remaining - tlvHeaderSize then ⟨.protocol, r, out, .truncatedValue⟩
      else
        let view := ⟨readU16Be wire, some ((wire.drop tlvHeaderSize).take valueSize), valueSize⟩
        ⟨.ok, { r with offset := r.offset + tlvHeaderSize + valueSize }, view, .none⟩

/-- The loop of the message decoders over the fields of a reader, `step` being their switch over the type. -/
def foldFields {σ : Type} (step : σ → TlvView → Except Result σ) :
    Nat → TlvReader → σ → Except Result σ
  | 0, _, s => .ok s
  | k + 1, r, s =>
    if r.offset < r.size then
      let n := r.next default
      if n.result ≠ .ok then .error n.result
      else
        match step s n.view with
        | .error e => .error e
        | .ok s => foldFields step k n.reader s
    else .ok s

end TlvReader

namespace TlvView

/-- `vireo_tlv_view_read_u16`. -/
def readU16 (v : TlvView) : Except Result UInt16 :=
  if v.value.isNone ∧ v.length ≠ 0 then .error .invalidArgument
  else if v.length ≠ 2 then .error .protocol
  else .ok (readU16Be (v.value.getD []))

/-- `vireo_tlv_view_read_u32`. -/
def readU32 (v : TlvView) : Except Result UInt32 :=
  if v.value.isNone ∧ v.length ≠ 0 then .error .invalidArgument
  else if v.length ≠ 4 then .error .protocol
  else .ok (readU32Be (v.value.getD []))

/-- `vireo_tlv_view_read_u64`. -/
def readU64 (v : TlvView) : Except Result UInt64 :=
  if v.value.isNone ∧ v.length ≠ 0 then .error .invalidArgument
  else if v.length ≠ 8 then .error .protocol
  else .ok (readU64Be (v.value.getD []))

end TlvView

/-! ## 2. The format -/

/-- A field: a type and a value whose length fits the length field. -/
structure TlvField where
  type : UInt16
  value : Bytes
  length_le : value.length ≤ tlvMaxValueSize
deriving DecidableEq

/-- A field as it is seen through a reader. -/
def TlvField.view (f : TlvField) : TlvView := ⟨f.type, some f.value, f.value.length⟩

/-- A field on the wire. -/
def TlvField.encode (f : TlvField) : Bytes :=
  writeU16Be f.type ++ writeU16Be (UInt16.ofNat f.value.length) ++ f.value

theorem TlvField.length_encode (f : TlvField) : f.encode.length = tlvHeaderSize + f.value.length := by
  simp [TlvField.encode, tlvHeaderSize]
  omega

/-- The field at the front of a stream. -/
def tlvLook (s : Bytes) : Look TlvField Empty :=
  let n := (readU16Be (s.drop tlvLengthOffset)).toNat
  if s.length < tlvHeaderSize then .more
  else if n > s.length - tlvHeaderSize then .more
  else
    .item ⟨readU16Be s, (s.drop tlvHeaderSize).take n,
      (length_take_le ..).trans (Nat.le_of_lt_succ (UInt16.toNat_lt _))⟩ (tlvHeaderSize + n)

theorem tlvLook_item {s : Bytes} {f : TlvField} {n : Nat} (h : tlvLook s = .item f n) :
    tlvHeaderSize ≤ s.length ∧ n ≤ s.length ∧ n = tlvHeaderSize + f.value.length ∧
      f.value.length = (readU16Be (s.drop tlvLengthOffset)).toNat ∧ f.type = readU16Be s ∧
      f.value = (s.drop tlvHeaderSize).take f.value.length := by
  rw [tlvLook] at h
  split at h
  · cases h
  split at h
  · cases h
  rename_i h₁ h₂
  cases h
  have hlen : ((s.drop tlvHeaderSize).take (readU16Be (s.drop tlvLengthOffset)).toNat).length =
      (readU16Be (s.drop tlvLengthOffset)).toNat := by
    rw [length_take, length_drop]
    omega
  refine ⟨by omega, by omega, by rw [hlen], hlen, rfl, by rw [hlen]⟩

theorem tlvLook_of {s : Bytes} {f : TlvField} (hle : tlvHeaderSize + f.value.length ≤ s.length)
    (hlen : f.value.length = (readU16Be (s.drop tlvLengthOffset)).toNat) (htype : f.type = readU16Be s)
    (hvalue : f.value = (s.drop tlvHeaderSize).take f.value.length) :
    tlvLook s = .item f (tlvHeaderSize + f.value.length) := by
  unfold tlvLook
  rw [if_neg (by omega), if_neg (by omega)]
  obtain ⟨type, value, hbound⟩ := f
  rw [Look.item.injEq, TlvField.mk.injEq, ← hlen]
  exact ⟨⟨htype.symm, hvalue.symm⟩, rfl⟩

theorem tlvLook_view {s : Bytes} (h₁ : ¬ s.length < tlvHeaderSize)
    (h₂ : ¬ (readU16Be (s.drop tlvLengthOffset)).toNat > s.length - tlvHeaderSize) :
    let n := (readU16Be (s.drop tlvLengthOffset)).toNat
    ∃ f, tlvLook s = .item f (tlvHeaderSize + n) ∧
      f.view = ⟨readU16Be s, some ((s.drop tlvHeaderSize).take n), n⟩ := by
  refine ⟨_, (if_neg h₁).trans (if_neg h₂), ?_⟩
  show TlvView.mk _ _ _ = _
  rw [length_take, length_drop, Nat.min_eq_left (by omega)]

/-- The fields of a stream. -/
def tlvReading : Reading UInt8 TlvField Empty where
  look := tlvLook
  pos h := by
    obtain ⟨-, -, hn, -⟩ := tlvLook_item h
    rw [hn, tlvHeaderSize]
    omega
  le h := (tlvLook_item h).2.1
  item_append {s f n} h t := by
    obtain ⟨hhead, hle, hn, hlen, htype, hvalue⟩ := tlvLook_item h
    have hhead' : 4 ≤ s.length := hhead
    have hdrop : (s ++ t).drop tlvLengthOffset = s.drop tlvLengthOffset ++ t :=
      drop_append_of_le_length (by rw [tlvLengthOffset]; omega)
    rw [hn]
    refine tlvLook_of ?_ ?_ ?_ ?_
    · rw [length_append]
      omega
    · rw [hdrop, readU16Be_append _ t, hlen]
      rw [length_drop, tlvLengthOffset]
      omega
    · rw [readU16Be_append (by omega), htype]
    · rw [drop_append_of_le_length hhead, take_append_of_le_length, ← hvalue]
      rw [length_drop]
      omega
  refuse_append {s e} _ := e.elim

theorem tlvReading_look (s : Bytes) : tlvReading.look s = tlvLook s := rfl

/-- The wire form of a field, read back and unique. -/
def tlvCoding : Coding tlvReading where
  encode := TlvField.encode
  look_encode f t := by
    have hbound : f.value.length < 65536 := Nat.lt_succ_of_le f.length_le
    have hlen : (UInt16.ofNat f.value.length).toNat = f.value.length := by
      rw [UInt16.toNat_ofNat', Nat.mod_eq_of_lt hbound]
    have hwire : f.encode ++ t = writeU16Be f.type ++
        (writeU16Be (UInt16.ofNat f.value.length) ++ (f.value ++ t)) := by
      rw [TlvField.encode, append_assoc, append_assoc]
    have hdrop : (f.encode ++ t).drop tlvLengthOffset =
        writeU16Be (UInt16.ofNat f.value.length) ++ (f.value ++ t) := by
      rw [hwire]
      rfl
    have hvalue : (f.encode ++ t).drop tlvHeaderSize = f.value ++ t := by
      rw [hwire]
      rfl
    rw [f.length_encode, tlvReading_look]
    refine tlvLook_of ?_ ?_ ?_ ?_
    · rw [length_append, f.length_encode]
      omega
    · rw [hdrop, readU16Be_write, hlen]
    · rw [hwire, readU16Be_write]
    · rw [hvalue, take_left]
  encode_look {s f n} h := by
    obtain ⟨hhead, -, hn, hlen, htype, hvalue⟩ := tlvLook_item h
    have hhead' : 4 ≤ s.length := hhead
    have hsize : UInt16.ofNat f.value.length = readU16Be (s.drop tlvLengthOffset) := by
      rw [hlen, UInt16.ofNat_toNat]
    have hfour : s.take tlvHeaderSize = s.take 2 ++ (s.drop tlvLengthOffset).take 2 :=
      take_add (i := 2) (j := 2)
    unfold TlvField.encode
    rw [hsize, htype, writeU16Be_read (by omega),
      writeU16Be_read (by rw [length_drop, tlvLengthOffset]; omega), hn, take_add, hfour,
      ← hvalue]

/-! ## 3. The writer and the format -/

/-- What every caller of the writer keeps: the region behind it has `capacity` bytes, of which `used`
    are taken. -/
structure TlvWriter.Sound (w : TlvWriter) : Prop where
  used_le : w.used ≤ w.capacity
  region : (w.data.getD []).length = w.capacity
  capacity_le : w.capacity ≤ sizeMax

/-- `w'` is `w` after the bytes `s` were appended. -/
structure TlvWriter.Wrote (w : TlvWriter) (s : Bytes) (w' : TlvWriter) : Prop where
  sound : w'.Sound
  capacity : w'.capacity = w.capacity
  used : w'.used = w.used + s.length
  data : w'.data.getD [] = overwrite (w.data.getD []) w.used s

/-- **A put that fails leaves the writer and its bytes as they were.** -/
theorem put_unchanged {w : TlvWriter} {type : UInt16} {value : Option Bytes} {n : Nat}
    (h : (w.put type value n).1 ≠ .ok) : (w.put type value n).2 = w := by
  have hcases : (w.put type value n).1 = .ok ∨ (w.put type value n).2 = w := by
    unfold TlvWriter.put
    split
    · exact .inr rfl
    split
    · exact .inr rfl
    split
    · exact .inr rfl
    split
    · exact .inr rfl
    split
    · exact .inr rfl
    split
    · exact .inr rfl
    · exact .inl rfl
  exact hcases.resolve_left h

section Writer

variable {w w' : TlvWriter}

theorem TlvWriter.Sound.isValid (h : w.Sound) : w.isValid = true := by
  have hused := h.used_le
  have hregion := h.region
  unfold TlvWriter.isValid
  rw [if_neg (by omega), if_neg]
  rintro ⟨hnull, hcap⟩
  rw [Option.isNone_iff_eq_none.mp hnull] at hregion
  exact hcap hregion.symm

theorem overwrite_field {d : Bytes} {pos : Nat} (h : pos ≤ d.length) (f : TlvField) :
    (let typed := overwrite d pos (writeU16Be f.type)
     let sized := overwrite typed (pos + tlvLengthOffset) (writeU16Be (UInt16.ofNat f.value.length))
     if f.value.length ≠ 0 then
       overwrite sized (pos + tlvHeaderSize) (f.value.take f.value.length)
     else sized) = overwrite d pos f.encode := by
  have htwo : overwrite (overwrite d pos (writeU16Be f.type)) (pos + tlvLengthOffset)
      (writeU16Be (UInt16.ofNat f.value.length)) =
      overwrite d pos (writeU16Be f.type ++ writeU16Be (UInt16.ofNat f.value.length)) :=
    overwrite_append _ h
  dsimp only
  rw [htwo, take_length]
  split
  · exact overwrite_append _ h
  rename_i hz
  have hnil : f.value = [] := length_eq_zero_iff.mp (not_not.mp hz)
  rw [TlvField.encode, hnil, List.append_nil]

/-- **A put writes the field behind the used bytes** when there is room for it. -/
theorem put_spec (h : w.Sound) (f : TlvField) (hroom : w.used + f.encode.length ≤ w.capacity) :
    ∃ w', w.put f.type (some f.value) f.value.length = (.ok, w') ∧ w.Wrote f.encode w' := by
  have hused := h.used_le
  have hmax := h.capacity_le
  have hregion := h.region
  have hbound := f.length_le
  have hlen := f.length_encode
  cases hdata : w.data with
  | none =>
    -- a null region has no room
    rw [hdata] at hregion
    have hzero : w.capacity = 0 := hregion.symm
    rw [tlvHeaderSize] at hlen
    omega
  | some d =>
    rw [hdata] at hregion
    have hd : d.length = w.capacity := hregion
    have hwrite := overwrite_field (show w.used ≤ d.length by omega) f
    have hput : w.put f.type (some f.value) f.value.length =
        (.ok, { w with data := some (overwrite d w.used f.encode), used := w.used + f.encode.length }) := by
      unfold TlvWriter.put
      rw [h.isValid, if_neg (by decide), if_neg (by simp), if_neg (by omega),
        checkedSizeAdd_of_le (by rw [← hlen]; omega)]
      dsimp only
      rw [← hlen, checkedSizeAdd_of_le (by omega)]
      dsimp only
      rw [if_neg (by omega), hdata, Option.map_some, Option.getD_some]
      rw [hwrite]
    refine ⟨_, hput, ⟨by simpa using hroom, ?_, hmax⟩, rfl, rfl, by rw [hdata]; rfl⟩
    show (overwrite d w.used f.encode).length = w.capacity
    rw [length_overwrite (by omega), hd]

/-- Fields put one after the other, up to the first one that is refused. -/
def TlvWriter.putAll (w : TlvWriter) : List TlvField → Result × TlvWriter
  | [] => (.ok, w)
  | f :: fs =>
    let r := w.put f.type (some f.value) f.value.length
    if r.1 = .ok then r.2.putAll fs else r

theorem TlvWriter.Wrote.trans {s t : Bytes} {w'' : TlvWriter} (h : w.Wrote s w')
    (h' : w'.Wrote t w'') (hw : w.Sound) : w.Wrote (s ++ t) w'' := by
  refine ⟨h'.sound, h'.capacity.trans h.capacity, ?_, ?_⟩
  · rw [h'.used, h.used, length_append, Nat.add_assoc]
  · rw [h'.data, h.data, h.used]
    exact overwrite_append _ (by rw [hw.region]; exact hw.used_le)

theorem TlvWriter.Sound.wrote_nil (h : w.Sound) : w.Wrote [] w :=
  ⟨h, rfl, rfl, by rw [overwrite_nil]⟩

theorem putAll_spec (h : w.Sound) (fs : List TlvField)
    (hroom : w.used + (tlvCoding.encodeAll fs).length ≤ w.capacity) :
    ∃ w', w.putAll fs = (.ok, w') ∧ w.Wrote (tlvCoding.encodeAll fs) w' := by
  induction fs generalizing w with
  | nil => exact ⟨w, rfl, h.wrote_nil⟩
  | cons f fs ih =>
    have hcons : tlvCoding.encodeAll (f :: fs) = f.encode ++ tlvCoding.encodeAll fs := by
      rw [Coding.encodeAll_cons]
      rfl
    rw [hcons, length_append] at hroom
    obtain ⟨w₁, hput, hw₁⟩ := put_spec h f (by omega)
    obtain ⟨w', hall, hw'⟩ := ih hw₁.sound (by rw [hw₁.used, hw₁.capacity]; omega)
    refine ⟨w', ?_, hcons ▸ hw₁.trans hw' h⟩
    unfold TlvWriter.putAll
    rw [hput]
    exact hall

/-- A put inside a chain. -/
def TlvWriter.putField (w : TlvWriter) (f : TlvField) : Except Result TlvWriter :=
  chain (w.put f.type (some f.value) f.value.length)

/-- **A chain of puts of fields that fit writes them one after the other.** -/
theorem putFields_spec (h : w.Sound) (fs : List TlvField)
    (hroom : w.used + (tlvCoding.encodeAll fs).length ≤ w.capacity) :
    ∃ w', fs.foldlM TlvWriter.putField w = .ok w' ∧ w.Wrote (tlvCoding.encodeAll fs) w' := by
  have hchain : ∀ (fs : List TlvField) (w : TlvWriter),
      fs.foldlM TlvWriter.putField w = TlvWriter.chain (w.putAll fs) := by
    intro fs
    induction fs with
    | nil => exact fun w => rfl
    | cons f fs ih =>
      intro w
      rw [foldlM_cons]
      unfold TlvWriter.putAll TlvWriter.putField
      generalize w.put f.type (some f.value) f.value.length = r
      dsimp only
      split
      · rename_i hok
        have hr : TlvWriter.chain r = .ok r.2 := if_pos hok
        rw [hr, ← ih]
        rfl
      · rename_i hbad
        have hr : TlvWriter.chain r = .error r.1 := if_neg hbad
        rw [hr]
        rfl
  obtain ⟨w', hall, hwrote⟩ := putAll_spec h fs hroom
  exact ⟨w', by rw [hchain, hall]; rfl, hwrote⟩

theorem put_take (w : TlvWriter) (type : UInt16) (value : Bytes) (n : Nat) :
    w.put type (some value) n = w.put type (some (value.take n)) n := by
  unfold TlvWriter.put
  simp only [Option.getD_some, take_take, Nat.min_self, Option.isNone_some]

/-- The bytes between the two positions of a writer. -/
def TlvWriter.written (w w' : TlvWriter) : Bytes :=
  slice (w'.data.getD []) w.used (w'.used - w.used)

theorem TlvWriter.Wrote.written {s : Bytes} (h : w.Wrote s w') (hw : w.Sound) : w.written w' = s := by
  unfold TlvWriter.written
  rw [h.data, h.used, Nat.add_sub_cancel_left]
  exact slice_overwrite (by rw [hw.region]; exact hw.used_le)

end Writer

/-! ## 4. The reader and the format -/

/-- What every caller of the reader keeps: the region behind it has `size` bytes. -/
structure TlvReader.Sound (r : TlvReader) : Prop where
  offset_le : r.offset ≤ r.size
  region : (r.data.getD []).length = r.size

/-- A reader at the start of a byte string. -/
def TlvReader.over (s : Bytes) : TlvReader := ⟨some s, s.length, 0⟩

/-- The bytes that are still to be read. -/
def TlvReader.rest (r : TlvReader) : Bytes := (r.data.getD []).drop r.offset

@[simp]
theorem TlvReader.rest_over (s : Bytes) : (TlvReader.over s).rest = s := rfl

theorem TlvReader.sound_over (s : Bytes) : (TlvReader.over s).Sound := ⟨Nat.zero_le _, rfl⟩

theorem TlvReader.init_over (s : Bytes) : TlvReader.init (some s) s.length = .ok (.over s) :=
  if_neg (by simp)

section Reader

variable {r : TlvReader}

theorem TlvReader.Sound.length_rest (h : r.Sound) : r.rest.length = r.size - r.offset := by
  rw [TlvReader.rest, length_drop, h.region]

theorem TlvReader.Sound.isValid (h : r.Sound) : r.isValid = true := by
  have hle := h.offset_le
  have hregion := h.region
  unfold TlvReader.isValid
  rw [if_neg (by omega), if_neg]
  rintro ⟨hnull, hsize⟩
  rw [Option.isNone_iff_eq_none.mp hnull] at hregion
  exact hsize hregion.symm

theorem TlvReader.Sound.rest_eq_nil (h : r.Sound) : r.rest = [] ↔ r.offset = r.size := by
  have hle := h.offset_le
  rw [← length_eq_zero_iff, h.length_rest]
  omega

/-- What a call of the reader does, told by the field at the front of what is left. -/
inductive Nexted (r : TlvReader) (out : TlvView) : TlvNext → Prop
  | field (f : TlvField) (n : Nat) (look : tlvLook r.rest = .item f n)
      (sound : ({ r with offset := r.offset + n } : TlvReader).Sound)
      (rest : ({ r with offset := r.offset + n } : TlvReader).rest = r.rest.drop n) :
      Nexted r out ⟨.ok, { r with offset := r.offset + n }, f.view, .none⟩
  | ended (empty : r.rest = []) : Nexted r out ⟨.notFound, r, out, .none⟩
  | cutHeader (some : r.rest ≠ []) (look : tlvLook r.rest = .more)
      (short : r.rest.length < tlvHeaderSize) : Nexted r out ⟨.protocol, r, out, .truncatedHeader⟩
  | cutValue (some : r.rest ≠ []) (look : tlvLook r.rest = .more)
      (long : tlvHeaderSize ≤ r.rest.length) : Nexted r out ⟨.protocol, r, out, .truncatedValue⟩

/-- **A call of the reader takes the field at the front, or says why there is none.** -/
theorem next_spec (h : r.Sound) (out : TlvView) : Nexted r out (r.next out) := by
  have hle := h.offset_le
  have hlen := h.length_rest
  unfold TlvReader.next
  rw [h.isValid, if_neg (by decide)]
  by_cases hend : r.offset = r.size
  · rw [if_pos hend]
    exact .ended (h.rest_eq_nil.mpr hend)
  · have hsome : r.rest ≠ [] := fun e => hend (h.rest_eq_nil.mp e)
    rw [if_neg hend, ← hlen]
    change Nexted r out (if r.rest.length < tlvHeaderSize then _ else
      if (readU16Be (r.rest.drop tlvLengthOffset)).toNat > r.rest.length - tlvHeaderSize then _ else _)
    by_cases hhead : r.rest.length < tlvHeaderSize
    · rw [if_pos hhead]
      exact .cutHeader hsome (if_pos hhead) hhead
    · rw [if_neg hhead]
      by_cases hvalue : (readU16Be (r.rest.drop tlvLengthOffset)).toNat > r.rest.length - tlvHeaderSize
      · rw [if_pos hvalue]
        exact .cutValue hsome ((if_neg hhead).trans (if_pos hvalue)) (by omega)
      · rw [if_neg hvalue]
        obtain ⟨f, hlook, hview⟩ := tlvLook_view hhead hvalue
        have hn := (tlvLook_item hlook).2.1
        have hrest : (r.data.getD []).drop r.offset = r.rest := rfl
        simp only [hrest, Nat.add_assoc]
        rw [← hview]
        refine .field f _ hlook ⟨?_, h.region⟩ ?_
        · show r.offset + _ ≤ r.size
          omega
        · show (r.data.getD []).drop (r.offset + _) = ((r.data.getD []).drop r.offset).drop _
          rw [drop_drop]

/-- **A call that fails leaves the reader and the view as they were.** -/
theorem next_unchanged {out : TlvView} (h : (r.next out).result ≠ .ok) :
    (r.next out).reader = r ∧ (r.next out).view = out := by
  have hcases : (r.next out).result = .ok ∨ ((r.next out).reader = r ∧ (r.next out).view = out) := by
    unfold TlvReader.next
    split
    · exact .inr ⟨rfl, rfl⟩
    split
    · exact .inr ⟨rfl, rfl⟩
    dsimp only
    split
    · exact .inr ⟨rfl, rfl⟩
    split
    · exact .inr ⟨rfl, rfl⟩
    · exact .inl rfl
  exact hcases.resolve_left h

/-- **The loop over the fields of a well-formed region is a fold over them.** -/
theorem foldFields_eq {σ : Type} (step : σ → TlvView → Except Result σ) {fields : List TlvField}
    {k : Nat} (h : r.Sound) (hr : r.rest = tlvCoding.encodeAll fields) (hk : r.rest.length < k) (s : σ) :
    TlvReader.foldFields step k r s = fields.foldlM (fun s f => step s f.view) s := by
  induction fields generalizing k r s with
  | nil =>
    have hend := h.rest_eq_nil.mp hr
    cases k with
    | zero => omega
    | succ k =>
      unfold TlvReader.foldFields
      exact if_neg (by omega)
  | cons f fields ih =>
    rw [Coding.encodeAll_cons] at hr
    have hlook : tlvLook r.rest = .item f f.encode.length := by
      rw [hr]
      exact tlvCoding.look_encode f _
    obtain ⟨-, hle, hn, -⟩ := tlvLook_item hlook
    have hlen := h.length_rest
    rw [tlvHeaderSize] at hn
    cases k with
    | zero => omega
    | succ k =>
      have hnext := next_spec h default
      unfold TlvReader.foldFields
      rw [if_pos (by omega), foldlM_cons]
      generalize r.next default = n at hnext ⊢
      cases hnext with
      | field f' n look sound rest =>
        rw [hlook] at look
        cases look
        have hdrop : r.rest.drop f.encode.length = tlvCoding.encodeAll fields := by
          rw [hr]
          exact drop_left
        rw [if_neg (by simp)]
        cases step s f.view with
        | error e => rfl
        | ok s' => exact ih sound (rest.trans hdrop) (by rw [rest, length_drop]; omega) s'
      | ended empty => rw [empty] at hle; simp only [length_nil] at hle; omega
      | cutHeader some look short => rw [hlook] at look; cases look
      | cutValue some look long => rw [hlook] at look; cases look

/-! ## 5. Traversals -/

/-- Calls of the reader up to the first that returns no field, at most `k`: the views, and the last result. -/
def TlvReader.traverse : Nat → TlvReader → TlvView → List TlvView × TlvNext
  | 0, r, out => ([], ⟨.ok, r, out, .none⟩)
  | k + 1, r, out =>
    let n := r.next out
    if n.result = .ok then
      let t := TlvReader.traverse k n.reader n.view
      (n.view :: t.1, t.2)
    else ([], n)

/-- A traversal that was given enough calls: it has read all the fields there are. -/
structure Traversed (r : TlvReader) (t : List TlvView × TlvNext) : Prop where
  fields : ∃ fs, t.1 = fs.map TlvField.view ∧ tlvReading.Parsed r.rest fs t.2.reader.rest none
  result : t.2.result = if t.2.reader.rest = [] then .notFound else .protocol

theorem traverse_spec {k : Nat} (h : r.Sound) (hk : r.rest.length < tlvHeaderSize * k)
    (out : TlvView) : Traversed r (r.traverse k out) := by
  induction k generalizing r out with
  | zero => omega
  | succ k ih =>
    have hnext := next_spec h out
    unfold TlvReader.traverse
    generalize r.next out = n at hnext ⊢
    cases hnext with
    | field f m look sound rest =>
      obtain ⟨-, hm, hlen, -⟩ := tlvLook_item look
      have hshort : ({ r with offset := r.offset + m } : TlvReader).rest.length < tlvHeaderSize * k := by
        rw [rest, length_drop]
        rw [tlvHeaderSize] at hk hlen ⊢
        omega
      obtain ⟨⟨fs, hviews, hparsed⟩, hresult⟩ := ih sound hshort f.view
      rw [rest] at hparsed
      refine ⟨⟨f :: fs, ?_, .item look hparsed.reads, hparsed.stop⟩, hresult⟩
      show f.view :: _ = _
      rw [hviews, map_cons]
    | ended empty =>
      refine ⟨⟨[], rfl, .done _, ?_⟩, (if_pos empty).symm⟩
      show tlvLook r.rest = .more
      rw [empty]
      rfl
    | cutHeader some look short => exact ⟨⟨[], rfl, .done _, look⟩, (if_neg some).symm⟩
    | cutValue some look long => exact ⟨⟨[], rfl, .done _, look⟩, (if_neg some).symm⟩

end Reader

/-- What a view would be written as. -/
def TlvView.encode (v : TlvView) : Bytes :=
  writeU16Be v.type ++ writeU16Be (UInt16.ofNat v.length) ++ v.value.getD []

theorem flatMap_encode_view (fs : List TlvField) :
    (fs.map TlvField.view).flatMap TlvView.encode = tlvCoding.encodeAll fs := by
  rw [flatMap_map]
  rfl

/-- **What is written is read back, and what is read was written.** A byte string is drained to NOT_FOUND
    exactly when it is the concatenation of the fields read from it; and a put or a next that fails changes
    nothing. -/
theorem tlv_stream (out : TlvView) :
    (∀ (w : TlvWriter) (fields : List TlvField), w.Sound →
      w.used + ((fields.map TlvField.view).flatMap TlvView.encode).length ≤ w.capacity →
      ∃ w', w.putAll fields = (.ok, w') ∧
        ∀ k, (w.written w').length < tlvHeaderSize * k →
          ((TlvReader.over (w.written w')).traverse k out).1 = fields.map TlvField.view ∧
          ((TlvReader.over (w.written w')).traverse k out).2.result = .notFound) ∧
    (∀ (r : TlvReader) (k : Nat), r.Sound → r.rest.length < tlvHeaderSize * k →
      ((r.traverse k out).2.result = .notFound ↔ r.rest = (r.traverse k out).1.flatMap TlvView.encode) ∧
      (r.traverse k out).2.result ≠ .ok) ∧
    (∀ (w : TlvWriter) (type : UInt16) (value : Option Bytes) (n : Nat),
      (w.put type value n).1 ≠ .ok → (w.put type value n).2 = w) ∧
    (∀ r : TlvReader, (r.next out).result ≠ .ok → (r.next out).reader = r ∧ (r.next out).view = out) := by
  refine ⟨fun w fields hw hroom => ?_, fun r k hr hk => ?_, fun w type value n => put_unchanged,
    fun r => next_unchanged⟩
  · rw [flatMap_encode_view] at hroom
    obtain ⟨w', hput, hwrote⟩ := putAll_spec hw fields hroom
    refine ⟨w', hput, fun k hk => ?_⟩
    rw [hwrote.written hw] at hk ⊢
    obtain ⟨⟨fs, hviews, hparsed⟩, hresult⟩ :=
      traverse_spec (TlvReader.sound_over _) (r := .over (tlvCoding.encodeAll fields)) hk out
    -- the fields that were written are all that can be read
    have hall : tlvReading.Parsed (tlvCoding.encodeAll fields) fields [] none := by
      refine ⟨?_, rfl⟩
      have := tlvCoding.reads_encode fields []
      rwa [List.append_nil] at this
    obtain ⟨rfl, hrest, -⟩ := hall.unique hparsed
    exact ⟨hviews, by rw [hresult, hrest, if_pos rfl]⟩
  · obtain ⟨⟨fs, hviews, hparsed⟩, hresult⟩ := traverse_spec hr hk out
    have hwire := tlvCoding.encode_of_reads hparsed.reads
    rw [hviews, flatMap_encode_view, hresult]
    constructor
    · constructor
      · intro hdone
        split at hdone
        · rename_i hnil
          rw [hnil, List.append_nil] at hwire
          exact hwire
        · cases hdone
      · intro hs
        rw [if_pos]
        rw [← hs] at hwire
        exact append_right_eq_self.mp hwire.symm
    · split <;> decide

/-- One field of one byte, written to a region of eight bytes and read back. -/
theorem tlv_stream_byte :
    ∃ w', (⟨some (List.replicate 8 0), 8, 0⟩ : TlvWriter).putAll [⟨1, [65], by decide⟩] = (.ok, w') ∧
      ((TlvReader.over ((⟨some (List.replicate 8 0), 8, 0⟩ : TlvWriter).written w')).traverse 2
        default).2.result = .notFound := by
  obtain ⟨w', hput, hread⟩ := (tlv_stream default).1 ⟨some (List.replicate 8 0), 8, 0⟩
    [⟨1, [65], by decide⟩] ⟨by decide, rfl, by decide⟩ (by decide)
  refine ⟨w', hput, (hread 2 ?_).2⟩
  obtain rfl : w' = ⟨some [0, 1, 0, 1, 65, 0, 0, 0], 8, 5⟩ := (congrArg Prod.snd hput).symm
  decide

end Vireo.Protocol
