/-
  File:      Vireo/Protocol/Chunk.lean
  Subject:   THE BODY OF A CHUNK (`src/protocol/chunk.c`): a header of 56 bytes, and the data behind it.

  Null pointers do not exist here, but for the data: it may be null when there is none. A pointer is the
  list of the bytes from it on.
-/
import Vireo.Protocol.Frame
import Vireo.Protocol.NodeListFields

namespace Vireo.Protocol

open Lib List

/-! ## 1. Values -/

/-- `VIREO_CHUNK_HEADER_SIZE`. -/
def chunkHeaderSize : Nat := 56
/-- `VIREO_CHUNK_MAX_DATA_SIZE`. -/
def chunkMaxDataSize : Nat := maxBodySize - chunkHeaderSize

def chunkIndexOffset : Nat := 0
def chunkHeaderLengthOffset : Nat := 4
def chunkFileOffsetOffset : Nat := 8
def chunkDataLengthOffset : Nat := 16
def chunkCrc32cOffset : Nat := 20
def chunkBlake3Offset : Nat := 24
def chunkDataOffset : Nat := chunkHeaderSize

/-- `vireo_chunk_issue_t`. -/
inductive ChunkIssue where
  | none
  | truncatedHeader
  | invalidHeaderLength
  | bodyTooLarge
  | dataTooLarge
  | bodyLengthMismatch
  | rangeOverflow
  | crcMismatch
deriving DecidableEq

/-- `vireo_chunk_header_t`. -/
structure ChunkHeader where
  chunkIndex : UInt32
  offset : UInt64
  dataLen : UInt32
  crc32c : UInt32
  blake3 : Cells UInt8 32
deriving DecidableEq

/-- `vireo_chunk_view_t`. -/
structure ChunkView where
  header : ChunkHeader
  data : Option Bytes
deriving DecidableEq

/-! ## 2. The checksum -/

/-- `vireo_chunk_crc32c_update`: the loop of `codec.c`, with the same polynomial. -/
def chunkCrc32cUpdate (crc : UInt32) (data : Bytes) : UInt32 := crc32cUpdate crc data

/-- `vireo_chunk_data_crc32c_calculate`: the result, and the output. -/
def chunkDataCrc32cCalculate (data : Option Bytes) (dataSize : Nat) (outCrc32c : UInt32) : Result × UInt32 :=
  if data.isNone ∧ dataSize ≠ 0 then (.invalidArgument, outCrc32c)
  else if dataSize > chunkMaxDataSize then (.range, outCrc32c)
  else
    let crc := chunkCrc32cUpdate 0xFFFFFFFF ((data.getD []).take dataSize)
    (.ok, ~~~ crc)

/-- `vireo_chunk_data_crc32c_verify`: the result, and the issue. -/
def chunkDataCrc32cVerify (view : ChunkView) : Result × ChunkIssue :=
  let calculated := chunkDataCrc32cCalculate view.data view.header.dataLen.toNat 0
  if calculated.1 ≠ .ok then (calculated.1, .none)
  else if calculated.2 ≠ view.header.crc32c then (.protocol, .crcMismatch)
  else (.ok, .none)

/-! ## 3. The codec -/

/-- What `vireo_chunk_body_encode` returns and leaves in its outputs. -/
structure ChunkEncoded where
  result : Result
  body : Bytes
  outBodySize : Nat
deriving DecidableEq

/-- The writes of `vireo_chunk_body_encode`. -/
def chunkWrite (header : ChunkHeader) (data : Option Bytes) (dataSize : Nat) (body : Bytes) : Bytes :=
  let body := overwrite body chunkIndexOffset (writeU32Be header.chunkIndex)
  let body := overwrite body chunkHeaderLengthOffset (writeU32Be (UInt32.ofNat chunkHeaderSize))
  let body := overwrite body chunkFileOffsetOffset (writeU64Be header.offset)
  let body := overwrite body chunkDataLengthOffset (writeU32Be header.dataLen)
  let body := overwrite body chunkCrc32cOffset (writeU32Be header.crc32c)
  let body := overwrite body chunkBlake3Offset header.blake3.val
  if dataSize ≠ 0 then overwrite body chunkDataOffset ((data.getD []).take dataSize) else body

/-- `vireo_chunk_body_encode`; `body` is the buffer, of `bodyCapacity` bytes. -/
def chunkBodyEncode (header : ChunkHeader) (data : Option Bytes) (dataSize : Nat) (body : Bytes)
    (bodyCapacity outBodySize : Nat) : ChunkEncoded :=
  if data.isNone ∧ dataSize ≠ 0 then ⟨.invalidArgument, body, outBodySize⟩
  else if dataSize > chunkMaxDataSize ∨ header.dataLen.toNat > chunkMaxDataSize then ⟨.range, body, outBodySize⟩
  else if dataSize ≠ header.dataLen.toNat then ⟨.range, body, outBodySize⟩
  else
    match checkedSizeAdd chunkHeaderSize dataSize with
    | .error e => ⟨e, body, outBodySize⟩
    | .ok bodySize =>
      match checkedU64Add header.offset header.dataLen.toUInt64 with
      | .error e => ⟨e, body, outBodySize⟩
      | .ok _ =>
        if bodySize > bodyCapacity then ⟨.range, body, outBodySize⟩
        else ⟨.ok, chunkWrite header data dataSize body, bodySize⟩

/-- What `vireo_chunk_body_decode` returns and leaves in its outputs. -/
structure ChunkDecoded where
  result : Result
  outView : ChunkView
  outIssue : ChunkIssue
deriving DecidableEq

/-- The fields of a header, where they are. -/
def chunkRead (body : Bytes) : ChunkHeader where
  chunkIndex := readU32Be (body.drop chunkIndexOffset)
  offset := readU64Be (body.drop chunkFileOffsetOffset)
  dataLen := readU32Be (body.drop chunkDataLengthOffset)
  crc32c := readU32Be (body.drop chunkCrc32cOffset)
  blake3 := (Cells.fill 32 0).copy ((body.drop chunkBlake3Offset).take 32)

/-- `vireo_chunk_body_decode`: the size of the body is that of the list. -/
def chunkBodyDecode (body : Bytes) (outView : ChunkView) : ChunkDecoded :=
  if body.length > maxBodySize then ⟨.protocol, outView, .bodyTooLarge⟩
  else if body.length < chunkHeaderSize then ⟨.protocol, outView, .truncatedHeader⟩
  else if readU32Be (body.drop chunkHeaderLengthOffset) ≠ UInt32.ofNat chunkHeaderSize then
    ⟨.protocol, outView, .invalidHeaderLength⟩
  else
    let header := chunkRead body
    if header.dataLen.toNat > chunkMaxDataSize then ⟨.protocol, outView, .dataTooLarge⟩
    else if header.dataLen.toNat ≠ body.length - chunkHeaderSize then
      ⟨.protocol, outView, .bodyLengthMismatch⟩
    else
      match checkedU64Add header.offset header.dataLen.toUInt64 with
      | .error _ => ⟨.protocol, outView, .rangeOverflow⟩
      | .ok _ => ⟨.ok, ⟨header, some (body.drop chunkDataOffset)⟩, .none⟩

/-! ## 4. The chunks there are -/

/-- A header and data that are a chunk. -/
structure Chunkable (header : ChunkHeader) (data : Bytes) : Prop where
  size : data.length ≤ chunkMaxDataSize
  told : header.dataLen.toNat = data.length
  range : header.offset.toNat + data.length < 2 ^ 64

/-- The bytes in front of the data. -/
def ChunkHeader.encoded (header : ChunkHeader) : Bytes :=
  writeU32Be header.chunkIndex ++ writeU32Be (UInt32.ofNat chunkHeaderSize) ++ writeU64Be header.offset ++
    writeU32Be header.dataLen ++ writeU32Be header.crc32c ++ header.blake3.val

/-- The bytes of a chunk. -/
def chunkBytes (header : ChunkHeader) (data : Bytes) : Bytes := header.encoded ++ data

@[simp]
theorem ChunkHeader.length_encoded (header : ChunkHeader) : header.encoded.length = chunkHeaderSize := by
  have hblake3 : header.blake3.val.length = 32 := header.blake3.property
  simp [ChunkHeader.encoded, hblake3, chunkHeaderSize]

@[simp]
theorem length_chunkBytes (header : ChunkHeader) (data : Bytes) :
    (chunkBytes header data).length = chunkHeaderSize + data.length := by
  simp [chunkBytes]

theorem checkedU64Add_range (offset : UInt64) (dataLen : UInt32) :
    (∃ sum, checkedU64Add offset dataLen.toUInt64 = .ok sum) ↔ offset.toNat + dataLen.toNat < 2 ^ 64 := by
  rw [← UInt32.toNat_toUInt64]
  exact ⟨fun ⟨sum, hsum⟩ => checkedU64Add_ok hsum ▸ sum.toNat_lt, fun h => ⟨_, checkedU64Add_of_lt h⟩⟩

theorem chunkMaxDataSize_le : chunkHeaderSize + chunkMaxDataSize = maxBodySize := by decide

/-! ## 5. There -/

/-- **The writes put the bytes of the chunk in front of the buffer.** -/
theorem chunkWrite_eq (header : ChunkHeader) (data : Option Bytes) (body : Bytes) :
    chunkWrite header data (data.getD []).length body = overwrite body 0 (chunkBytes header (data.getD [])) := by
  have hnext : ∀ (s t : Bytes) n, s.length = n → overwrite (overwrite body 0 s) n t = overwrite body 0 (s ++ t) := by
    intro s t n hn
    have happend := @overwrite_append _ body s 0 t (Nat.zero_le _)
    rwa [Nat.zero_add, hn] at happend
  have hheader : chunkWrite header data (data.getD []).length body =
      if (data.getD []).length ≠ 0 then
        overwrite (overwrite body 0 header.encoded) chunkDataOffset ((data.getD []).take (data.getD []).length)
      else overwrite body 0 header.encoded := by
    unfold chunkWrite
    rw [show chunkIndexOffset = 0 from rfl]
    dsimp only
    rw [hnext _ _ chunkHeaderLengthOffset rfl, hnext _ _ chunkFileOffsetOffset rfl,
      hnext _ _ chunkDataLengthOffset rfl, hnext _ _ chunkCrc32cOffset rfl, hnext _ _ chunkBlake3Offset rfl]
    rfl
  rw [hheader, take_length]
  split
  · exact hnext _ _ _ header.length_encoded
  · rename_i hempty
    rw [length_eq_zero_iff.mp (not_not.mp hempty), chunkBytes, List.append_nil]

section Encode

variable {header : ChunkHeader} {data : Option Bytes} {body : Bytes} {n capacity outBodySize : Nat}

/-- **A chunk is encoded** into a buffer that has room for it. -/
theorem chunkBodyEncode_of (h : Chunkable header (data.getD []))
    (hroom : chunkHeaderSize + (data.getD []).length ≤ capacity) :
    chunkBodyEncode header data (data.getD []).length body capacity outBodySize =
      ⟨.ok, overwrite body 0 (chunkBytes header (data.getD [])), chunkHeaderSize + (data.getD []).length⟩ := by
  have hsize := h.size
  have htold := h.told
  have hmax := chunkMaxDataSize_le
  have hnull : ¬ (data.isNone = true ∧ (data.getD []).length ≠ 0) := by
    cases data <;> simp
  have hadd : checkedSizeAdd chunkHeaderSize (data.getD []).length =
      .ok (chunkHeaderSize + (data.getD []).length) :=
    checkedSizeAdd_of_le (Nat.le_trans (by omega : _ ≤ maxBodySize) (by decide))
  obtain ⟨sum, hsum⟩ := (checkedU64Add_range header.offset header.dataLen).mpr (by
    rw [htold]
    exact h.range)
  unfold chunkBodyEncode
  rw [if_neg hnull, if_neg (by omega), if_neg (by omega), hadd]
  rw [hsum]
  dsimp only
  rw [if_neg (by omega), chunkWrite_eq]

/-- **What is encoded is a chunk**, and there was room for it. -/
theorem chunkable_of_encode (hn : n = (data.getD []).length)
    (h : (chunkBodyEncode header data n body capacity outBodySize).result = .ok) :
    Chunkable header (data.getD []) ∧ chunkHeaderSize + n ≤ capacity := by
  unfold chunkBodyEncode at h
  split at h
  · cases h
  split at h
  · cases h
  rename_i hmax
  split at h
  · cases h
  rename_i hequal
  split at h
  · rename_i e hadd
    have hover : e = .overflow := checkedSizeAdd_ne_ok hadd
    rw [hover] at h
    cases h
  · rename_i size hadd
    obtain rfl : size = chunkHeaderSize + n := checkedSizeAdd_ok hadd
    split at h
    · rename_i e hsum
      have hok : e = .ok := h
      exact absurd ((checkedU64Add_error hsum).1.symm.trans hok) Result.overflow_ne_ok
    · rename_i sum hsum
      split at h
      · cases h
      rename_i hroom
      have hrange := (checkedU64Add_range header.offset header.dataLen).mp ⟨sum, hsum⟩
      exact ⟨⟨by omega, by omega, by omega⟩, by omega⟩

theorem chunkBodyEncode_unchanged (h : (chunkBodyEncode header data n body capacity outBodySize).result ≠ .ok) :
    (chunkBodyEncode header data n body capacity outBodySize).body = body ∧
      (chunkBodyEncode header data n body capacity outBodySize).outBodySize = outBodySize := by
  have hcases : (chunkBodyEncode header data n body capacity outBodySize).result = .ok ∨
      ((chunkBodyEncode header data n body capacity outBodySize).body = body ∧
        (chunkBodyEncode header data n body capacity outBodySize).outBodySize = outBodySize) := by
    unfold chunkBodyEncode
    split
    · exact .inr ⟨rfl, rfl⟩
    split
    · exact .inr ⟨rfl, rfl⟩
    split
    · exact .inr ⟨rfl, rfl⟩
    split
    · exact .inr ⟨rfl, rfl⟩
    split
    · exact .inr ⟨rfl, rfl⟩
    split
    · exact .inr ⟨rfl, rfl⟩
    · exact .inl rfl
  exact hcases.resolve_left h

end Encode

/-! ## 6. And back -/

theorem chunkRead_bytes (header : ChunkHeader) (data : Bytes) :
    readU32Be ((chunkBytes header data).drop chunkHeaderLengthOffset) = UInt32.ofNat chunkHeaderSize ∧
      chunkRead (chunkBytes header data) = header ∧ (chunkBytes header data).drop chunkDataOffset = data := by
  have hblake3 : ((chunkBytes header data).drop chunkBlake3Offset).take 32 = header.blake3.val := by
    show ((header.blake3.val ++ data) : Bytes).take 32 = header.blake3.val
    exact take_left' header.blake3.property
  refine ⟨readU32Be_write _ _, ?_, drop_left' header.length_encoded⟩
  unfold chunkRead
  rw [hblake3, Cells.copy_full]
  have hindex : readU32Be ((chunkBytes header data).drop chunkIndexOffset) = header.chunkIndex :=
    readU32Be_write header.chunkIndex _
  have hoffset : readU64Be ((chunkBytes header data).drop chunkFileOffsetOffset) = header.offset :=
    readU64Be_write header.offset _
  have hlength : readU32Be ((chunkBytes header data).drop chunkDataLengthOffset) = header.dataLen :=
    readU32Be_write header.dataLen _
  have hcrc : readU32Be ((chunkBytes header data).drop chunkCrc32cOffset) = header.crc32c :=
    readU32Be_write header.crc32c _
  rw [hindex, hoffset, hlength, hcrc]

variable {body : Bytes}

/-- Bytes with the length of the header in its place are those of the fields that are read. -/
theorem encoded_chunkRead (hlong : chunkHeaderSize ≤ body.length)
    (hlength : readU32Be (body.drop chunkHeaderLengthOffset) = UInt32.ofNat chunkHeaderSize) :
    (chunkRead body).encoded = body.take chunkHeaderSize := by
  have hlen : 56 ≤ body.length := hlong
  have hfour : ∀ n, n + 4 ≤ 56 → body.take (n + 4) = body.take n ++ writeU32Be (readU32Be (body.drop n)) := by
    intro n hn
    rw [writeU32Be_read (by rw [length_drop]; omega), take_add]
  have height : body.take (8 + 8) = body.take 8 ++ writeU64Be (readU64Be (body.drop 8)) := by
    rw [writeU64Be_read (by rw [length_drop]; omega), take_add]
  have hblake3 : (chunkRead body).blake3.val = (body.drop 24).take 32 := by
    have hcopied : ((body.drop 24).take 32).length = 32 := by
      rw [length_take, length_drop]
      omega
    exact congrArg Subtype.val (Cells.copy_full (Cells.fill 32 0) ⟨(body.drop 24).take 32, hcopied⟩)
  have hlength : readU32Be (body.drop 4) = UInt32.ofNat chunkHeaderSize := hlength
  symm
  calc body.take chunkHeaderSize = body.take 24 ++ (body.drop 24).take 32 := take_add (i := 24) (j := 32)
    _ = (chunkRead body).encoded := by
      rw [hfour 20 (by omega), hfour 16 (by omega), height, hfour 4 (by omega), hfour 0 (by omega),
        hlength, ← hblake3]
      rfl

variable {header : ChunkHeader}

theorem chunkBodyDecode_bytes {data : Bytes} (h : Chunkable header data) (view : ChunkView) :
    chunkBodyDecode (chunkBytes header data) view = ⟨.ok, ⟨header, some data⟩, .none⟩ := by
  obtain ⟨hlength, hread, hdata⟩ := chunkRead_bytes header data
  have hsize := h.size
  have htold := h.told
  have hmax := chunkMaxDataSize_le
  obtain ⟨sum, hsum⟩ := (checkedU64Add_range header.offset header.dataLen).mpr (by
    rw [htold]
    exact h.range)
  unfold chunkBodyDecode
  rw [length_chunkBytes, if_neg (by omega), if_neg (by omega), if_neg (not_not.mpr hlength), hread, hdata]
  rw [if_neg (by omega), if_neg (by omega), hsum]

variable {view : ChunkView}

/-- **What is decoded is a chunk**, and the bytes are those of it. -/
theorem chunkable_of_decode (h : (chunkBodyDecode body view).result = .ok) :
    Chunkable (chunkRead body) (body.drop chunkDataOffset) ∧
      body = chunkBytes (chunkRead body) (body.drop chunkDataOffset) := by
  unfold chunkBodyDecode at h
  split at h
  · cases h
  rename_i hlarge
  split at h
  · cases h
  rename_i hshort
  split at h
  · cases h
  rename_i hlength
  dsimp only at h
  split at h
  · cases h
  rename_i hmax
  split at h
  · cases h
  rename_i htold
  split at h
  · cases h
  rename_i sum hsum
  have hrange := (checkedU64Add_range _ _).mp ⟨sum, hsum⟩
  have hdrop : (body.drop chunkDataOffset).length = body.length - chunkHeaderSize := length_drop
  refine ⟨⟨by omega, by omega, by omega⟩, ?_⟩
  rw [chunkBytes, encoded_chunkRead (Nat.not_lt.mp hshort) (not_not.mp hlength), chunkDataOffset,
    take_append_drop]

theorem chunkBodyDecode_unchanged
    (h : (chunkBodyDecode body view).result ≠ .ok) : (chunkBodyDecode body view).outView = view := by
  have hcases : (chunkBodyDecode body view).result = .ok ∨ (chunkBodyDecode body view).outView = view := by
    unfold chunkBodyDecode
    split
    · exact .inr rfl
    split
    · exact .inr rfl
    split
    · exact .inr rfl
    dsimp only
    split
    · exact .inr rfl
    split
    · exact .inr rfl
    split
    · exact .inr rfl
    · exact .inl rfl
  exact hcases.resolve_left h

/-! ## 7. The checksum of the data -/

/-- The CRC-32C of a string: the register starts with ones, and is inverted at the end. -/
def crc32cOf (data : Bytes) : BitVec 32 := ~~~ crcFeed crc32cPoly (BitVec.allOnes 32) data

theorem foldl_chunkCrc32cUpdate (pieces : List Bytes) (crc : UInt32) :
    pieces.foldl chunkCrc32cUpdate crc = chunkCrc32cUpdate crc pieces.flatten := by
  induction pieces generalizing crc with
  | nil => rfl
  | cons piece pieces ih =>
    rw [foldl_cons, ih, flatten_cons]
    exact crc32cUpdate_append crc piece pieces.flatten

section Checksum

variable {data : Option Bytes} {n : Nat} {out : UInt32}

theorem chunkDataCrc32cCalculate_of (h : (data.getD []).length ≤ chunkMaxDataSize) (out : UInt32) :
    chunkDataCrc32cCalculate data (data.getD []).length out =
      (.ok, ~~~ (chunkCrc32cUpdate 0xFFFFFFFF (data.getD []))) := by
  have hnull : ¬ (data.isNone = true ∧ (data.getD []).length ≠ 0) := by
    cases data <;> simp
  unfold chunkDataCrc32cCalculate
  rw [if_neg hnull, if_neg (by omega), take_length]

theorem chunkDataCrc32cCalculate_unchanged (h : (chunkDataCrc32cCalculate data n out).1 ≠ .ok) :
    (chunkDataCrc32cCalculate data n out).2 = out := by
  have hcases : (chunkDataCrc32cCalculate data n out).1 = .ok ∨ (chunkDataCrc32cCalculate data n out).2 = out := by
    unfold chunkDataCrc32cCalculate
    split
    · exact .inr rfl
    split
    · exact .inr rfl
    · exact .inl rfl
  exact hcases.resolve_left h

/-- **A view verifies exactly when it carries the checksum of its data.** -/
theorem chunkDataCrc32cVerify_iff {view : ChunkView} (htold : view.header.dataLen.toNat = (view.data.getD []).length)
    (hsize : (view.data.getD []).length ≤ chunkMaxDataSize) :
    (chunkDataCrc32cVerify view).1 = .ok ↔ view.header.crc32c.toBitVec = crc32cOf (view.data.getD []) := by
  have hcalc := chunkDataCrc32cCalculate_of hsize 0
  have hbits : (~~~ (chunkCrc32cUpdate 0xFFFFFFFF (view.data.getD []))).toBitVec = crc32cOf (view.data.getD []) := by
    have hfeed := crc32cUpdate_toBitVec (view.data.getD []) 0xFFFFFFFF
    have hones : (0xFFFFFFFF : UInt32).toBitVec = BitVec.allOnes 32 := by decide
    rw [hones] at hfeed
    rw [UInt32.toBitVec_not, crc32cOf, ← hfeed]
    rfl
  unfold chunkDataCrc32cVerify
  rw [htold, hcalc]
  rw [if_neg (not_not.mpr rfl), ← hbits, UInt32.toBitVec_inj]
  constructor
  · intro h
    split at h
    · cases h
    · rename_i hsame
      exact (not_not.mp hsame).symm
  · intro hsame
    rw [if_neg (not_not.mpr hsame.symm)]

end Checksum

/-! ## 8. The codec -/

/-- The bytes are what an encoder wrote to the front of its buffer. -/
def ChunkImage (header : ChunkHeader) (data : Option Bytes) (wire : Bytes) : Prop :=
  ∃ body outBodySize,
    let e := chunkBodyEncode header data (data.getD []).length body body.length outBodySize
    e.result = .ok ∧ wire = e.body.take e.outBodySize

theorem chunkImage_iff {data : Option Bytes} {wire : Bytes} :
    ChunkImage header data wire ↔ Chunkable header (data.getD []) ∧ wire = chunkBytes header (data.getD []) := by
  have htake : ∀ body, (overwrite body 0 (chunkBytes header (data.getD []))).take
      (chunkHeaderSize + (data.getD []).length) = chunkBytes header (data.getD []) := by
    intro body
    rw [overwrite, List.take_zero, nil_append]
    exact take_left' (length_chunkBytes _ _)
  constructor
  · intro himage
    obtain ⟨body, outBodySize, hok, hwire⟩ := himage
    obtain ⟨hchunk, hroom⟩ := chunkable_of_encode rfl hok
    rw [chunkBodyEncode_of hchunk hroom] at hwire
    exact ⟨hchunk, hwire.trans (htake body)⟩
  · intro hbytes
    obtain ⟨hchunk, hwire⟩ := hbytes
    refine ⟨chunkBytes header (data.getD []), 0, ?_⟩
    rw [chunkBodyEncode_of hchunk (length_chunkBytes _ _).ge]
    exact ⟨rfl, hwire.trans (htake _).symm⟩

theorem chunkBodyDecode_ok {wire : Bytes} {v : ChunkView} {issue : ChunkIssue}
    (h : chunkBodyDecode wire view = ⟨.ok, v, issue⟩) :
    ChunkImage v.header v.data wire ∧ Chunkable v.header (v.data.getD []) := by
  obtain ⟨hchunk, hwire⟩ := chunkable_of_decode (congrArg ChunkDecoded.result h)
  have hdecode := chunkBodyDecode_bytes hchunk view
  rw [← hwire, h] at hdecode
  cases hdecode
  exact ⟨chunkImage_iff.mpr ⟨hchunk, hwire⟩, hchunk⟩

/-- **The codec of a chunk's body.** A byte string is decoded exactly when an encoder makes it of some header
    and data, and the two are inverse there; a view that was decoded verifies exactly when it carries the
    CRC-32C of its data. -/
theorem chunk_body_codec :
    (∀ wire view, (chunkBodyDecode wire view).result = .ok ↔ ∃ header data, ChunkImage header data wire) ∧
    (∀ header data, (∃ wire, ChunkImage header data wire) ↔ Chunkable header (data.getD [])) ∧
    (∀ header data wire view, ChunkImage header data wire →
      chunkBodyDecode wire view = ⟨.ok, ⟨header, some (data.getD [])⟩, .none⟩) ∧
    (∀ wire view v issue, chunkBodyDecode wire view = ⟨.ok, v, issue⟩ →
      ∀ body outBodySize, wire.length ≤ body.length →
        chunkBodyEncode v.header v.data (v.data.getD []).length body body.length outBodySize =
          ⟨.ok, overwrite body 0 wire, wire.length⟩) ∧
    ((∀ header data n body capacity outBodySize,
        (chunkBodyEncode header data n body capacity outBodySize).result ≠ .ok →
        (chunkBodyEncode header data n body capacity outBodySize).body = body ∧
          (chunkBodyEncode header data n body capacity outBodySize).outBodySize = outBodySize) ∧
      (∀ wire view, (chunkBodyDecode wire view).result ≠ .ok →
        (chunkBodyDecode wire view).outView = view ∧ (chunkBodyDecode wire view).outIssue ≠ .none) ∧
      ∀ data n out, (chunkDataCrc32cCalculate data n out).1 ≠ .ok →
        (chunkDataCrc32cCalculate data n out).2 = out) ∧
    (∀ wire view v issue, chunkBodyDecode wire view = ⟨.ok, v, issue⟩ →
      ((chunkDataCrc32cVerify v).1 = .ok ↔ v.header.crc32c.toBitVec = crc32cOf (v.data.getD []))) ∧
    ∀ (data : Bytes) (pieces : List Bytes) (out : UInt32), data.length ≤ chunkMaxDataSize → pieces.flatten = data →
      chunkDataCrc32cCalculate (some data) data.length out =
        (.ok, ~~~ (pieces.foldl chunkCrc32cUpdate 0xFFFFFFFF)) := by
  refine ⟨fun wire view => ⟨fun hok => ?_, fun ⟨header, data, himage⟩ => ?_⟩, fun header data => ⟨?_, ?_⟩,
    fun header data wire view himage => ?_, fun wire view v issue hok body outBodySize hroom => ?_,
    ⟨fun header data n body capacity outBodySize => chunkBodyEncode_unchanged,
      fun wire view hbad => ⟨chunkBodyDecode_unchanged hbad, ?_⟩,
      fun data n out => chunkDataCrc32cCalculate_unchanged⟩,
    fun wire view v issue hok => ?_, fun data pieces out hsize hpieces => ?_⟩
  · obtain ⟨hchunk, hwire⟩ := chunkable_of_decode hok
    exact ⟨_, some (wire.drop chunkDataOffset), chunkImage_iff.mpr ⟨hchunk, hwire⟩⟩
  · obtain ⟨hchunk, hwire⟩ := chunkImage_iff.mp himage
    rw [hwire, chunkBodyDecode_bytes hchunk]
  · intro ⟨wire, himage⟩
    exact (chunkImage_iff.mp himage).1
  · intro hchunk
    exact ⟨_, chunkImage_iff.mpr ⟨hchunk, rfl⟩⟩
  · obtain ⟨hchunk, hwire⟩ := chunkImage_iff.mp himage
    rw [hwire, chunkBodyDecode_bytes hchunk]
  · obtain ⟨himage, hchunk⟩ := chunkBodyDecode_ok hok
    have hwire := (chunkImage_iff.mp himage).2
    have hlength : wire.length = chunkHeaderSize + (v.data.getD []).length := by
      rw [hwire, length_chunkBytes]
    rw [chunkBodyEncode_of hchunk (by omega), ← hwire, ← hlength]
  · unfold chunkBodyDecode at hbad ⊢
    grind
  · have hchunk := (chunkBodyDecode_ok hok).2
    exact chunkDataCrc32cVerify_iff hchunk.told hchunk.size
  · subst hpieces
    rw [foldl_chunkCrc32cUpdate]
    exact @chunkDataCrc32cCalculate_of (some pieces.flatten) hsize out

/-- The empty chunk at the end of the range is encoded and decoded; one byte more is not a chunk there. -/
theorem chunk_body_codec_end :
    (∃ wire, ChunkImage ⟨0, 0xFFFFFFFFFFFFFFFF, 0, 0, .fill 32 0⟩ none wire ∧
      ∀ view, (chunkBodyDecode wire view).result = .ok) ∧
      ¬ ∃ wire, ChunkImage ⟨0, 0xFFFFFFFFFFFFFFFF, 1, 0, .fill 32 0⟩ (some [7]) wire := by
  have hexact := chunk_body_codec.2.1
  refine ⟨?_, fun h => ?_⟩
  · obtain ⟨wire, himage⟩ := (hexact ⟨0, 0xFFFFFFFFFFFFFFFF, 0, 0, .fill 32 0⟩ none).mpr ⟨by decide, by decide, by decide⟩
    exact ⟨wire, himage, fun view => (chunk_body_codec.1 wire view).mpr ⟨_, _, himage⟩⟩
  · have hrange := ((hexact _ _).mp h).range
    exact absurd hrange (by decide)

/-- **A burst in the data is seen.** A chunk that verifies, with other bytes in place of at most four next to each
    other in its data, is still decoded, with the same header, and does not verify. -/
theorem chunk_burst {front pre xs ys post : Bytes} (hfront : front.length = chunkDataOffset)
    (hlen : xs.length = ys.length) (hfour : xs.length ≤ 4) (hne : xs ≠ ys) {view v : ChunkView} {issue : ChunkIssue}
    (h : chunkBodyDecode (front ++ (pre ++ xs ++ post)) view = ⟨.ok, v, issue⟩) (hok : (chunkDataCrc32cVerify v).1 = .ok) :
    let v' : ChunkView := ⟨v.header, some (pre ++ ys ++ post)⟩
    chunkBodyDecode (front ++ (pre ++ ys ++ post)) view = ⟨.ok, v', .none⟩ ∧
      chunkDataCrc32cVerify v' = (.protocol, .crcMismatch) := by
  obtain ⟨himage, hchunk⟩ := chunkBodyDecode_ok h
  obtain ⟨hheader, hdata⟩ := append_inj (chunkImage_iff.mp himage).2 (hfront.trans (ChunkHeader.length_encoded _).symm)
  have hlength : (pre ++ ys ++ post).length = (v.data.getD []).length := by
    simp only [← hdata, length_append, hlen]
  have hchunk' : Chunkable v.header (pre ++ ys ++ post) :=
    ⟨hlength ▸ hchunk.size, hlength ▸ hchunk.told, hlength ▸ hchunk.range⟩
  refine ⟨hheader ▸ chunkBodyDecode_bytes hchunk' view, ?_⟩
  have hcalc : chunkDataCrc32cCalculate (some (pre ++ ys ++ post)) (pre ++ ys ++ post).length 0 = _ :=
    @chunkDataCrc32cCalculate_of (some _) hchunk'.size 0
  unfold chunkDataCrc32cVerify at hok ⊢
  dsimp only at hok ⊢
  rw [hchunk.told, chunkDataCrc32cCalculate_of hchunk.size, if_neg (not_not.mpr rfl)] at hok
  rw [hchunk'.told, hcalc, if_neg (not_not.mpr rfl)]
  split at hok
  · cases hok
  rename_i hsame
  refine if_pos fun hsame' => crc32cUpdate_burst 0xFFFFFFFF pre post hlen hfour hne ?_
  rw [hdata]
  exact UInt32.not_inj.mp ((not_not.mp hsame).trans hsame'.symm)

theorem chunk_burst_sample :
    (chunkDataCrc32cVerify ⟨⟨0, 0, 1, 0x86B737BA, .fill 32 0⟩, some [8]⟩).2 = .crcMismatch :=
  let header : ChunkHeader := ⟨0, 0, 1, 0x86B737BA, .fill 32 0⟩
  congrArg Prod.snd (@chunk_burst header.encoded [] [7] [8] [] (by decide) rfl (by decide) (by decide)
    ⟨header, none⟩ ⟨header, some [7]⟩ .none (by decide +kernel) (by decide +kernel)).2

end Vireo.Protocol
