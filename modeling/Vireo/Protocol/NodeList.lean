/-
  File:      Vireo/Protocol/NodeList.lean
  Subject:   THE RESPONSE OF A DIRECTORY LISTING (`src/protocol/node_list.c`): its encoder and its
             decoder.

  Null handles and null outputs do not exist here. A local buffer has the bytes it happens to have.
-/
import Vireo.Protocol.Frame

namespace Vireo.Protocol

open Lib
open TlvWriter (chain init)

/-! ## 1. Arrays -/

/-- An array of `n` cells. -/
abbrev Cells (α : Type) (n : Nat) := { cells : List α // cells.length = n }

namespace Cells

variable {α : Type} {n : Nat}

/-- An array of one value. -/
def fill (n : Nat) (a : α) : Cells α n := ⟨List.replicate n a, List.length_replicate⟩

/-- The array after `xs` was copied to its front. -/
def copy (c : Cells α n) (xs : List α) : Cells α n :=
  ⟨overwrite c.val 0 (xs.take n), by
    rw [length_overwrite, c.property]
    rw [c.property, List.length_take]
    omega⟩

/-- The array after one cell was written. -/
def set (c : Cells α n) (i : Nat) (a : α) : Cells α n :=
  ⟨c.val.set i a, by rw [List.length_set, c.property]⟩

end Cells

/-! ## 2. Values -/

/-- `VIREO_NODE_LIST_PAGE_CAPACITY`. -/
def pageCapacity : Nat := 64

/-- `VIREO_NODE_LIST_NAME_CAPACITY`. -/
def nameCapacity : Nat := 255

/-- `VIREO_NODE_LIST_TOKEN_SIZE`. -/
def tokenSize : Nat := 96

/-- The size of an object hash. -/
def hashSize : Nat := 32

/-- `VIREO_NODE_LIST_ENTRY_BODY_MAX`. -/
def entryBodyMax : Nat := 361

/-- `VIREO_NODE_LIST_REQUEST_FRAME_MAX`. -/
def requestFrameMax : Nat := 150

/-- `VIREO_NODE_LIST_RESPONSE_BODY_MAX`. -/
def responseBodyMax : Nat := 23478

/-- `VIREO_NODE_LIST_RESPONSE_FRAME_MAX`. -/
def responseFrameMax : Nat := 23510

/-- `VIREO_NODE_LIST_DIRECTORY` and `VIREO_NODE_LIST_FILE`. -/
def typeDirectory : UInt16 := 1
def typeFile : UInt16 := 2

/-- `vireo_node_list_entry_t`. -/
structure NodeListEntry where
  nodeId : UInt64
  parentId : UInt64
  name : Cells UInt8 nameCapacity
  nameLength : Nat
  type : UInt16
  size : UInt64
  createdAtMs : UInt64
  updatedAtMs : UInt64
  hasObjectHash : Bool
  objectHash : Cells UInt8 hashSize

/-- An entry of zeros. -/
def NodeListEntry.zero : NodeListEntry :=
  ⟨0, 0, .fill _ 0, 0, 0, 0, 0, 0, false, .fill _ 0⟩

/-- `vireo_node_list_response_t`. -/
structure NodeListResponse where
  status : UInt16
  sequence : UInt32
  sessionHandle : UInt32
  directoryId : UInt64
  pageSize : UInt16
  count : Nat
  hasMore : Bool
  nextPageToken : Cells UInt8 tokenSize
  entries : Cells NodeListEntry pageCapacity

/-- `vireo_node_list_issue_t`. -/
inductive NodeListIssue where
  | none
  | header
  | envelope
  | crc
  | fields
  | value
deriving DecidableEq, Inhabited

/-- `VIREO_COMMAND_NODE_LIST`. -/
def commandNodeList : UInt16 := 0x0401

/-- The field types of a page and of an entry. -/
def tlvDirectoryId : UInt16 := 0x0410
def tlvPageSize : UInt16 := 0x0411
def tlvNodeEntry : UInt16 := 0x0413
def tlvNextPageToken : UInt16 := 0x0414
def tlvNodeId : UInt16 := 0x0401
def tlvParentId : UInt16 := 0x0402
def tlvNameBytes : UInt16 := 0x0403
def tlvNodeType : UInt16 := 0x0404
def tlvSize : UInt16 := 0x0405
def tlvCreatedAtMs : UInt16 := 0x0406
def tlvUpdatedAtMs : UInt16 := 0x0407
def tlvObjectHash : UInt16 := 0x0408

/-- `response_rules`. -/
def responseRules : List TlvRule :=
  [⟨0x0410, 8, 8, .u64, true, false⟩, ⟨0x0411, 2, 2, .u16, true, false⟩,
    ⟨0x0413, 0, 361, .bytes, false, true⟩, ⟨0x0414, 96, 96, .bytes, false, false⟩]

/-- `entry_rules`. -/
def entryRules : List TlvRule :=
  [⟨0x0401, 8, 8, .u64, true, false⟩, ⟨0x0402, 8, 8, .u64, true, false⟩,
    ⟨0x0403, 1, 255, .bytes, true, false⟩, ⟨0x0404, 2, 2, .u16, true, false⟩,
    ⟨0x0405, 8, 8, .u64, true, false⟩, ⟨0x0406, 8, 8, .u64, true, false⟩,
    ⟨0x0407, 8, 8, .u64, true, false⟩, ⟨0x0408, 32, 32, .bytes, false, false⟩]

/-! ## 3. Checks -/

/-- `zero_bytes`. -/
def zeroBytes (p : Bytes) : Bool := p.all (· = 0)

/-- `status_allowed`. -/
def statusAllowed (status : UInt16) : Bool :=
  status ∈ ([0, 1001, 1002, 1004, 1005, 1006, 1007, 1008, 1101, 1201, 1901, 1902, 1906, 1907, 1908] :
    List UInt16)

/-- `entry_zero`. -/
def entryZero (e : NodeListEntry) : Bool :=
  e.nodeId = 0 && e.parentId = 0 && e.nameLength = 0 && zeroBytes e.name.val && e.type = 0 &&
    e.size = 0 && e.createdAtMs = 0 && e.updatedAtMs = 0 && !e.hasObjectHash &&
    zeroBytes e.objectHash.val

/-- `entry_valid`. -/
def entryValid (e : NodeListEntry) : Bool :=
  if e.nodeId = 0 ∨ e.nameLength = 0 ∨ e.nameLength > nameCapacity ∨ e.updatedAtMs < e.createdAtMs then
    false
  else if (e.name.val.take e.nameLength).any fun b => b = 0 ∨ b = 0x2F then false
  else if (e.nameLength = 1 ∧ e.name.val.getD 0 0 = 0x2E) ∨
      (e.nameLength = 2 ∧ e.name.val.getD 0 0 = 0x2E ∧ e.name.val.getD 1 0 = 0x2E) then false
  else if e.type = typeDirectory then e.size = 0 && !e.hasObjectHash && zeroBytes e.objectHash.val
  else e.type = typeFile && e.hasObjectHash

/-- The entry loop of `response_valid`. -/
def entriesValid (directoryId : UInt64) : UInt64 → List NodeListEntry → Bool
  | _, [] => true
  | last, e :: es =>
    if !entryValid e ∨ e.parentId ≠ directoryId ∨ e.nodeId = directoryId ∨ e.nodeId ≤ last then false
    else entriesValid directoryId e.nodeId es

/-- `response_valid`. -/
def responseValid (v : NodeListResponse) : Bool :=
  if v.sequence = 0 ∨ !statusAllowed v.status then false
  else if v.status ≠ 0 then
    if v.sessionHandle ≠ 0 ∨ v.directoryId ≠ 0 ∨ v.pageSize ≠ 0 ∨ v.count ≠ 0 ∨ v.hasMore ∨
        !zeroBytes v.nextPageToken.val then false
    else v.entries.val.all entryZero
  else if v.sessionHandle = 0 ∨ v.directoryId = 0 ∨ v.pageSize < 1 ∨ v.pageSize > 64 ∨
      v.count > v.pageSize.toNat ∨
      (if v.hasMore then v.count ≠ v.pageSize.toNat else zeroBytes v.nextPageToken.val = false) then false
  else entriesValid v.directoryId 0 (v.entries.val.take v.count)

/-! ## 4. The frame -/

/-- `publish`: the bytes that are copied to the output. -/
def publish (h : Header) (frame : Bytes) (size : Nat) : Except Result Bytes := do
  let encoded ← headerEncode h 32
  let frame := overwrite frame 0 encoded
  let crc ← frameCrc32cCalculate (frame.take 32) (slice frame 32 (size - 32))
  let encoded ← headerEncode { h with crc32c := crc } 32
  .ok ((overwrite frame 0 encoded).take size)

/-- `envelope`: every refusal is PROTOCOL. -/
def envelope (wire : Bytes) (response : Bool) : Except NodeListIssue Header :=
  let size := wire.length
  if size < 32 then .error .header
  else if size > (if response then responseFrameMax else requestFrameMax) then .error .envelope
  else
    match headerDecode wire with
    | .error _ => .error .header
    | .ok h =>
      match if response then responseHeaderValidate h else requestHeaderValidate h with
      | .error _ => .error .header
      | .ok _ =>
        if h.command ≠ commandNodeList ∨ h.taskHandle ≠ 0 ∨
            (if response then
              (h.flags ≠ flagResponse ∧ h.flags ≠ flagResponse ||| flagMore) ∨
                statusAllowed h.status = false ∨
                (if h.status = 0 then h.sessionHandle = 0
                else h.sessionHandle ≠ 0 ∨ h.bodyLen ≠ 0 ∨ h.flags ≠ flagResponse)
            else h.flags ≠ 0) ∨ size ≠ 32 + h.bodyLen.toNat then .error .envelope
        else if (frameCrc32cVerify (wire.take 32) ((wire.drop 32).take h.bodyLen.toNat)).1 ≠ .ok then
          .error .crc
        else .ok h

/-- `schema`. -/
def schema (p : Bytes) (rules : List TlvRule) (count : Nat) : Bool :=
  (schemaValidate (some p) p.length (some rules) count .reject (some (List.replicate 8 0)) 8).result = .ok

/-! ## 5. The encoder -/

/-- `write_entry`: the bytes that were written to the buffer. -/
def writeEntry (e : NodeListEntry) (buf : Cells UInt8 entryBodyMax) : Except Result Bytes := do
  let w ← init (some buf.val) entryBodyMax
  let w ← chain (w.putU64 tlvNodeId e.nodeId)
  let w ← chain (w.putU64 tlvParentId e.parentId)
  let w ← chain (w.put tlvNameBytes (some e.name.val) e.nameLength)
  let w ← chain (w.putU16 tlvNodeType e.type)
  let w ← chain (w.putU64 tlvSize e.size)
  let w ← chain (w.putU64 tlvCreatedAtMs e.createdAtMs)
  let w ← chain (w.putU64 tlvUpdatedAtMs e.updatedAtMs)
  let w ← if e.hasObjectHash then chain (w.put tlvObjectHash (some e.objectHash.val) 32) else .ok w
  .ok ((w.data.getD []).take w.used)

/-- The entry loop of `vireo_node_list_response_encode`. -/
def writeEntries (inner : Cells UInt8 entryBodyMax) :
    TlvWriter → List NodeListEntry → Except Result TlvWriter
  | w, [] => .ok w
  | w, e :: es => do
    let entry ← writeEntry e inner
    let w ← chain (w.put tlvNodeEntry (some entry) entry.length)
    writeEntries inner w es

/-- The size of the body that `vireo_node_list_response_encode` computes before it writes. -/
def responseBodySize (v : NodeListResponse) : Nat :=
  if v.status = 0 then
    (v.entries.val.take v.count).foldl
      (fun body e => body + (4 + 70 + e.nameLength + if e.hasObjectHash then 36 else 0))
      (18 + if v.hasMore then 100 else 0)
  else 0

/-- The writer after the body was written to `frame + 32`. -/
def responseWrite (v : NodeListResponse) (frame : Cells UInt8 responseFrameMax)
    (inner : Cells UInt8 entryBodyMax) : Except Result TlvWriter := do
  let body := responseBodySize v
  let w ← init (some (slice frame.val 32 body)) body
  if v.status = 0 then
    let w ← chain (w.putU64 tlvDirectoryId v.directoryId)
    let w ← chain (w.putU16 tlvPageSize v.pageSize)
    let w ← writeEntries inner w (v.entries.val.take v.count)
    if v.hasMore then chain (w.put tlvNextPageToken (some v.nextPageToken.val) 96) else .ok w
  else .ok w

/-- `vireo_node_list_response_encode`: the bytes that are copied to the output; `frame` and `inner` are its
    local buffers. -/
def responseEncode (v : NodeListResponse) (capacity : Nat) (frame : Cells UInt8 responseFrameMax)
    (inner : Cells UInt8 entryBodyMax) : Except Result Bytes :=
  if responseValid v = false then .error .invalidArgument
  else
    let body := responseBodySize v
    if capacity < 32 + body then .error .range
    else do
      let w ← responseWrite v frame inner
      let header : Header :=
        { command := commandNodeList
          flags := flagResponse ||| (if v.hasMore then flagMore else 0)
          status := v.status
          bodyLen := UInt32.ofNat body
          sequence := v.sequence
          sessionHandle := v.sessionHandle
          taskHandle := 0
          crc32c := 0 }
      publish header (overwrite frame.val 32 (w.data.getD [])) (32 + body)

/-! ## 6. The decoder -/

/-- The switch of `read_entry`. -/
def readEntryField (e : NodeListEntry) (f : TlvView) : Except Result NodeListEntry :=
  if f.type = tlvNodeId then f.readU64.map fun v => { e with nodeId := v }
  else if f.type = tlvParentId then f.readU64.map fun v => { e with parentId := v }
  else if f.type = tlvNameBytes then
    .ok { e with nameLength := f.length, name := e.name.copy ((f.value.getD []).take f.length) }
  else if f.type = tlvNodeType then f.readU16.map fun v => { e with type := v }
  else if f.type = tlvSize then f.readU64.map fun v => { e with size := v }
  else if f.type = tlvCreatedAtMs then f.readU64.map fun v => { e with createdAtMs := v }
  else if f.type = tlvUpdatedAtMs then f.readU64.map fun v => { e with updatedAtMs := v }
  else if f.type = tlvObjectHash then
    .ok { e with hasObjectHash := true, objectHash := e.objectHash.copy ((f.value.getD []).take 32) }
  else .error .protocol

/-- `read_entry`. -/
def readEntry (p : Bytes) (e : NodeListEntry) : Except Result NodeListEntry := do
  let r ← TlvReader.init (some p) p.length
  TlvReader.foldFields readEntryField (p.length + 1) r e

/-- The switch of `vireo_node_list_response_decode`, on the page and on whether the token was
    there. -/
def readResponseField (s : NodeListResponse × Bool) (f : TlvView) :
    Except Result (NodeListResponse × Bool) :=
  let next := s.1
  if f.type = tlvDirectoryId then f.readU64.map fun v => ({ next with directoryId := v }, s.2)
  else if f.type = tlvPageSize then f.readU16.map fun v => ({ next with pageSize := v }, s.2)
  else if f.type = tlvNextPageToken then
    .ok ({ next with nextPageToken := next.nextPageToken.copy ((f.value.getD []).take 96) }, true)
  else if f.type = tlvNodeEntry then
    let value := (f.value.getD []).take f.length
    if schema value entryRules 8 = false then .error .protocol
    else if next.count < 64 then
      (readEntry value (next.entries.val.getD next.count .zero)).map fun e =>
        ({ next with count := next.count + 1, entries := next.entries.set next.count e }, s.2)
    else .ok ({ next with count := next.count + 1 }, s.2)
  else .error .protocol

/-- What `vireo_node_list_response_decode` returns and leaves in its outputs. -/
structure NodeListDecoded where
  result : Result
  out : NodeListResponse
  issue : NodeListIssue

/-- The page that the decoder has put together, or the issue; every refusal is PROTOCOL. -/
def responseRead (wire : Bytes) : Except NodeListIssue NodeListResponse := do
  let h ← envelope wire true
  let next : NodeListResponse :=
    ⟨h.status, h.sequence, h.sessionHandle, 0, 0, 0, false, .fill _ 0, .fill _ .zero⟩
  let body := (wire.drop 32).take h.bodyLen.toNat
  let next ←
    if h.status = 0 then
      if schema body responseRules 4 = false then .error .fields
      else
        let reader : TlvReader := ⟨some body, h.bodyLen.toNat, 0⟩
        match TlvReader.foldFields readResponseField (h.bodyLen.toNat + 1) reader (next, false) with
        | .error _ => .error .fields
        | .ok (next, tokenPresent) =>
          let hasMore := decide (h.flags &&& flagMore ≠ 0)
          if hasMore ≠ tokenPresent then .error .value else .ok { next with hasMore := hasMore }
    else .ok next
  if responseValid next = false then .error .value else .ok next

/-- `vireo_node_list_response_decode`. -/
def responseDecode (wire : Bytes) (out : NodeListResponse) : NodeListDecoded :=
  match responseRead wire with
  | .error issue => ⟨.protocol, out, issue⟩
  | .ok next => ⟨.ok, next, .none⟩

end Vireo.Protocol
