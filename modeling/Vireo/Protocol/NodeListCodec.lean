/-
  File:      Vireo/Protocol/NodeListCodec.lean
  Subject:   THE TWO DIRECTIONS OF A DIRECTORY LISTING: what is encoded is decoded, what is decoded is
             a valid page.
-/
import Vireo.Protocol.NodeListFields

namespace Vireo.Protocol

open Lib List
open TlvField (ofU16 ofU64 view)

/-! ## 1. The decoder reads the fields -/

/-- An entry as it comes back: the tail of its name is zero. -/
def NodeListEntry.trimmed (e : NodeListEntry) : NodeListEntry :=
  { e with name := (Cells.fill _ 0).copy (e.name.val.take e.nameLength) }

/-- A page as it comes back: the slots it does not use are zero, and the tails of the names. -/
def NodeListResponse.trimmed (v : NodeListResponse) : NodeListResponse :=
  { v with entries := (Cells.fill _ .zero).copy ((v.entries.val.take v.count).map .trimmed) }

variable {e : NodeListEntry}

theorem hash_of_entryValid (h : entryValid e = true)
    (hhash : e.hasObjectHash = false) : e.objectHash = .fill _ 0 := by
  unfold entryValid at h
  split at h
  · cases h
  split at h
  · cases h
  split at h
  · cases h
  split at h
  · simp only [Bool.and_eq_true] at h
    exact zeroBytes_iff.mp h.2
  · simp [hhash] at h

section Steps

variable (e : NodeListEntry) (x : UInt64) (y : UInt16)

theorem read_nodeId : readEntryField e (ofU64 tlvNodeId x).view = .ok { e with nodeId := x } := by
  unfold readEntryField
  rw [type_u64, if_pos rfl, readU64_view]
  rfl

theorem read_parentId : readEntryField e (ofU64 tlvParentId x).view = .ok { e with parentId := x } := by
  unfold readEntryField
  rw [type_u64, if_neg (by decide), if_pos rfl, readU64_view]
  rfl

theorem read_name {value : Bytes} (h : value.length ≤ tlvMaxValueSize) :
    readEntryField e (view ⟨tlvNameBytes, value, h⟩) =
      .ok { e with nameLength := value.length, name := e.name.copy value } := by
  unfold readEntryField view
  dsimp only
  rw [if_neg (by decide), if_neg (by decide), if_pos rfl, Option.getD_some, take_length]

theorem read_type : readEntryField e (ofU16 tlvNodeType y).view = .ok { e with type := y } := by
  unfold readEntryField
  rw [type_u16, if_neg (by decide), if_neg (by decide), if_neg (by decide), if_pos rfl, readU16_view]
  rfl

theorem read_size : readEntryField e (ofU64 tlvSize x).view = .ok { e with size := x } := by
  unfold readEntryField
  rw [type_u64, if_neg (by decide), if_neg (by decide), if_neg (by decide), if_neg (by decide), if_pos rfl,
    readU64_view]
  rfl

theorem read_createdAtMs :
    readEntryField e (ofU64 tlvCreatedAtMs x).view = .ok { e with createdAtMs := x } := by
  unfold readEntryField
  rw [type_u64, if_neg (by decide), if_neg (by decide), if_neg (by decide), if_neg (by decide),
    if_neg (by decide), if_pos rfl, readU64_view]
  rfl

theorem read_updatedAtMs :
    readEntryField e (ofU64 tlvUpdatedAtMs x).view = .ok { e with updatedAtMs := x } := by
  unfold readEntryField
  rw [type_u64, if_neg (by decide), if_neg (by decide), if_neg (by decide), if_neg (by decide),
    if_neg (by decide), if_neg (by decide), if_pos rfl, readU64_view]
  rfl

theorem read_objectHash (hash : Cells UInt8 hashSize) (h : hash.val.length ≤ tlvMaxValueSize) :
    readEntryField e (view ⟨tlvObjectHash, hash.val, h⟩) =
      .ok { e with hasObjectHash := true, objectHash := hash } := by
  have hall : hash.val.take 32 = hash.val := take_of_length_le hash.property.le
  unfold readEntryField view
  dsimp only
  rw [if_neg (by decide), if_neg (by decide), if_neg (by decide), if_neg (by decide),
    if_neg (by decide), if_neg (by decide), if_neg (by decide), if_pos rfl, Option.getD_some, hall,
    Cells.copy_full]

end Steps

theorem readEntry_fields (h : entryValid e = true) :
    readEntry (tlvCoding.encodeAll (entryFields e)) .zero = .ok e.trimmed := by
  have hname : (e.name.val.take e.nameLength).length = e.nameLength := by
    have := (length_le_of_entryValid h).2
    rw [length_take, e.name.property]
    omega
  have hnohash := hash_of_entryValid h
  generalize hp : tlvCoding.encodeAll (entryFields e) = p
  have hfold : TlvReader.foldFields readEntryField (p.length + 1) (.over p) .zero =
      (entryFields e).foldlM (fun e f => readEntryField e f.view) .zero :=
    foldFields_eq readEntryField (TlvReader.sound_over p) hp.symm (Nat.lt_succ_self _) _
  unfold readEntry
  rw [TlvReader.init_over, ok_bind, hfold]
  unfold entryFields NodeListEntry.trimmed
  cases hhas : e.hasObjectHash with
  | false =>
    simp only [foldlM_append, foldlM_cons, foldlM_nil, read_nodeId, read_parentId,
      read_name, read_type, read_size, read_createdAtMs, read_updatedAtMs, ok_bind, hname,
      Bool.false_eq_true, if_false, bind_pure, hnohash hhas]
    rfl
  | true =>
    simp only [foldlM_append, foldlM_cons, foldlM_nil, read_nodeId, read_parentId,
      read_name, read_type, read_size, read_createdAtMs, read_updatedAtMs, read_objectHash, ok_bind,
      hname, if_true, bind_pure]
    rfl

section PageSteps

variable (s : NodeListResponse × Bool)

theorem read_directoryId (x : UInt64) :
    readResponseField s (ofU64 tlvDirectoryId x).view = .ok ({ s.1 with directoryId := x }, s.2) := by
  unfold readResponseField
  rw [type_u64, if_pos rfl, readU64_view]
  rfl

theorem read_pageSize (y : UInt16) :
    readResponseField s (ofU16 tlvPageSize y).view = .ok ({ s.1 with pageSize := y }, s.2) := by
  unfold readResponseField
  rw [type_u16, if_neg (by decide), if_pos rfl, readU16_view]
  rfl

theorem read_token (token : Cells UInt8 tokenSize) (h : token.val.length ≤ tlvMaxValueSize) :
    readResponseField s (view ⟨tlvNextPageToken, token.val, h⟩) =
      .ok ({ s.1 with nextPageToken := token }, true) := by
  have hall : token.val.take 96 = token.val := take_of_length_le token.property.le
  unfold readResponseField view
  dsimp only
  rw [if_neg (by decide), if_neg (by decide), if_pos rfl, Option.getD_some, hall, Cells.copy_full]

theorem read_entry {e : NodeListEntry} (h : entryValid e = true) (hcount : s.1.count < 64)
    (hslot : s.1.entries.val.getD s.1.count .zero = .zero) :
    readResponseField s (entryField e).view =
      .ok ({ s.1 with count := s.1.count + 1, entries := s.1.entries.set s.1.count e.trimmed }, s.2) := by
  obtain ⟨hpos, hle⟩ := length_le_of_entryValid h
  unfold readResponseField view entryField
  dsimp only
  rw [if_neg (by decide), if_neg (by decide), if_neg (by decide), if_pos rfl, Option.getD_some,
    take_length, schema_entry hpos hle, if_neg (by decide), if_pos hcount, hslot, readEntry_fields h]
  rfl

end PageSteps

theorem overwrite_set {α : Type} {l : List α} {c : Nat} (h : c < l.length) (x : α) (xs : List α) :
    overwrite (l.set c x) (c + 1) xs = overwrite l c (x :: xs) := by
  have hset : l.set c x = overwrite l c [x] := by
    rw [set_eq_take_append_cons_drop, if_pos h, overwrite, append_assoc]
    rfl
  rw [hset]
  exact overwrite_append xs h.le

/-- **The entries of a page are put into its slots one after the other.** -/
theorem entries_fold {es : List NodeListEntry} (h : ∀ e ∈ es, entryValid e = true)
    {s : NodeListResponse × Bool} (hroom : s.1.count + es.length ≤ 64)
    (hslots : ∀ i, s.1.count ≤ i → s.1.entries.val.getD i .zero = .zero) :
    ∃ slots : Cells NodeListEntry pageCapacity,
      (es.map entryField).foldlM (fun s f => readResponseField s f.view) s =
        .ok ({ s.1 with count := s.1.count + es.length, entries := slots }, s.2) ∧
      slots.val = overwrite s.1.entries.val s.1.count (es.map .trimmed) := by
  induction es generalizing s with
  | nil => exact ⟨s.1.entries, rfl, overwrite_nil.symm⟩
  | cons e es ih =>
    rw [forall_mem_cons] at h
    rw [length_cons] at hroom
    have hlen : s.1.entries.val.length = 64 := s.1.entries.property
    have hread := read_entry s h.1 (by omega) (hslots _ (Nat.le_refl _))
    obtain ⟨slots, hfold, hval⟩ := ih h.2
      (s := ({ s.1 with count := s.1.count + 1, entries := s.1.entries.set s.1.count e.trimmed }, s.2))
      (by dsimp only; omega) (by
        intro i hi
        dsimp only at hi
        show (s.1.entries.val.set s.1.count e.trimmed).getD i .zero = .zero
        rw [getD_eq_getElem?_getD, List.getElem?_set_ne (by omega), ← getD_eq_getElem?_getD]
        exact hslots i (by omega))
    refine ⟨slots, ?_, ?_⟩
    · rw [map_cons, foldlM_cons, hread, ok_bind, hfold, length_cons]
      show Except.ok ({ s.1 with count := s.1.count + 1 + es.length, entries := slots }, s.2) = _
      rw [Nat.add_assoc, Nat.add_comm 1]
    · rw [hval, map_cons]
      exact overwrite_set (by omega) _ _

theorem entryValid_trimmed (e : NodeListEntry) : entryValid e.trimmed = entryValid e := by
  by_cases hbad : e.nodeId = 0 ∨ e.nameLength = 0 ∨ e.nameLength > nameCapacity ∨ e.updatedAtMs < e.createdAtMs
  · have h₁ : entryValid e = false := if_pos hbad
    have h₂ : entryValid e.trimmed = false := if_pos hbad
    rw [h₁, h₂]
  · have hle : e.nameLength ≤ nameCapacity := by omega
    have hname : (e.name.val.take e.nameLength).length = e.nameLength := by
      rw [length_take, e.name.property]
      omega
    have hval : e.trimmed.name.val =
        e.name.val.take e.nameLength ++ (List.replicate nameCapacity 0).drop e.nameLength := by
      show overwrite (List.replicate nameCapacity 0) 0 ((e.name.val.take e.nameLength).take nameCapacity) = _
      rw [take_of_length_le (by omega), overwrite, List.take_zero, nil_append, Nat.zero_add, hname]
    have htake : e.trimmed.name.val.take e.nameLength = e.name.val.take e.nameLength := by
      rw [hval]
      exact take_left' hname
    have hget : ∀ i, i < e.nameLength → e.trimmed.name.val.getD i 0 = e.name.val.getD i 0 := by
      intro i hi
      rw [getD_eq_getElem?_getD, getD_eq_getElem?_getD, hval,
        List.getElem?_append_left (by omega), List.getElem?_take_of_lt hi]
    have hdots : ((e.nameLength = 1 ∧ e.trimmed.name.val.getD 0 0 = 0x2E) ∨
        (e.nameLength = 2 ∧ e.trimmed.name.val.getD 0 0 = 0x2E ∧ e.trimmed.name.val.getD 1 0 = 0x2E)) ↔
        ((e.nameLength = 1 ∧ e.name.val.getD 0 0 = 0x2E) ∨
        (e.nameLength = 2 ∧ e.name.val.getD 0 0 = 0x2E ∧ e.name.val.getD 1 0 = 0x2E)) := by
      rw [hget 0 (by omega)]
      refine or_congr .rfl (and_congr_right fun htwo => ?_)
      rw [hget 1 (by omega)]
    have hbad' : ¬ (e.trimmed.nodeId = 0 ∨ e.trimmed.nameLength = 0 ∨ e.trimmed.nameLength > nameCapacity ∨
        e.trimmed.updatedAtMs < e.trimmed.createdAtMs) := hbad
    unfold entryValid
    rw [if_neg hbad, if_neg hbad']
    show (if (e.trimmed.name.val.take e.nameLength).any _ = true then _ else _) = _
    rw [htake]
    exact if_congr .rfl rfl (if_congr hdots rfl rfl)

theorem entriesValid_trimmed (dir last : UInt64) (es : List NodeListEntry) :
    entriesValid dir last (es.map .trimmed) = entriesValid dir last es := by
  induction es generalizing last with
  | nil => rfl
  | cons e es ih =>
    rw [map_cons]
    unfold entriesValid
    rw [entryValid_trimmed, ih]
    rfl

/-! ## 2. The frame of a response -/

/-- The body of a response. -/
def responseBody (v : NodeListResponse) : Bytes :=
  if v.status = 0 then tlvCoding.encodeAll (responseFields v) else []

/-- The header of a response, before its checksum is known. -/
def responseHeader (v : NodeListResponse) : Header :=
  { command := commandNodeList
    flags := flagResponse ||| (if v.hasMore then flagMore else 0)
    status := v.status
    bodyLen := UInt32.ofNat (responseBodySize v)
    sequence := v.sequence
    sessionHandle := v.sessionHandle
    taskHandle := 0
    crc32c := 0 }

/-- The frame of a response. -/
def responseFrame (v : NodeListResponse) : Bytes :=
  ((responseHeader v).sealedWith (responseBody v)).encoded ++ responseBody v

theorem entryZero_iff (e : NodeListEntry) : entryZero e = true ↔ e = .zero := by
  obtain ⟨nodeId, parentId, name, nameLength, type, size, created, updated, has, hash⟩ := e
  simp only [entryZero, zeroBytes_iff, Bool.and_eq_true, decide_eq_true_eq, Bool.not_eq_true',
    NodeListEntry.zero, NodeListEntry.mk.injEq, and_assoc]
  exact and_congr_right fun _ => and_congr_right fun _ => and_left_comm

variable {v : NodeListResponse}

theorem responseValid_other (hbad : v.status ≠ 0) (h : responseValid v = true) :
    v = ⟨v.status, v.sequence, 0, 0, 0, 0, false, .fill _ 0, .fill _ .zero⟩ := by
  obtain ⟨status, sequence, session, dir, pageSize, count, hasMore, token, entries⟩ := v
  rw [responseValid] at h
  split at h
  · cases h
  split at h
  · cases h
  rename_i hnone
  simp only [not_or, not_not, Bool.not_eq_true', Bool.not_eq_false, Bool.not_eq_true, ne_eq] at hnone
  obtain ⟨h₁, h₂, h₃, h₄, h₅, h₆⟩ := hnone
  have hentries : entries = .fill _ .zero := Subtype.ext (eq_replicate_iff.mpr
    ⟨entries.property, fun e he => (entryZero_iff e).mp (all_eq_true.mp h e he)⟩)
  rw [h₁, h₂, h₃, h₄, h₅, zeroBytes_iff.mp h₆, hentries]

section Frame

variable {v : NodeListResponse}

section

variable (h : responseValid v = true)
include h

theorem ValidPage.of_valid (hok : v.status = 0) : ValidPage v :=
  ((responseValid_page hok).mp h).2

theorem length_responseBody :
    responseBodySize v = (responseBody v).length ∧ (responseBody v).length ≤ responseBodyMax := by
  unfold responseBody
  by_cases hok : v.status = 0
  · have hpage := ValidPage.of_valid h hok
    have hsize := responseBodySize_eq hok hpage
    have hle := responseBodySize_le hok hpage
    rw [if_pos hok, ← hsize]
    exact ⟨rfl, hle⟩
  · rw [if_neg hok, responseBodySize_other hok]
    exact ⟨rfl, Nat.zero_le _⟩

/-- **The body is written over all of the region that was measured for it.** -/
theorem responseWrite_spec (frame : Cells UInt8 responseFrameMax) (inner : Cells UInt8 entryBodyMax) :
    ∃ w, responseWrite v frame inner = .ok w ∧ w.used = responseBodySize v ∧
      w.data.getD [] = responseBody v := by
  unfold responseBody
  by_cases hok : v.status = 0
  · rw [if_pos hok]
    exact responseWrite_eq hok (.of_valid h hok) frame inner
  · rw [if_neg hok, responseBodySize_other hok]
    refine ⟨⟨some [], 0, 0⟩, ?_, rfl, rfl⟩
    unfold responseWrite
    rw [responseBodySize_other hok]
    show (if v.status = 0 then _ else _) = _
    rw [if_neg hok, slice_zero]

theorem responseHeader_ok : ResponseHeader (responseHeader v) := by
  obtain ⟨hseq, hallowed⟩ := responseValid_common h
  refine ⟨rfl, rfl, hallowed, hseq, ?_, ?_⟩
  · unfold responseHeader
    cases v.hasMore
    · exact .inl rfl
    · exact .inr rfl
  · by_cases hok : v.status = 0
    · rw [show (responseHeader v).status = v.status from rfl, if_pos hok]
      exact (ValidPage.of_valid h hok).session
    · have heq := responseValid_other hok h
      have hsession : v.sessionHandle = 0 := congrArg NodeListResponse.sessionHandle heq
      have hmore : v.hasMore = false := congrArg NodeListResponse.hasMore heq
      rw [show (responseHeader v).status = v.status from rfl, if_neg hok]
      refine ⟨hsession, ?_, ?_⟩
      · show UInt32.ofNat (responseBodySize v) = 0
        rw [responseBodySize_other hok]
        rfl
      · show flagResponse ||| (if v.hasMore = true then flagMore else 0) = flagResponse
        rw [hmore]
        rfl

theorem bodyLen_responseHeader : (responseHeader v).bodyLen.toNat = (responseBody v).length := by
  obtain ⟨hsize, hle⟩ := length_responseBody h
  show (UInt32.ofNat (responseBodySize v)).toNat = _
  rw [responseBodyMax] at hle
  rw [UInt32.toNat_ofNat', Nat.mod_eq_of_lt (by omega), hsize]

/-- **A valid response is encoded as its frame when there is room for it.** -/
theorem responseEncode_eq (capacity : Nat)
    (frame : Cells UInt8 responseFrameMax) (inner : Cells UInt8 entryBodyMax) :
    responseEncode v capacity frame inner =
      if capacity < 32 + responseBodySize v then .error .range else .ok (responseFrame v) := by
  obtain ⟨hsize, hle⟩ := length_responseBody h
  obtain ⟨w, hwrite, -, hdata⟩ := responseWrite_spec h frame inner
  have hframe := frame.property
  have hslice : slice (overwrite frame.val 32 (responseBody v)) 32 (responseBody v).length =
      responseBody v := slice_overwrite (by rw [hframe]; decide)
  have hpublish := publish_eq (bodyLen_responseHeader h) (hle.trans (by decide)) hslice
  unfold responseEncode
  rw [h, if_neg (by decide), hwrite]
  dsimp only
  split
  · rfl
  rw [ok_bind, hdata]
  rw [← hsize] at hpublish
  exact hpublish

end

theorem ValidPage.length_entries (h : ValidPage v) : (v.entries.val.take v.count).length = v.count := by
  have hcount := h.count_le_capacity
  rw [length_take, v.entries.property, pageCapacity]
  omega

theorem ValidPage.trimmed_entries (h : ValidPage v) :
    v.trimmed.entries.val = overwrite (List.replicate pageCapacity NodeListEntry.zero) 0
      ((v.entries.val.take v.count).map .trimmed) := by
  have hcount := h.count_le_capacity
  have hlen := h.length_entries
  show overwrite _ 0 (((v.entries.val.take v.count).map NodeListEntry.trimmed).take pageCapacity) = _
  rw [@take_of_length_le _ _ ((v.entries.val.take v.count).map NodeListEntry.trimmed)
    (by rw [length_map, hlen]; exact hcount)]
  rfl

theorem responseValid_trimmed (h : responseValid v = true) (hok : v.status = 0) :
    responseValid v.trimmed = true := by
  obtain ⟨hseq, hpage⟩ := (responseValid_page hok).mp h
  have htake : v.trimmed.entries.val.take v.count = (v.entries.val.take v.count).map .trimmed := by
    rw [hpage.trimmed_entries, overwrite, List.take_zero, nil_append]
    exact take_left' (by rw [length_map, hpage.length_entries])
  have hok' : v.trimmed.status = 0 := hok
  refine (responseValid_page hok').mpr ⟨hseq, hpage.session, hpage.directory, hpage.size_pos,
    hpage.size_le, hpage.count_le, hpage.full, hpage.noToken, ?_⟩
  show entriesValid v.directoryId 0 (v.trimmed.entries.val.take v.count) = true
  rw [htake, entriesValid_trimmed]
  exact hpage.entries

theorem response_fold (hpage : ValidPage v) (status : UInt16) (sequence session : UInt32) :
    (responseFields v).foldlM (fun s f => readResponseField s f.view)
        (⟨status, sequence, session, 0, 0, 0, false, .fill _ 0, .fill _ .zero⟩, false) =
      .ok (⟨status, sequence, session, v.directoryId, v.pageSize, v.count, false, v.nextPageToken,
        v.trimmed.entries⟩, v.hasMore) := by
  have hcount := hpage.count_le_capacity
  have hlen := hpage.length_entries
  let start : NodeListResponse :=
    ⟨status, sequence, session, v.directoryId, v.pageSize, 0, false, .fill _ 0, .fill _ .zero⟩
  have hentries : ((v.entries.val.take v.count).map entryField).foldlM
      (fun s f => readResponseField s f.view) (start, false) =
        .ok ({ start with count := v.count, entries := v.trimmed.entries }, false) := by
    obtain ⟨slots, hfold, hval⟩ := entries_fold (s := (start, false))
      (entryValid_of_entriesValid hpage.entries) (by rw [hlen]; exact (Nat.zero_add _).trans_le hcount) (by
        intro i _
        show (List.replicate pageCapacity NodeListEntry.zero).getD i .zero = .zero
        rw [getD_eq_getElem?_getD, List.getElem?_replicate]
        split <;> rfl)
    have hslots : slots = v.trimmed.entries := Subtype.ext (hval.trans hpage.trimmed_entries.symm)
    rw [hfold, hlen, hslots]
    show Except.ok ({ start with count := 0 + v.count, entries := v.trimmed.entries }, false) = _
    rw [Nat.zero_add]
  have hhead : [ofU64 tlvDirectoryId v.directoryId, .ofU16 tlvPageSize v.pageSize].foldlM
      (fun s f => readResponseField s f.view)
        (⟨status, sequence, session, 0, 0, 0, false, .fill _ 0, .fill _ .zero⟩, false) =
      .ok (start, false) := by
    rw [foldlM_cons, read_directoryId, ok_bind, foldlM_cons, read_pageSize]
    rfl
  unfold responseFields
  rw [foldlM_append, foldlM_append, hhead, ok_bind, hentries, ok_bind]
  cases hmore : v.hasMore with
  | false =>
    have hzero : v.nextPageToken = .fill _ 0 := zeroBytes_iff.mp (hpage.noToken hmore)
    rw [if_neg (by decide), foldlM_nil, hzero]
    rfl
  | true => simp only [if_true, foldlM_cons, foldlM_nil, read_token, bind_pure, start]

end Frame

/-! ## 3. The decoder as a whole -/

/-- The page before its fields are read. -/
def responseStart (h : Header) : NodeListResponse :=
  ⟨h.status, h.sequence, h.sessionHandle, 0, 0, 0, false, .fill _ 0, .fill _ .zero⟩

section Decoder

variable {wire : Bytes} {h : Header}

theorem foldFields_body {fields : List TlvField}
    (hbody : (wire.drop 32).take h.bodyLen.toNat = tlvCoding.encodeAll fields)
    (hlen : ((wire.drop 32).take h.bodyLen.toNat).length = h.bodyLen.toNat) (s : NodeListResponse × Bool) :
    TlvReader.foldFields readResponseField (h.bodyLen.toNat + 1)
        ⟨some ((wire.drop 32).take h.bodyLen.toNat), h.bodyLen.toNat, 0⟩ s =
      fields.foldlM (fun s f => readResponseField s f.view) s := by
  have hsound := TlvReader.sound_over ((wire.drop 32).take h.bodyLen.toNat)
  unfold TlvReader.over at hsound
  rw [hlen] at hsound
  refine foldFields_eq readResponseField hsound hbody ?_ s
  show ((wire.drop 32).take h.bodyLen.toNat).length < h.bodyLen.toNat + 1
  omega

theorem of_ite_error {ε α : Type} {c : Prop} [Decidable c] {e : ε} {x : Except ε α} {a : α}
    (h : (if c then .error e else x) = .ok a) : ¬ c ∧ x = .ok a := by
  split at h
  · cases h
  · exact ⟨‹_›, h⟩

theorem finish_iff {next v : NodeListResponse} :
    (if responseValid next = false then (.error .value : Except NodeListIssue _) else .ok next) = .ok v ↔
      responseValid v = true ∧ v = next := by
  split
  · rename_i hinvalid
    simp only [reduceCtorEq, false_iff, not_and]
    intro hvalid heq
    rw [heq, hinvalid] at hvalid
    cases hvalid
  · rename_i hvalid
    rw [Except.ok.injEq]
    constructor
    · intro heq
      exact ⟨by rw [← heq]; simpa using hvalid, heq.symm⟩
    · intro ⟨_, heq⟩
      exact heq.symm

section

variable (henv : envelope wire true = .ok h) {v : NodeListResponse}
include henv

theorem responseRead_other (hbad : h.status ≠ 0) :
    responseRead wire = .ok v ↔ responseValid v = true ∧ v = responseStart h := by
  unfold responseRead
  rw [henv]
  dsimp only [bind, Except.bind]
  rw [if_neg hbad]
  exact finish_iff

/-- **What the decoder answers to a page**: what its fields make of the empty page. -/
theorem responseRead_page (hok : h.status = 0)
    (hlen : ((wire.drop 32).take h.bodyLen.toNat).length = h.bodyLen.toNat) :
    responseRead wire = .ok v ↔ ∃ fields next,
      Accepted responseRules .reject ((wire.drop 32).take h.bodyLen.toNat) fields ∧
      fields.foldlM (fun s f => readResponseField s f.view) (responseStart h, false) =
        .ok (next, decide (h.flags &&& flagMore ≠ 0)) ∧
      responseValid v = true ∧ v = { next with hasMore := decide (h.flags &&& flagMore ≠ 0) } := by
  unfold responseRead
  rw [henv]
  dsimp only [bind, Except.bind]
  rw [if_pos hok]
  by_cases hschema : schema ((wire.drop 32).take h.bodyLen.toNat) responseRules 4 = true
  · rw [hschema, if_neg (by decide)]
    have hcall : ∀ fields, Accepted responseRules .reject ((wire.drop 32).take h.bodyLen.toNat) fields →
        TlvReader.foldFields readResponseField (h.bodyLen.toNat + 1)
            ⟨some ((wire.drop 32).take h.bodyLen.toNat), h.bodyLen.toNat, 0⟩ (responseStart h, false) =
          fields.foldlM (fun s f => readResponseField s f.view) (responseStart h, false) :=
      fun fields haccepted => foldFields_body haccepted.all hlen _
    unfold responseStart at hcall
    constructor
    · intro hread
      obtain ⟨fields, haccepted⟩ := (schema_iff valid_responseRules (by decide)).mp hschema
      rw [hcall fields haccepted] at hread
      split at hread
      · cases hread
      rename_i next token hfold
      split at hread
      · cases hread
      rename_i htoken
      obtain ⟨hvalid, heq⟩ := finish_iff.mp hread
      rw [not_not.mp htoken]
      refine ⟨fields, next, haccepted, hfold, hvalid, ?_⟩
      rw [heq, not_not.mp htoken]
    · intro ⟨fields, next, haccepted, hfold, hvalid, heq⟩
      unfold responseStart at hfold
      rw [hcall fields haccepted, hfold]
      dsimp only
      rw [if_neg (fun hne => hne rfl)]
      exact finish_iff.mpr ⟨hvalid, heq⟩
  · rw [Bool.not_eq_true] at hschema
    rw [hschema, if_pos rfl]
    constructor
    · nofun
    · intro ⟨fields, _, haccepted, _⟩
      have haccept : schema ((wire.drop 32).take h.bodyLen.toNat) responseRules 4 = true :=
        (schema_iff valid_responseRules (by decide)).mpr ⟨fields, haccepted⟩
      rw [haccept] at hschema
      cases hschema

theorem envelope_ok : headerDecode wire = .ok h ∧ wire.length = 32 + h.bodyLen.toNat ∧
      (h.status ≠ 0 → h.bodyLen = 0 ∧ h.flags = flagResponse) := by
  unfold envelope at henv
  simp only [↓reduceIte] at henv
  obtain ⟨-, henv⟩ := of_ite_error henv
  obtain ⟨-, henv⟩ := of_ite_error henv
  split at henv
  · cases henv
  rename_i h' hdecode
  split at henv
  · cases henv
  obtain ⟨hgood, henv⟩ := of_ite_error henv
  obtain ⟨-, henv⟩ := of_ite_error henv
  cases henv
  simp only [not_or, not_and, not_not, ne_eq] at hgood
  obtain ⟨-, -, ⟨-, -, hstatus⟩, hlen⟩ := hgood
  refine ⟨hdecode, hlen, fun hbad => ?_⟩
  rw [if_neg hbad] at hstatus
  simp only [not_or, not_not] at hstatus
  exact hstatus.2

theorem body_of_envelope : (wire.drop 32).take h.bodyLen.toNat = wire.drop 32 ∧
      ((wire.drop 32).take h.bodyLen.toNat).length = h.bodyLen.toNat := by
  obtain ⟨-, hlen, -⟩ := envelope_ok henv
  have hdrop : (wire.drop 32).length = h.bodyLen.toNat := by
    rw [length_drop]
    omega
  have hall : (wire.drop 32).take h.bodyLen.toNat = wire.drop 32 := take_of_length_le hdrop.le
  exact ⟨hall, by rw [hall, hdrop]⟩

end

end Decoder

section Fold

/-- What a field does to the number of entries and to the mark of the token; no field changes the
    status. -/
theorem readResponseField_step {s s' : NodeListResponse × Bool} {f : TlvView}
    (h : readResponseField s f = .ok s') :
    s'.1.status = s.1.status ∧ s'.1.count = s.1.count + (if f.type = tlvNodeEntry then 1 else 0) ∧
      (s'.2 = true ↔ s.2 = true ∨ f.type = tlvNextPageToken) := by
  have hmap : ∀ {α : Type} {x : Except Result α} {g : α → NodeListResponse × Bool},
      x.map g = .ok s' → ∃ a, s' = g a := by
    intro α x g hx
    cases x with
    | error r => cases hx
    | ok a => exact ⟨a, (Except.ok.inj hx).symm⟩
  unfold readResponseField at h
  dsimp only at h
  split at h
  · rename_i htype
    obtain ⟨x, rfl⟩ := hmap h
    rw [htype]
    exact ⟨rfl, rfl, by simp [tlvDirectoryId, tlvNextPageToken]⟩
  · split at h
    · rename_i htype
      obtain ⟨x, rfl⟩ := hmap h
      rw [htype]
      exact ⟨rfl, rfl, by simp [tlvPageSize, tlvNextPageToken]⟩
    · split at h
      · rename_i htype
        rw [Except.ok.injEq] at h
        rw [← h, htype]
        exact ⟨rfl, rfl, by simp⟩
      · rename_i hnottoken
        split at h
        · rename_i htype
          rw [if_pos htype]
          split at h
          · cases h
          split at h
          · obtain ⟨e, rfl⟩ := hmap h
            exact ⟨rfl, rfl, by simp [hnottoken]⟩
          · rw [Except.ok.injEq] at h
            rw [← h]
            exact ⟨rfl, rfl, by simp [hnottoken]⟩
        · cases h

/-- **What the fields of a page do to the number of entries and to the mark of the token.** -/
theorem response_fold_count {fields : List TlvField} {s s' : NodeListResponse × Bool}
    (h : fields.foldlM (fun s f => readResponseField s f.view) s = .ok s') :
    s'.1.status = s.1.status ∧ s'.1.count = s.1.count + fields.countP (·.type = tlvNodeEntry) ∧
      (s'.2 = true ↔ s.2 = true ∨ ∃ f ∈ fields, f.type = tlvNextPageToken) := by
  induction fields generalizing s with
  | nil =>
    cases h
    simp
  | cons f fields ih =>
    rw [foldlM_cons] at h
    cases hstep : readResponseField s f.view with
    | error r =>
      rw [hstep] at h
      cases h
    | ok mid =>
      rw [hstep, ok_bind] at h
      obtain ⟨hstatus, hcount, htoken⟩ := ih h
      obtain ⟨hstatus', hcount', htoken'⟩ := readResponseField_step hstep
      have htype : f.view.type = f.type := rfl
      rw [htype] at hcount' htoken'
      refine ⟨hstatus.trans hstatus', ?_, ?_⟩
      · rw [hcount, hcount', countP_cons]
        simp only [decide_eq_true_eq]
        omega
      · rw [htoken, htoken', exists_mem_cons_iff, or_assoc]

end Fold

/-! ## 4. The codec -/

/-- **The frame of a response is read as the response**, with what it does not use zeroed. -/
theorem responseRead_frame (h : responseValid v = true) :
    responseRead (responseFrame v) = .ok v.trimmed := by
  have henv : envelope (responseFrame v) true = .ok ((responseHeader v).sealedWith (responseBody v)) :=
    envelope_sealed (responseHeader_ok h) (bodyLen_responseHeader h) (length_responseBody h).2
  have hdrop : (responseFrame v).drop 32 = responseBody v := rfl
  obtain ⟨hall, hlen⟩ := body_of_envelope henv
  by_cases hok : v.status = 0
  · have hpage := ValidPage.of_valid h hok
    have hfields : responseBody v = tlvCoding.encodeAll (responseFields v) := if_pos hok
    have hflag : decide ((responseHeader v).flags &&& flagMore ≠ 0) = v.hasMore := by
      show decide ((flagResponse ||| if v.hasMore then flagMore else 0) &&& flagMore ≠ 0) = v.hasMore
      cases v.hasMore <;> rfl
    have haccepted : Accepted responseRules .reject (responseBody v) (responseFields v) := by
      obtain ⟨fields, hfit⟩ := (schema_iff valid_responseRules (by decide)).mp (schema_response v)
      have hsame : fields = responseFields v := tlvCoding.encodeAll_injective hfit.all.symm
      rw [hfields, ← hsame]
      exact hsame ▸ hfit
    refine (responseRead_page henv hok hlen).mpr ⟨responseFields v,
      ⟨v.status, v.sequence, v.sessionHandle, v.directoryId, v.pageSize, v.count, false, v.nextPageToken,
        v.trimmed.entries⟩, ?_, ?_, responseValid_trimmed h hok, ?_⟩
    · rw [hall, hdrop]
      exact haccepted
    · have hfold := response_fold hpage v.status v.sequence v.sessionHandle
      rw [← hflag] at hfold
      exact hfold
    · show v.trimmed = ⟨v.status, v.sequence, v.sessionHandle, v.directoryId, v.pageSize, v.count,
        decide ((responseHeader v).flags &&& flagMore ≠ 0), v.nextPageToken, v.trimmed.entries⟩
      rw [hflag]
      rfl
  · have hzero := responseValid_other hok h
    have hbad : ((responseHeader v).sealedWith (responseBody v)).status ≠ 0 := hok
    have hsession : v.sessionHandle = 0 := congrArg NodeListResponse.sessionHandle hzero
    have htrimmed : v.trimmed = v := by
      rw [hzero]
      rfl
    rw [responseRead_other henv hbad, htrimmed]
    refine ⟨h, hzero.trans ?_⟩
    show _ = (⟨v.status, v.sequence, v.sessionHandle, 0, 0, 0, false, .fill _ 0, .fill _ .zero⟩ :
      NodeListResponse)
    rw [hsession]

/-- What a decoded response is. -/
structure Listed (wire : Bytes) (v : NodeListResponse) : Prop where
  valid : responseValid v = true
  count_le : v.count ≤ v.pageSize.toNat
  pageSize_le : v.pageSize.toNat ≤ pageCapacity
  increasing : ((v.entries.val.take v.count).map NodeListEntry.nodeId).Pairwise (· < ·)
  /-- More is to come iff the header says so. -/
  flag : v.hasMore = true ↔ readU16Be (wire.drop flagsOffset) &&& flagMore ≠ 0
  /-- More is to come iff there is a token among the fields, which hold all the entries. -/
  token : ∃ fields, wire.drop headerSize = tlvCoding.encodeAll fields ∧
    v.count = fields.countP (·.type = tlvNodeEntry) ∧
    (v.hasMore = true ↔ ∃ f ∈ fields, f.type = tlvNextPageToken)

theorem listed_of_read {wire : Bytes} (hread : responseRead wire = .ok v) : Listed wire v := by
  cases henv : envelope wire true with
  | error issue =>
    unfold responseRead at hread
    rw [henv] at hread
    cases hread
  | ok h =>
    obtain ⟨hdecode, -, hother⟩ := envelope_ok henv
    obtain ⟨hall, hlen⟩ := body_of_envelope henv
    have hflags := (headerDecode_ok hdecode).2.2.2
    by_cases hok : h.status = 0
    · obtain ⟨fields, next, haccepted, hfold, hvalid, heq⟩ := (responseRead_page henv hok hlen).mp hread
      obtain ⟨hkept, hcount, htoken⟩ := response_fold_count hfold
      have hstatus : v.status = 0 := by
        rw [heq]
        exact hkept.trans hok
      have hpage := ValidPage.of_valid hvalid hstatus
      have hmore : v.hasMore = decide (h.flags &&& flagMore ≠ 0) := by rw [heq]
      have hnext : v.count = next.count := by rw [heq]
      refine ⟨hvalid, hpage.count_le, UInt16.le_iff_toNat_le.mp hpage.size_le,
        (increasing_of_entriesValid hpage.entries).2, ?_, fields, hall.symm.trans haccepted.all, ?_, ?_⟩
      · rw [hmore, ← hflags, decide_eq_true_iff]
      · rw [hnext, hcount]
        exact Nat.zero_add _
      · rw [hmore, htoken]
        simp
    · obtain ⟨hvalid, heq⟩ := (responseRead_other henv hok).mp hread
      obtain ⟨hempty, hflag⟩ := hother hok
      have hdrop : wire.drop 32 = [] := by
        rw [← hall, hempty]
        exact List.take_zero
      rw [heq] at hvalid ⊢
      refine ⟨hvalid, Nat.le_refl 0, Nat.zero_le _, List.Pairwise.nil, ?_, [], hdrop, rfl, ?_⟩
      · rw [← hflags, hflag]
        have hmask : flagResponse &&& flagMore = 0 := by decide
        simp [responseStart, hmask]
      · simp [responseStart]

/-- **The two directions of the codec.** A valid response is encoded over exactly the size that was computed for
    it, and decoded as itself; what is decoded is valid, and a refusal leaves the output alone. -/
theorem response_codec :
    (∀ v, responseValid v = true →
      ∀ (capacity : Nat) (frame : Cells UInt8 responseFrameMax) (inner : Cells UInt8 entryBodyMax),
        32 + responseBodySize v ≤ responseFrameMax ∧
        (∃ w, responseWrite v frame inner = .ok w ∧ w.used = responseBodySize v) ∧
        (32 + responseBodySize v ≤ capacity →
          ∃ wire, responseEncode v capacity frame inner = .ok wire ∧
            wire.length = 32 + responseBodySize v ∧
            ∀ out, responseDecode wire out = ⟨.ok, v.trimmed, .none⟩)) ∧
    ∀ wire out, ((responseDecode wire out).result ≠ .ok → (responseDecode wire out).out = out) ∧
      ((responseDecode wire out).result = .ok → Listed wire (responseDecode wire out).out) := by
  refine ⟨fun v h capacity frame inner => ?_, fun wire out => ?_⟩
  · obtain ⟨hsize, hle⟩ := length_responseBody h
    obtain ⟨w, hwrite, hused, -⟩ := responseWrite_spec h frame inner
    rw [responseBodyMax] at hle
    refine ⟨by rw [responseFrameMax]; omega, ⟨w, hwrite, hused⟩, fun hroom => ?_⟩
    refine ⟨responseFrame v, ?_, ?_, fun out => ?_⟩
    · rw [responseEncode_eq h, if_neg (by omega)]
    · rw [responseFrame, length_append, Header.length_encoded, ← hsize, headerSize]
    · unfold responseDecode
      rw [responseRead_frame h]
  · unfold responseDecode
    cases hread : responseRead wire with
    | error issue => exact ⟨fun _ => rfl, fun hok => by cases hok⟩
    | ok v => exact ⟨fun hbad => absurd rfl hbad, fun _ => listed_of_read hread⟩

/-- A full page of a directory and a file. -/
def samplePage : NodeListResponse :=
  ⟨0, 7, 3, 5, 2, 2, true, .fill _ 1, (Cells.fill _ .zero).copy
    [⟨8, 5, (Cells.fill _ 0).copy [0x64], 1, typeDirectory, 0, 1, 2, false, .fill _ 0⟩,
      ⟨9, 5, (Cells.fill _ 0).copy [0x66], 1, typeFile, 70, 1, 2, true, .fill _ 4⟩]⟩

theorem response_codec_page :
    ∃ wire, responseEncode samplePage 400 (.fill _ 0) (.fill _ 0) = .ok wire ∧ wire.length = 336 ∧
      ∀ out, responseDecode wire out = ⟨.ok, samplePage.trimmed, .none⟩ :=
  ((response_codec.1 samplePage (by decide) 400 (.fill _ 0) (.fill _ 0)).2.2 (by decide))

end Vireo.Protocol
