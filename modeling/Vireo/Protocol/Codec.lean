/-
  File:      Vireo/Protocol/Codec.lean
  Subject:   THE FRAME HEADER (`src/protocol/codec.c`, `src/protocol/protocol.c`): its wire form, its
             checks, and the CRC-32C of a frame.

  A pointer that comes with its size is the list of the bytes behind it, and null is the empty list.
-/
import Vireo.Lib.Crc
import Vireo.Protocol.Wire

namespace Vireo.Protocol

open Lib

/-! ## 1. The registries -/

/-- `VIREO_PROTOCOL_MAGIC_VALUE`. -/
def magicValue : UInt32 := 0x56495245

/-- `VIREO_PROTOCOL_VERSION`. -/
def protocolVersion : UInt8 := 1

/-- `VIREO_PROTOCOL_HEADER_SIZE`. -/
def headerSize : Nat := 32

/-- `VIREO_PROTOCOL_MAX_BODY_SIZE`. -/
def maxBodySize : Nat := 16777216

/-- `VIREO_PROTOCOL_SEQUENCE_NONE`. -/
def sequenceNone : UInt32 := 0

/-- `VIREO_PROTOCOL_REQUEST_STATUS`. -/
def requestStatus : UInt16 := 0

/-- `VIREO_PROTOCOL_FLAG_RESPONSE`. -/
def flagResponse : UInt16 := 0x0001

/-- `VIREO_PROTOCOL_FLAG_MORE`. -/
def flagMore : UInt16 := 0x0020

/-- `VIREO_PROTOCOL_FLAG_KNOWN_MASK`. -/
def flagKnownMask : UInt16 := 0x003F

/-- `vireo_protocol_flags_have_unknown_bits`. -/
def flagsHaveUnknownBits (flags : UInt16) : Bool := flags &&& ~~~flagKnownMask ≠ 0

/-- `vireo_command_is_known`. -/
def commandIsKnown (command : UInt16) : Bool :=
  command ∈ ([0x0001, 0x0002, 0x0100, 0x0101, 0x0102, 0x0103, 0x0201, 0x0202, 0x0203, 0x0204, 0x0205,
    0x0301, 0x0302, 0x0303, 0x0304, 0x0305, 0x0306, 0x0401, 0x0402, 0x0403, 0x0404, 0x0405, 0x0406,
    0x0501, 0x0502, 0x0503, 0x0601, 0x0602, 0x0620, 0x0630] : List UInt16)

/-- `vireo_command_is_reserved`: the reserved part of the storage commands. -/
def commandIsReserved (command : UInt16) : Bool := command ≥ 0x0610 && command ≤ 0x0614

/-- `vireo_status_is_known`. -/
def statusIsKnown (status : UInt16) : Bool :=
  status ∈ ([0, 1, 1001, 1002, 1003, 1004, 1005, 1006, 1007, 1008, 1101, 1102, 1103, 1104, 1105, 1106,
    1107, 1108, 1201, 1202, 1203, 1204, 1205, 1206, 1301, 1302, 1303, 1304, 1305, 1306, 1307, 1308,
    1309, 1310, 1390, 1391, 1392, 1393, 1901, 1902, 1903, 1904, 1905, 1906, 1907, 1908] : List UInt16)

/-! ## 2. The header -/

/-- `vireo_protocol_header_t`. -/
structure Header where
  command : UInt16
  flags : UInt16
  status : UInt16
  bodyLen : UInt32
  sequence : UInt32
  sessionHandle : UInt32
  taskHandle : UInt32
  crc32c : UInt32
deriving DecidableEq, Inhabited

/-- `vireo_protocol_codec_issue_t`. -/
inductive CodecIssue where
  | none
  | invalidMagic
  | versionMismatch
  | invalidHeaderLength
  | bodyTooLarge
  | bodyLengthMismatch
  | unknownFlags
  | unknownCommand
  | reservedCommand
  | invalidSequence
  | requestHasResponseFlag
  | requestHasMoreFlag
  | invalidRequestStatus
  | responseMissingResponseFlag
  | unknownResponseStatus
  | crcMismatch
deriving DecidableEq, Inhabited

def versionOffset : Nat := 4
def headerLengthOffset : Nat := 5
def commandOffset : Nat := 6
def flagsOffset : Nat := 8
def statusOffset : Nat := 10
def bodyLengthOffset : Nat := 12
def sequenceOffset : Nat := 16
def sessionHandleOffset : Nat := 20
def taskHandleOffset : Nat := 24
def crc32cOffset : Nat := 28

/-- The part of a header that the checksum covers, in the order of the offsets. -/
def Header.covered (header : Header) : Bytes :=
  writeU32Be magicValue ++ [protocolVersion, UInt8.ofNat headerSize] ++ writeU16Be header.command ++
    writeU16Be header.flags ++ writeU16Be header.status ++ writeU32Be header.bodyLen ++
    writeU32Be header.sequence ++ writeU32Be header.sessionHandle ++ writeU32Be header.taskHandle

/-- The local buffer of `vireo_protocol_header_encode`. -/
def Header.encoded (header : Header) : Bytes := header.covered ++ writeU32Be header.crc32c

/-- `vireo_protocol_header_encode`: the bytes that are copied to the output. -/
def headerEncode (header : Header) (wireCapacity : Nat) : Except Result Bytes :=
  if wireCapacity < headerSize then .error .range
  else if header.bodyLen.toNat > maxBodySize then .error .range
  else .ok header.encoded

/-- `vireo_protocol_header_decode`: the header, or the result and the issue. -/
def headerDecode (wire : Bytes) : Except (Result × CodecIssue) Header :=
  if wire.length < headerSize then .error (.range, .none)
  else if readU32Be wire ≠ magicValue then .error (.protocol, .invalidMagic)
  else if wire.getD versionOffset 0 ≠ protocolVersion then .error (.protocol, .versionMismatch)
  else if wire.getD headerLengthOffset 0 ≠ UInt8.ofNat headerSize then
    .error (.protocol, .invalidHeaderLength)
  else
    let header : Header :=
      { command := readU16Be (wire.drop commandOffset)
        flags := readU16Be (wire.drop flagsOffset)
        status := readU16Be (wire.drop statusOffset)
        bodyLen := readU32Be (wire.drop bodyLengthOffset)
        sequence := readU32Be (wire.drop sequenceOffset)
        sessionHandle := readU32Be (wire.drop sessionHandleOffset)
        taskHandle := readU32Be (wire.drop taskHandleOffset)
        crc32c := readU32Be (wire.drop crc32cOffset) }
    if header.bodyLen.toNat > maxBodySize then .error (.protocol, .bodyTooLarge) else .ok header

/-- The checks that `vireo_protocol_request_header_validate` and
    `vireo_protocol_response_header_validate` start with. -/
def headerValidate (header : Header) : Except (Result × CodecIssue) Unit :=
  if header.bodyLen.toNat > maxBodySize then .error (.protocol, .bodyTooLarge)
  else if flagsHaveUnknownBits header.flags then .error (.protocol, .unknownFlags)
  else if commandIsReserved header.command then .error (.protocol, .reservedCommand)
  else if !commandIsKnown header.command then .error (.protocol, .unknownCommand)
  else if header.sequence = sequenceNone then .error (.protocol, .invalidSequence)
  else .ok ()

/-- `vireo_protocol_request_header_validate`. -/
def requestHeaderValidate (header : Header) : Except (Result × CodecIssue) Unit := do
  headerValidate header
  if header.flags &&& flagResponse ≠ 0 then .error (.protocol, .requestHasResponseFlag)
  else if header.flags &&& flagMore ≠ 0 then .error (.protocol, .requestHasMoreFlag)
  else if header.status ≠ requestStatus then .error (.protocol, .invalidRequestStatus)
  else .ok ()

/-- `vireo_protocol_response_header_validate`. -/
def responseHeaderValidate (header : Header) : Except (Result × CodecIssue) Unit := do
  headerValidate header
  if header.flags &&& flagResponse = 0 then .error (.protocol, .responseMissingResponseFlag)
  else if !statusIsKnown header.status then .error (.protocol, .unknownResponseStatus)
  else .ok ()

/-! ## 3. The checksum -/

/-- `VIREO_PROTOCOL_CRC32C_REFLECTED_POLYNOMIAL`. -/
def crc32cReflectedPolynomial : UInt32 := 0x82F63B78

/-- The bit loop of `vireo_protocol_crc32c_update`. -/
def crc32cBits : Nat → UInt32 → UInt32
  | 0, crc => crc
  | k + 1, crc =>
    let mask := 0 - (crc &&& 1)
    crc32cBits k ((crc >>> 1) ^^^ (crc32cReflectedPolynomial &&& mask))

/-- `vireo_protocol_crc32c_update`. -/
def crc32cUpdate (crc : UInt32) : Bytes → UInt32
  | [] => crc
  | byte :: data => crc32cUpdate (crc32cBits 8 (crc ^^^ byte.toUInt32)) data

/-- `vireo_protocol_frame_crc32c_calculate`. -/
def frameCrc32cCalculate (wire body : Bytes) : Except Result UInt32 :=
  if wire.length < headerSize then .error .range
  else if body.length > maxBodySize then .error .range
  else if (readU32Be (wire.drop bodyLengthOffset)).toNat ≠ body.length then .error .range
  else
    let crc32c := crc32cUpdate 0xFFFFFFFF (wire.take crc32cOffset)
    .ok (~~~ (crc32cUpdate crc32c body))

/-- `vireo_protocol_frame_crc32c_verify`. -/
def frameCrc32cVerify (wire body : Bytes) : Result × CodecIssue :=
  if wire.length < headerSize then (.range, .none)
  else if body.length > maxBodySize then (.range, .none)
  else if (readU32Be (wire.drop bodyLengthOffset)).toNat ≠ body.length then (.range, .bodyLengthMismatch)
  else
    match frameCrc32cCalculate wire body with
    | .error e => (e, .none)
    | .ok calculated =>
      if calculated ≠ readU32Be (wire.drop crc32cOffset) then (.protocol, .crcMismatch) else (.ok, .none)

/-! ## 4. The header and its bytes -/

section

variable (header : Header)

@[simp]
theorem Header.length_covered : header.covered.length = crc32cOffset := rfl

@[simp]
theorem Header.length_encoded : header.encoded.length = headerSize := rfl

theorem Header.drop_encoded : header.encoded.drop crc32cOffset = writeU32Be header.crc32c := rfl

theorem Header.fields_encoded (t : Bytes) : readU32Be (header.encoded ++ t) = magicValue ∧
    (header.encoded ++ t).getD versionOffset 0 = protocolVersion ∧
    (header.encoded ++ t).getD headerLengthOffset 0 = UInt8.ofNat headerSize ∧
    readU16Be ((header.encoded ++ t).drop commandOffset) = header.command ∧
    readU16Be ((header.encoded ++ t).drop flagsOffset) = header.flags ∧
    readU16Be ((header.encoded ++ t).drop statusOffset) = header.status ∧
    readU32Be ((header.encoded ++ t).drop bodyLengthOffset) = header.bodyLen ∧
    readU32Be ((header.encoded ++ t).drop sequenceOffset) = header.sequence ∧
    readU32Be ((header.encoded ++ t).drop sessionHandleOffset) = header.sessionHandle ∧
    readU32Be ((header.encoded ++ t).drop taskHandleOffset) = header.taskHandle ∧
    readU32Be ((header.encoded ++ t).drop crc32cOffset) = header.crc32c := by
  refine ⟨?_, rfl, rfl, ?_, ?_, ?_, ?_, ?_, ?_, ?_, ?_⟩
  · exact readU32Be_write magicValue _
  · exact readU16Be_write header.command _
  · exact readU16Be_write header.flags _
  · exact readU16Be_write header.status _
  · exact readU32Be_write header.bodyLen _
  · exact readU32Be_write header.sequence _
  · exact readU32Be_write header.sessionHandle _
  · exact readU32Be_write header.taskHandle _
  · exact readU32Be_write header.crc32c _

theorem Header.bodyLen_encoded : readU32Be (header.encoded.drop bodyLengthOffset) = header.bodyLen :=
  readU32Be_write header.bodyLen _

theorem headerDecode_encoded (t : Bytes) : headerDecode (header.encoded ++ t) =
      if header.bodyLen.toNat > maxBodySize then .error (.protocol, .bodyTooLarge) else .ok header := by
  obtain ⟨hmagic, hversion, hlength, hcommand, hflags, hstatus, hbody, hsequence, hsession, htask, hcrc⟩ :=
    header.fields_encoded t
  have hlen : headerSize ≤ (header.encoded ++ t).length := by
    rw [List.length_append, header.length_encoded]
    omega
  unfold headerDecode
  rw [if_neg (by omega), hmagic, if_neg (by simp), hversion, if_neg (by simp), hlength,
    if_neg (by simp), hcommand, hflags, hstatus, hbody, hsequence, hsession, htask, hcrc]

theorem headerDecode_encode (h : header.bodyLen.toNat ≤ maxBodySize) (t : Bytes) :
    headerDecode (header.encoded ++ t) = .ok header :=
  (headerDecode_encoded header t).trans (if_neg (Nat.not_lt.mpr h))

end

theorem headerDecode_ok {wire : Bytes} {header : Header} (h : headerDecode wire = .ok header) :
    headerSize ≤ wire.length ∧ header.bodyLen.toNat ≤ maxBodySize ∧
      header.bodyLen = readU32Be (wire.drop bodyLengthOffset) ∧
      header.flags = readU16Be (wire.drop flagsOffset) := by
  unfold headerDecode at h
  split at h
  · cases h
  split at h
  · cases h
  split at h
  · cases h
  split at h
  · cases h
  dsimp only at h
  split at h
  · cases h
  rename_i hsize _ _ _ hbody
  cases h
  exact ⟨Nat.not_lt.mp hsize, Nat.not_lt.mp hbody, rfl, rfl⟩

/-! ## 5. The checksum and the register -/

/-- The polynomial of the register. -/
def crc32cPoly : BitVec 32 := crc32cReflectedPolynomial.toBitVec

theorem crc32c_mask (x : BitVec 32) :
    crc32cPoly &&& (0 - (x &&& 1#32)) = if x.getLsbD 0 then crc32cPoly else 0#32 := by
  rw [BitVec.and_one_eq_setWidth_ofBool_getLsbD]
  cases x.getLsbD 0 <;> decide

theorem crc32cBits_toBitVec (k : Nat) (crc : UInt32) :
    (crc32cBits k crc).toBitVec = crcSteps crc32cPoly k crc.toBitVec := by
  induction k generalizing crc with
  | zero => rfl
  | succ k ih =>
    have hstep : ((crc >>> 1) ^^^ (crc32cReflectedPolynomial &&& (0 - (crc &&& 1)))).toBitVec =
        crcStep crc32cPoly crc.toBitVec := by
      unfold crcStep
      rw [← crc32c_mask]
      simp [crc32cPoly]
    unfold crc32cBits
    rw [crcSteps_succ, ← hstep]
    exact ih _

theorem crc32cUpdate_toBitVec (data : Bytes) (crc : UInt32) :
    (crc32cUpdate crc data).toBitVec = crcFeed crc32cPoly crc.toBitVec data := by
  induction data generalizing crc with
  | nil => rfl
  | cons byte data ih =>
    unfold crc32cUpdate
    rw [ih, crc32cBits_toBitVec]
    rfl

theorem crc32cUpdate_append (crc : UInt32) (xs ys : Bytes) :
    crc32cUpdate (crc32cUpdate crc xs) ys = crc32cUpdate crc (xs ++ ys) := by
  apply UInt32.toBitVec_inj.mp
  rw [crc32cUpdate_toBitVec, crc32cUpdate_toBitVec, crc32cUpdate_toBitVec, crcFeed_append]

theorem crc32cUpdate_burst (crc : UInt32) (pre post : Bytes) {xs ys : Bytes}
    (hlen : xs.length = ys.length) (hfour : xs.length ≤ 4) (hne : xs ≠ ys) :
    crc32cUpdate crc (pre ++ xs ++ post) ≠ crc32cUpdate crc (pre ++ ys ++ post) := by
  intro heq
  have hbits := congrArg UInt32.toBitVec heq
  rw [crc32cUpdate_toBitVec, crc32cUpdate_toBitVec] at hbits
  exact crcFeed_burst (by decide) _ pre post hlen (by omega) hne hbits

/-! ## 6. The checksum of a frame -/

/-- The bytes of a frame that the checksum covers. -/
def coveredBytes (wire body : Bytes) : Bytes := wire.take crc32cOffset ++ body

/-- The sizes that the calculation asks for. -/
structure FrameSizes (wire body : Bytes) : Prop where
  header_le : headerSize ≤ wire.length
  body_le : body.length ≤ maxBodySize
  equal : (readU32Be (wire.drop bodyLengthOffset)).toNat = body.length

/-- **The calculation covers header and body**, and is refused for other sizes. -/
theorem frameCrc32cCalculate_ok {wire body : Bytes} {crc : UInt32} :
    frameCrc32cCalculate wire body = .ok crc ↔
      FrameSizes wire body ∧ crc = ~~~ (crc32cUpdate 0xFFFFFFFF (coveredBytes wire body)) := by
  unfold frameCrc32cCalculate coveredBytes
  rw [← crc32cUpdate_append]
  constructor
  · intro h
    split at h
    · cases h
    split at h
    · cases h
    split at h
    · cases h
    · cases h
      exact ⟨⟨by omega, by omega, by omega⟩, rfl⟩
  · intro ⟨hsizes, hcrc⟩
    have hheader := hsizes.header_le
    have hbody := hsizes.body_le
    rw [if_neg (by omega), if_neg (by omega), if_neg (not_not.mpr hsizes.equal), hcrc]

/-- **A frame verifies when its sizes fit and it carries its checksum**; every other one is refused
    with a result that is not OK. -/
theorem frameCrc32cVerify_ok {wire body : Bytes} : (frameCrc32cVerify wire body).1 = .ok ↔
      frameCrc32cCalculate wire body = .ok (readU32Be (wire.drop crc32cOffset)) := by
  unfold frameCrc32cVerify
  constructor
  · intro h
    split at h
    · cases h
    split at h
    · cases h
    split at h
    · cases h
    split at h
    · rename_i e hcalc
      have := (@frameCrc32cCalculate_ok wire body _).mpr ⟨⟨by omega, by omega, by omega⟩, rfl⟩
      rw [hcalc] at this
      cases this
    · rename_i crc hcalc
      split at h
      · cases h
      · rename_i heq
        rw [hcalc, not_not.mp heq]
  · intro h
    obtain ⟨hsizes, -⟩ := frameCrc32cCalculate_ok.mp h
    have hheader := hsizes.header_le
    have hbody := hsizes.body_le
    rw [if_neg (by omega), if_neg (by omega), if_neg (not_not.mpr hsizes.equal), h]
    exact congrArg Prod.fst (if_neg (by simp))

/-- The header with the checksum of its frame. -/
def Header.sealedWith (header : Header) (body : Bytes) : Header :=
  { header with crc32c := ~~~ (crc32cUpdate 0xFFFFFFFF (header.covered ++ body)) }

section Seal

variable {header : Header} {body : Bytes}

theorem headerEncode_ok (h : header.bodyLen.toNat ≤ maxBodySize) :
    headerEncode header headerSize = .ok header.encoded := by
  unfold headerEncode
  rw [if_neg (by decide), if_neg (by omega)]

theorem frameCrc32cCalculate_encoded (hequal : header.bodyLen.toNat = body.length)
    (hbody : body.length ≤ maxBodySize) (crc : UInt32) :
    frameCrc32cCalculate ({ header with crc32c := crc } : Header).encoded body =
      .ok (header.sealedWith body).crc32c := by
  refine frameCrc32cCalculate_ok.mpr ⟨⟨Nat.le_refl _, hbody, ?_⟩, rfl⟩
  rw [Header.bodyLen_encoded]
  exact hequal

theorem frameCrc32cVerify_sealed (hequal : header.bodyLen.toNat = body.length)
    (hbody : body.length ≤ maxBodySize) :
    (frameCrc32cVerify (header.sealedWith body).encoded body).1 = .ok := by
  rw [frameCrc32cVerify_ok, Header.drop_encoded, readU32Be_write']
  exact frameCrc32cCalculate_encoded hequal hbody _

end Seal

/-- The header is encoded, the checksum calculated and put in, and the frame verified. -/
def SealsAndVerifies (header : Header) (body : Bytes) : Prop :=
  ∃ wire crc wire', headerEncode header headerSize = .ok wire ∧
    frameCrc32cCalculate wire body = .ok crc ∧
    headerEncode { header with crc32c := crc } headerSize = .ok wire' ∧
    (frameCrc32cVerify wire' body).1 = .ok

/-- **A frame is sealed exactly when its header tells the size of its body.** -/
theorem sealsAndVerifies_iff (header : Header) (body : Bytes) :
    SealsAndVerifies header body ↔ header.bodyLen.toNat = body.length ∧ body.length ≤ maxBodySize := by
  constructor
  · intro ⟨wire, crc, wire', hencode, hcalc, _⟩
    obtain ⟨hsizes, -⟩ := frameCrc32cCalculate_ok.mp hcalc
    have hwire : wire = header.encoded := by
      unfold headerEncode at hencode
      split at hencode
      · cases hencode
      split at hencode
      · cases hencode
      · cases hencode
        rfl
    have hequal := hsizes.equal
    rw [hwire, header.bodyLen_encoded] at hequal
    exact ⟨hequal, hsizes.body_le⟩
  · intro ⟨hequal, hbody⟩
    have hle : header.bodyLen.toNat ≤ maxBodySize := by omega
    exact ⟨header.encoded, (header.sealedWith body).crc32c, (header.sealedWith body).encoded,
      headerEncode_ok hle, frameCrc32cCalculate_encoded hequal hbody header.crc32c,
      @headerEncode_ok (header.sealedWith body) hle, frameCrc32cVerify_sealed hequal hbody⟩

/-- **Sealed frames verify, and short bursts are seen.** Of two frames with bodies of one length whose covered
    bytes differ in at most four bytes next to each other, at most one verifies under one checksum. -/
theorem frame_crc :
    (∀ (header : Header) (body : Bytes), SealsAndVerifies header body ↔
      header.bodyLen.toNat = body.length ∧ body.length ≤ maxBodySize) ∧
    (∀ (wire wire' body body' pre xs ys post : Bytes), body.length = body'.length →
      coveredBytes wire body = pre ++ xs ++ post → coveredBytes wire' body' = pre ++ ys ++ post →
      xs.length = ys.length → xs.length ≤ 4 → xs ≠ ys →
      (∀ crc crc', frameCrc32cCalculate wire body = .ok crc →
        frameCrc32cCalculate wire' body' = .ok crc' → crc ≠ crc') ∧
      (readU32Be (wire'.drop crc32cOffset) = readU32Be (wire.drop crc32cOffset) →
        (frameCrc32cVerify wire body).1 = .ok → (frameCrc32cVerify wire' body').1 ≠ .ok)) := by
  refine ⟨sealsAndVerifies_iff, ?_⟩
  intro wire wire' body body' pre xs ys post _ hcovered hcovered' hlen hfour hne
  have hdiffer : ∀ crc crc', frameCrc32cCalculate wire body = .ok crc →
      frameCrc32cCalculate wire' body' = .ok crc' → crc ≠ crc' := by
    intro crc crc' h h' heq
    have hcrc := (frameCrc32cCalculate_ok.mp h).2
    have hcrc' := (frameCrc32cCalculate_ok.mp h').2
    rw [hcovered] at hcrc
    rw [hcovered', ← heq, hcrc] at hcrc'
    exact crc32cUpdate_burst _ pre post hlen hfour hne (UInt32.not_inj.mp hcrc')
  refine ⟨hdiffer, fun hcarried hok hok' => ?_⟩
  have h := frameCrc32cVerify_ok.mp hok
  have h' := frameCrc32cVerify_ok.mp hok'
  exact hdiffer _ _ h h' hcarried.symm

/-- A ping is sealed, and one with another sequence number has another checksum. -/
theorem frame_crc_ping :
    SealsAndVerifies ⟨1, 0, 0, 0, 1, 0, 0, 0⟩ [] ∧
    ∀ crc crc', frameCrc32cCalculate (Header.encoded ⟨1, 0, 0, 0, 1, 0, 0, 0⟩) [] = .ok crc →
      frameCrc32cCalculate (Header.encoded ⟨1, 0, 0, 0, 2, 0, 0, 0⟩) [] = .ok crc' → crc ≠ crc' :=
  ⟨(frame_crc.1 _ _).mpr ⟨rfl, by decide⟩,
    (frame_crc.2 _ _ _ _ (coveredBytes (Header.encoded ⟨1, 0, 0, 0, 1, 0, 0, 0⟩) [] |>.take 16)
      [0, 0, 0, 1] [0, 0, 0, 2] (List.replicate 8 0) rfl (by decide) (by decide) rfl (by decide)
      (by decide)).1⟩

/-- A header that tells one byte, and no body: the checksum is not calculated. -/
theorem seals_not_always :
    ¬ ∀ (header : Header) (body : Bytes), SealsAndVerifies header body := by
  intro h
  have hequal := ((sealsAndVerifies_iff ⟨1, 0, 0, 1, 1, 0, 0, 0⟩ []).mp (h _ [])).1
  cases hequal

end Vireo.Protocol
