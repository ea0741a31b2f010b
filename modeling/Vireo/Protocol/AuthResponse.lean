/-
  File:      Vireo/Protocol/AuthResponse.lean
  Subject:   THE RESPONSE OF AN AUTHENTICATION (`src/protocol/auth_response.c`): its encoder and its decoder.

  Null pointers do not exist here.
-/
import Vireo.Lib.BigEndian
import Vireo.Protocol.AuthRequest
import Vireo.Protocol.NodeCommand

namespace Vireo.Protocol

open Lib List
open TlvWriter (chain init putField)

/-! ## 1. Values -/

/-- `VIREO_AUTH_RESPONSE_USER_ID`. -/
def tlvUserId : UInt16 := 1
/-- `VIREO_AUTH_RESPONSE_ROOT_NODE_ID`. -/
def tlvRootNodeId : UInt16 := 2
/-- `VIREO_AUTH_RESPONSE_TOKEN`. -/
def tlvResponseToken : UInt16 := 3
/-- `VIREO_AUTH_RESPONSE_ISSUED_AT_MS`. -/
def tlvIssuedAtMs : UInt16 := 4
/-- `VIREO_AUTH_RESPONSE_EXPIRES_AT_MS`. -/
def tlvExpiresAtMs : UInt16 := 5

/-- `vireo_auth_response_t`. -/
structure AuthResponse where
  command : UInt16
  status : UInt16
  sequence : UInt32
  sessionHandle : UInt32
  userId : UInt64
  rootNodeId : UInt64
  issuedAtMs : UInt64
  expiresAtMs : UInt64
  token : Cells UInt8 32
deriving DecidableEq

variable (v : AuthResponse)

/-- `valid`. -/
def authResponseValid : Bool :=
  if (v.command ≠ commandRegister ∧ v.command ≠ commandLogin ∧ v.command ≠ commandSessionResume ∧
      v.command ≠ commandLogout) ∨ v.sequence = 0 ∨ statusIsKnown v.status = false then false
  else if v.status ≠ 0 ∨ v.command = commandLogout then
    v.sessionHandle = 0 && v.userId = 0 && v.rootNodeId = 0 && v.issuedAtMs = 0 && v.expiresAtMs = 0 &&
      zeroBytes v.token.val
  else if v.userId = 0 then false
  else if v.command = commandRegister then
    v.sessionHandle = 0 && v.rootNodeId ≠ 0 && v.issuedAtMs = 0 && v.expiresAtMs = 0 && zeroBytes v.token.val
  else
    v.sessionHandle ≠ 0 && v.rootNodeId = 0 && v.expiresAtMs > v.issuedAtMs &&
      (v.command = commandLogin || zeroBytes v.token.val)

/-- `get64`. -/
def get64 (p : Bytes) : UInt64 := beWord (p.take 8)

/-! ## 2. The encoder -/

/-- The length of the frame that the encoder starts with. -/
def authResponseLength : Nat :=
  if v.status ≠ 0 ∨ v.command = commandLogout then 32
  else if v.command = commandRegister then 56
  else if v.command = commandSessionResume then 68
  else 104

/-- The puts of the encoder. -/
def putAuthResponse (w : TlvWriter) : Except Result TlvWriter :=
  if v.status = 0 ∧ v.command ≠ commandLogout then do
    let w ← chain (w.putU64 tlvUserId v.userId)
    if v.command = commandRegister then chain (w.putU64 tlvRootNodeId v.rootNodeId)
    else
      let w ← if v.command = commandLogin then chain (w.put tlvResponseToken (some v.token.val) 32)
        else .ok w
      let w ← chain (w.putU64 tlvIssuedAtMs v.issuedAtMs)
      chain (w.putU64 tlvExpiresAtMs v.expiresAtMs)
  else .ok w

/-- The header that the encoder puts together; `used` is what the writer has written. -/
def authResponseHeader (used : Nat) : Header :=
  nodeHeader v.command flagResponse v.status used v.sequence v.sessionHandle

/-- `local`, before anything is written to it. -/
def authResponseLocal : Bytes := List.replicate 104 0

/-- `vireo_auth_response_encode`: the bytes that are copied to the output. -/
def authResponseEncode (capacity : Nat) : Except Result Bytes :=
  if authResponseValid v = false then .error .invalidArgument
  else if capacity < authResponseLength v then .error .range
  else do
    let w ← init (some (slice authResponseLocal 32 72)) 72
    let w ← putAuthResponse v w
    let frame := overwrite authResponseLocal 32 (w.data.getD [])
    let h := authResponseHeader v w.used
    match responseHeaderValidate h with
    | .error e => .error e.1
    | .ok _ =>
      let encoded ← headerEncode h 32
      let frame := overwrite frame 0 encoded
      let crc ← frameCrc32cCalculate (frame.take 32) (slice frame 32 w.used)
      let encoded ← headerEncode { h with crc32c := crc } 32
      .ok ((overwrite frame 0 encoded).take (authResponseLength v))

/-! ## 3. The decoder -/

/-- What the decoder refuses of a header. The size of the frame is not below 32 where it is compared. -/
abbrev AuthResponseRefused (h : Header) (size : Nat) : Prop :=
  h.flags ≠ flagResponse ∨ h.taskHandle ≠ 0 ∨ size ≠ 32 + h.bodyLen.toNat ∨
    (h.command ≠ commandRegister ∧ h.command ≠ commandLogin ∧ h.command ≠ commandLogout ∧
      h.command ≠ commandSessionResume)

/-- One turn of the loop over the fields: the value, and the mask of the fields that were seen. -/
def authResponseField (s : AuthResponse × UInt32) (f : TlvView) : Except Result (AuthResponse × UInt32) :=
  let bit := (1 : UInt32) <<< f.type.toUInt32
  if f.type = 0 ∨ f.type > 5 then .error .protocol
  else if s.2 &&& bit ≠ 0 then .error .protocol
  else if f.type = tlvResponseToken then
    if f.length ≠ 32 then .error .protocol
    else .ok ({ s.1 with token := s.1.token.copy ((f.value.getD []).take 32) }, s.2 ||| bit)
  else if f.length ≠ 8 then .error .protocol
  else
    let number := get64 (f.value.getD [])
    if f.type = tlvUserId then .ok ({ s.1 with userId := number }, s.2 ||| bit)
    else if f.type = tlvRootNodeId then .ok ({ s.1 with rootNodeId := number }, s.2 ||| bit)
    else if f.type = tlvIssuedAtMs then .ok ({ s.1 with issuedAtMs := number }, s.2 ||| bit)
    else .ok ({ s.1 with expiresAtMs := number }, s.2 ||| bit)

/-- The mask of the fields that a command asks for. -/
def authResponseSeen (command : UInt16) : UInt32 :=
  if command = commandRegister then 6 else if command = commandLogin then 58 else 50

/-- `vireo_auth_response_decode` behind the envelope, up to the last check. -/
def authResponseRead (h : Header) (body : Bytes) : Option AuthResponse :=
  let v : AuthResponse := ⟨h.command, h.status, h.sequence, h.sessionHandle, 0, 0, 0, 0, .fill 32 0⟩
  if h.status ≠ 0 ∨ h.command = commandLogout then
    if h.bodyLen ≠ 0 then none else some v
  else
    match TlvReader.init (some body) body.length with
    | .error _ => none
    | .ok reader =>
      match TlvReader.foldFields authResponseField (body.length + 1) reader (v, 0) with
      | .error _ => none
      | .ok (v, seen) => if seen ≠ authResponseSeen h.command then none else some v

/-- `vireo_auth_response_decode`: the result, and the output. -/
def authResponseDecode (wire : Bytes) (out : AuthResponse) : Result × AuthResponse :=
  if wire.length < 32 ∨ wire.length > 104 then (.protocol, out)
  else
    match frameEnvelope () () () responseHeaderValidate AuthResponseRefused wire with
    | .error _ => (.protocol, out)
    | .ok h =>
      match authResponseRead h ((wire.drop 32).take h.bodyLen.toNat) with
      | none => (.protocol, out)
      | some v => if authResponseValid v = false then (.protocol, out) else (.ok, v)

/-! ## 4. The valid values -/

/-- The values that are valid: session and token are where the command gives them, nothing where the status is
    an error. -/
inductive AuthShape : AuthResponse → Prop
  | bare (command status : UInt16) (sequence : UInt32)
      (known : command = commandRegister ∨ command = commandLogin ∨ command = commandSessionResume ∨
        command = commandLogout)
      (none : status ≠ 0 ∨ command = commandLogout) :
      AuthShape ⟨command, status, sequence, 0, 0, 0, 0, 0, .fill 32 0⟩
  | registered (sequence : UInt32) (user root : UInt64) (user_ne : user ≠ 0) (root_ne : root ≠ 0) :
      AuthShape ⟨commandRegister, 0, sequence, 0, user, root, 0, 0, .fill 32 0⟩
  | loggedIn (sequence session : UInt32) (user issued expires : UInt64) (token : Cells UInt8 32)
      (user_ne : user ≠ 0) (session_ne : session ≠ 0) (time : issued < expires) :
      AuthShape ⟨commandLogin, 0, sequence, session, user, 0, issued, expires, token⟩
  | resumed (sequence session : UInt32) (user issued expires : UInt64)
      (user_ne : user ≠ 0) (session_ne : session ≠ 0) (time : issued < expires) :
      AuthShape ⟨commandSessionResume, 0, sequence, session, user, 0, issued, expires, .fill 32 0⟩

/-- **The check takes the values of these shapes** with a sequence number and a status of the registry. -/
theorem authResponseValid_iff (v : AuthResponse) :
    authResponseValid v = true ↔ AuthShape v ∧ v.sequence ≠ 0 ∧ statusIsKnown v.status = true := by
  constructor
  · intro h
    obtain ⟨command, status, sequence, session, user, root, issued, expires, token⟩ := v
    unfold authResponseValid at h
    split at h
    · cases h
    rename_i hfront
    simp only [not_or, not_and, Bool.not_eq_false] at hfront
    obtain ⟨hcommand, hsequence, hstatus⟩ := hfront
    refine ⟨?_, hsequence, hstatus⟩
    have hknown : command = commandRegister ∨ command = commandLogin ∨ command = commandSessionResume ∨
        command = commandLogout := by
      by_contra hno
      simp only [not_or] at hno
      exact hcommand hno.1 hno.2.1 hno.2.2.1 hno.2.2.2
    split at h
    · rename_i hnone
      simp only [Bool.and_eq_true, decide_eq_true_eq, zeroBytes_iff] at h
      obtain ⟨⟨⟨⟨⟨rfl, rfl⟩, rfl⟩, rfl⟩, rfl⟩, rfl⟩ := h
      exact .bare command status sequence hknown hnone
    · rename_i hok
      simp only [not_or, not_not] at hok
      obtain ⟨rfl, hlogout⟩ := hok
      split at h
      · cases h
      rename_i huser
      split at h
      · rename_i hregister
        simp only [Bool.and_eq_true, decide_eq_true_eq, zeroBytes_iff] at h
        obtain ⟨⟨⟨⟨rfl, hroot⟩, rfl⟩, rfl⟩, rfl⟩ := h
        subst hregister
        exact .registered sequence user root huser hroot
      · rename_i hregister
        simp only [Bool.and_eq_true, Bool.or_eq_true, decide_eq_true_eq, zeroBytes_iff] at h
        obtain ⟨⟨⟨hsession, rfl⟩, htime⟩, htoken⟩ := h
        by_cases hlogin : command = commandLogin
        · subst hlogin
          exact .loggedIn sequence session user issued expires token huser hsession htime
        · obtain rfl : command = commandSessionResume :=
            ((hknown.resolve_left hregister).resolve_left hlogin).resolve_right hlogout
          obtain rfl := htoken.resolve_left hlogin
          exact .resumed sequence session user issued expires huser hsession htime
  · intro ⟨hshape, hsequence, hstatus⟩
    have hzero : zeroBytes (Cells.fill 32 (0 : UInt8)).val = true := zeroBytes_iff.mpr rfl
    cases hshape with
    | bare command status sequence known none =>
      unfold authResponseValid
      rw [if_neg (by grind), if_pos none]
      simp [hzero]
    | registered sequence user root user_ne root_ne =>
      have hsequence : sequence ≠ 0 := hsequence
      simp [authResponseValid, hsequence, statusIsKnown, commandRegister, commandLogout, user_ne, root_ne, hzero]
    | loggedIn sequence session user issued expires token user_ne session_ne time =>
      have hsequence : sequence ≠ 0 := hsequence
      simp [authResponseValid, hsequence, statusIsKnown, commandRegister, commandLogin, commandLogout, user_ne,
        session_ne, time]
    | resumed sequence session user issued expires user_ne session_ne time =>
      have hsequence : sequence ≠ 0 := hsequence
      simp [authResponseValid, hsequence, statusIsKnown, commandRegister, commandLogin, commandSessionResume,
        commandLogout, user_ne, session_ne, time, hzero]

/-! ## 5. There -/

/-- The fields of a value, in the order they are written. -/
def authResponseBody (v : AuthResponse) : List TlvField :=
  if v.status = 0 ∧ v.command ≠ commandLogout then
    .ofU64 tlvUserId v.userId ::
      if v.command = commandRegister then [.ofU64 tlvRootNodeId v.rootNodeId]
      else
        (if v.command = commandLogin then
          [⟨tlvResponseToken, v.token.val, by rw [v.token.property]; decide⟩] else []) ++
        [.ofU64 tlvIssuedAtMs v.issuedAtMs, .ofU64 tlvExpiresAtMs v.expiresAtMs]
  else []

theorem putAuthResponse_eq (v : AuthResponse) (w : TlvWriter) :
    putAuthResponse v w = (authResponseBody v).foldlM putField w := by
  unfold putAuthResponse authResponseBody
  split
  · rw [foldlM_cons, putField_u64]
    congr 1
    funext w
    split
    · simp only [foldlM_cons, foldlM_nil, bind_pure, putField_u64]
    split
    · simp only [foldlM_cons, foldlM_nil, cons_append, nil_append, bind_pure, putField_u64,
        putField_bytes _ v.token.property]
    · simp only [foldlM_cons, foldlM_nil, nil_append, bind_pure, putField_u64]
      rfl
  · rfl

variable {v : AuthResponse}

theorem authResponseLength_eq (h : AuthShape v) :
    authResponseLength v = 32 + (tlvCoding.encodeAll (authResponseBody v)).length := by
  have hfield : ∀ f, (tlvCoding.encode f).length = tlvHeaderSize + f.value.length := TlvField.length_encode
  have hu64 : ∀ type value, (TlvField.ofU64 type value).value.length = 8 := fun type value => rfl
  have hlogin : commandLogin ≠ commandRegister ∧ commandLogin ≠ commandLogout ∧
    commandLogin ≠ commandSessionResume := by decide
  have hresume : commandSessionResume ≠ commandRegister ∧ commandSessionResume ≠ commandLogout ∧
    commandSessionResume ≠ commandLogin := by decide
  have hregister : commandRegister ≠ commandLogout := by decide
  cases h with
  | bare command status sequence known none =>
    have hnone : ¬ (status = 0 ∧ command ≠ commandLogout) := by grind
    simp [authResponseLength, authResponseBody, none, hnone]
  | registered sequence user root user_ne root_ne =>
    simp [authResponseLength, authResponseBody, hregister, Coding.encodeAll_cons, hfield, hu64, tlvHeaderSize]
  | loggedIn sequence session user issued expires token user_ne session_ne time =>
    have htoken : token.val.length = 32 := token.property
    simp [authResponseLength, authResponseBody, hlogin, Coding.encodeAll_cons, hfield, hu64, tlvHeaderSize, htoken]
  | resumed sequence session user issued expires user_ne session_ne time =>
    simp [authResponseLength, authResponseBody, hresume, Coding.encodeAll_cons, hfield, hu64, tlvHeaderSize]

theorem authResponseLength_le (v : AuthResponse) : authResponseLength v ≤ 104 := by
  unfold authResponseLength
  split <;> (try split) <;> (try split) <;> decide

/-- The frame of a value. -/
def authResponseFrame (v : AuthResponse) : Bytes :=
  let body := tlvCoding.encodeAll (authResponseBody v)
  sealedFrame (authResponseHeader v body.length) body

/-- **The writer writes the fields of a value**, which are as long as the encoder says. -/
theorem putAuthResponse_spec (h : AuthShape v) :
    ∃ w, putAuthResponse v ⟨some (slice authResponseLocal 32 72), 72, 0⟩ = .ok w ∧
      authResponseLength v = 32 + w.used ∧ w.used = (tlvCoding.encodeAll (authResponseBody v)).length ∧
      w.data.getD [] = overwrite (slice authResponseLocal 32 72) 0 (tlvCoding.encodeAll (authResponseBody v)) := by
  have hlen := authResponseLength_eq h
  have hle := authResponseLength_le v
  have hsound : (⟨some (slice authResponseLocal 32 72), 72, 0⟩ : TlvWriter).Sound :=
    ⟨Nat.zero_le _, rfl, by decide⟩
  obtain ⟨w, hput, hwrote⟩ := putFields_spec hsound (authResponseBody v) (by
    show 0 + _ ≤ 72
    omega)
  have hused : w.used = (tlvCoding.encodeAll (authResponseBody v)).length := by
    simpa using hwrote.used
  exact ⟨w, (putAuthResponse_eq v _).trans hput, by omega, hused, hwrote.data⟩

theorem known_of_shape (h : AuthShape v) :
    v.command = commandRegister ∨ v.command = commandLogin ∨ v.command = commandSessionResume ∨
      v.command = commandLogout := by
  cases h with
  | bare command status sequence known none => exact known
  | registered => exact .inl rfl
  | loggedIn => exact .inr (.inl rfl)
  | resumed => exact .inr (.inr (.inl rfl))

theorem validate_authResponseHeader (h : authResponseValid v = true) {n : Nat}
    (hn : n ≤ maxBodySize) : responseHeaderValidate (authResponseHeader v n) = .ok () := by
  obtain ⟨hshape, hsequence, hstatus⟩ := (authResponseValid_iff v).mp h
  have hlen := length_nodeHeader v.command flagResponse v.status v.sequence v.sessionHandle hn
  have hknown : commandIsKnown v.command = true ∧ commandIsReserved v.command = false := by
    rcases known_of_shape hshape with hc | hc | hc | hc <;> rw [hc] <;> decide
  exact (responseHeaderValidate_iff hknown.1 hknown.2 rfl (hlen.trans_le hn)).mpr ⟨hsequence, hstatus⟩

/-- **The encoder makes the frame of a valid value**, when there is room for it. -/
theorem authResponseEncode_eq (h : authResponseValid v = true) (capacity : Nat) :
    authResponseEncode v capacity =
      if capacity < authResponseLength v then .error .range else .ok (authResponseFrame v) := by
  have hshape := ((authResponseValid_iff v).mp h).1
  obtain ⟨w, hput, hlength, hused, hdata⟩ := putAuthResponse_spec hshape
  have hle := authResponseLength_le v
  unfold authResponseFrame
  generalize tlvCoding.encodeAll (authResponseBody v) = body at hused hdata ⊢
  have hbody : body.length ≤ 72 := by omega
  have hmax : body.length ≤ maxBodySize := hbody.trans (by decide)
  have hregion : (slice authResponseLocal 32 72).length = 72 := rfl
  have hslice : slice (overwrite authResponseLocal 32 (w.data.getD [])) 32 body.length = body := by
    have hover : (w.data.getD []).length = 72 := by
      rw [hdata]
      exact length_overwrite (by rw [hregion]; omega)
    have hlocal : 32 ≤ authResponseLocal.length := by decide
    have hall := @slice_overwrite UInt8 authResponseLocal (w.data.getD []) 32 hlocal
    rw [hover] at hall
    have hfront : slice (overwrite authResponseLocal 32 (w.data.getD [])) 32 body.length =
        (slice (overwrite authResponseLocal 32 (w.data.getD [])) 32 72).take body.length := by
      unfold slice
      rw [take_take, Nat.min_eq_left hbody]
    rw [hfront, hall, hdata, overwrite, List.take_zero, nil_append, take_left]
  have hheader : (authResponseHeader v body.length).bodyLen.toNat = body.length :=
    length_nodeHeader _ _ _ _ _ hmax
  have hpublish := publish_eq hheader hmax hslice
  unfold authResponseEncode
  rw [h, if_neg (by decide)]
  split
  · rfl
  have hinit : init (some (slice authResponseLocal 32 72)) 72 =
      .ok ⟨some (slice authResponseLocal 32 72), 72, 0⟩ := rfl
  rw [hinit, ok_bind, hput, ok_bind]
  dsimp only
  rw [hlength, hused, validate_authResponseHeader h hmax]
  unfold publish at hpublish
  rw [Nat.add_sub_cancel_left] at hpublish
  exact hpublish

theorem length_authResponseFrame (h : AuthShape v) :
    (authResponseFrame v).length = authResponseLength v := by
  rw [authResponseFrame, length_sealedFrame, authResponseLength_eq h, headerSize]

/-! ## 6. And back -/

theorem checks_authResponse : Checks responseHeaderValidate AuthResponseRefused :=
  ⟨fun _ _ => rfl, fun _ _ _ => .rfl, fun _ _ hgood => by
    simp only [AuthResponseRefused, not_or, ne_eq, not_not] at hgood
    exact hgood.2.2.1⟩

theorem get64_writeU64Be (value : UInt64) : get64 (writeU64Be value) = value := by
  have hbytes : writeU64Be value = beBytes 8 value := by
    simp [writeU64Be, beBytes, range_succ]
  have hlt : value.toNat < 256 ^ 8 := value.toNat_lt
  rw [get64, hbytes, take_of_length_le (length_beBytes 8 value).le, beWord_beBytes (Nat.le_refl 8) hlt]

section Field

variable (v : AuthResponse) (seen : UInt32)

theorem authResponseField_number {type : UInt16} (htype : type = 1 ∨ type = 2 ∨ type = 4 ∨ type = 5)
    (hnew : seen &&& (1 : UInt32) <<< type.toUInt32 = 0) (value : UInt64) :
    authResponseField (v, seen) (TlvField.ofU64 type value).view =
      .ok (if type = tlvUserId then { v with userId := value }
        else if type = tlvRootNodeId then { v with rootNodeId := value }
        else if type = tlvIssuedAtMs then { v with issuedAtMs := value }
        else { v with expiresAtMs := value }, seen ||| (1 : UInt32) <<< type.toUInt32) := by
  have hview : (TlvField.ofU64 type value).view = ⟨type, some (writeU64Be value), 8⟩ := rfl
  have hbounds : ¬ (type = 0 ∨ type > 5) ∧ type ≠ tlvResponseToken := by
    rcases htype with rfl | rfl | rfl | rfl <;> decide
  unfold authResponseField
  rw [hview]
  dsimp only
  rw [if_neg hbounds.1, if_neg (not_not.mpr hnew), if_neg hbounds.2, if_neg (by decide), Option.getD_some,
    get64_writeU64Be]
  split
  · rfl
  split
  · rfl
  · split <;> rfl

theorem authResponseField_token (hnew : seen &&& 8 = 0) (token : Cells UInt8 32)
    (hle : token.val.length ≤ tlvMaxValueSize) :
    authResponseField (v, seen) (⟨tlvResponseToken, token.val, hle⟩ : TlvField).view =
      .ok ({ v with token := token }, seen ||| 8) := by
  have hview : (⟨tlvResponseToken, token.val, hle⟩ : TlvField).view =
      ⟨tlvResponseToken, some token.val, token.val.length⟩ := rfl
  have hbit : (1 : UInt32) <<< tlvResponseToken.toUInt32 = 8 := by decide
  have hall : token.val.take 32 = token.val := take_of_length_le token.property.le
  unfold authResponseField
  rw [hview]
  dsimp only
  rw [hbit, if_neg (by decide), if_neg (not_not.mpr hnew), if_pos rfl, if_neg (not_not.mpr token.property),
    Option.getD_some, hall, Cells.copy_full]

end Field

theorem authResponseRead_body (h : AuthShape v) {header : Header}
    (hheader : header = (authResponseHeader v (tlvCoding.encodeAll (authResponseBody v)).length).sealedWith
      (tlvCoding.encodeAll (authResponseBody v))) :
    authResponseRead header (tlvCoding.encodeAll (authResponseBody v)) = some v := by
  have hcommand : header.command = v.command := by rw [hheader]; rfl
  have hstatus : header.status = v.status := by rw [hheader]; rfl
  have hsequence : header.sequence = v.sequence := by rw [hheader]; rfl
  have hsession : header.sessionHandle = v.sessionHandle := by rw [hheader]; rfl
  have hlen : header.bodyLen = UInt32.ofNat (tlvCoding.encodeAll (authResponseBody v)).length := by rw [hheader]; rfl
  have hfold : ∀ s, TlvReader.foldFields authResponseField ((tlvCoding.encodeAll (authResponseBody v)).length + 1)
      (.over (tlvCoding.encodeAll (authResponseBody v))) s =
        (authResponseBody v).foldlM (fun s f => authResponseField s f.view) s := fun s =>
    foldFields_eq authResponseField (TlvReader.sound_over _) rfl (Nat.lt_succ_self _) s
  unfold authResponseRead
  rw [hcommand, hstatus, hsequence, hsession, hlen, TlvReader.init_over]
  dsimp only
  rw [hfold]
  clear hfold hlen hheader
  cases h with
  | bare command status sequence known none =>
    have hnone : ¬ (status = 0 ∧ command ≠ commandLogout) := by grind
    simp [authResponseBody, none, hnone]
  | registered sequence user root user_ne root_ne =>
    have hbody : authResponseBody ⟨commandRegister, 0, sequence, 0, user, root, 0, 0, .fill 32 0⟩ =
        [.ofU64 1 user, .ofU64 2 root] := rfl
    rw [if_neg (by simp [commandRegister, commandLogout]), hbody]
    simp only [foldlM_cons, foldlM_nil]
    rw [authResponseField_number _ _ (by decide) (by decide), ok_bind,
      authResponseField_number _ _ (by decide) (by decide), ok_bind]
    rfl
  | loggedIn sequence session user issued expires token user_ne session_ne time =>
    have hbody : authResponseBody ⟨commandLogin, 0, sequence, session, user, 0, issued, expires, token⟩ =
        [.ofU64 1 user, ⟨tlvResponseToken, token.val, by rw [token.property]; decide⟩, .ofU64 4 issued,
          .ofU64 5 expires] := rfl
    rw [if_neg (by simp [commandLogin, commandLogout]), hbody]
    simp only [foldlM_cons, foldlM_nil]
    rw [authResponseField_number _ _ (by decide) (by decide), ok_bind,
      authResponseField_token _ _ (by decide), ok_bind,
      authResponseField_number _ _ (by decide) (by decide), ok_bind,
      authResponseField_number _ _ (by decide) (by decide), ok_bind]
    rfl
  | resumed sequence session user issued expires user_ne session_ne time =>
    have hbody : authResponseBody ⟨commandSessionResume, 0, sequence, session, user, 0, issued, expires,
        .fill 32 0⟩ = [.ofU64 1 user, .ofU64 4 issued, .ofU64 5 expires] := rfl
    rw [if_neg (by simp [commandSessionResume, commandLogout]), hbody]
    simp only [foldlM_cons, foldlM_nil]
    rw [authResponseField_number _ _ (by decide) (by decide), ok_bind,
      authResponseField_number _ _ (by decide) (by decide), ok_bind,
      authResponseField_number _ _ (by decide) (by decide), ok_bind]
    rfl

theorem authResponseDecode_frame (h : authResponseValid v = true) (out : AuthResponse) :
    authResponseDecode (authResponseFrame v) out = (.ok, v) := by
  have hshape := ((authResponseValid_iff v).mp h).1
  have hlength := length_authResponseFrame hshape
  have hle := authResponseLength_le v
  have hge := authResponseLength_eq hshape
  have hread := @authResponseRead_body v hshape _ rfl
  unfold authResponseFrame at hlength ⊢
  generalize tlvCoding.encodeAll (authResponseBody v) = body at hlength hge hread ⊢
  have hmax : body.length ≤ maxBodySize := Nat.le_trans (by omega : body.length ≤ 72) (by decide)
  have hheader : (authResponseHeader v body.length).bodyLen.toNat = body.length :=
    length_nodeHeader _ _ _ _ _ hmax
  have hpass : ¬ AuthResponseRefused (authResponseHeader v body.length) (headerSize + body.length) := by
    have hcommand := known_of_shape hshape
    simp only [AuthResponseRefused, not_or, ne_eq, not_not, hheader]
    refine ⟨rfl, rfl, rfl, ?_⟩
    show ¬ (¬ v.command = _ ∧ ¬ v.command = _ ∧ ¬ v.command = _ ∧ ¬ v.command = _)
    grind
  have henvelope := frameEnvelope_sealed () () () checks_authResponse (authResponseHeader v body.length) body
  rw [if_neg (by omega), validate_authResponseHeader h hmax] at henvelope
  rw [if_neg hpass] at henvelope
  have hbody : ((sealedFrame (authResponseHeader v body.length) body).drop 32).take
      ((authResponseHeader v body.length).sealedWith body).bodyLen.toNat = body := by
    have hdrop : (sealedFrame (authResponseHeader v body.length) body).drop 32 = body := rfl
    have hsealed : ((authResponseHeader v body.length).sealedWith body).bodyLen.toNat = body.length := hheader
    rw [hdrop, hsealed, take_length]
  unfold authResponseDecode
  rw [if_neg (by omega), henvelope]
  dsimp only
  rw [hbody, hread]
  dsimp only
  rw [h, if_neg (by decide)]

/-- **A frame is decoded as a valid value, or not at all.** -/
theorem authResponseDecode_cases (wire : Bytes) (out : AuthResponse) :
    (authResponseDecode wire out).1 = .ok ∧ authResponseValid (authResponseDecode wire out).2 = true ∨
      (authResponseDecode wire out).1 = .protocol ∧ (authResponseDecode wire out).2 = out := by
  unfold authResponseDecode
  split
  · exact .inr ⟨rfl, rfl⟩
  split
  · exact .inr ⟨rfl, rfl⟩
  split
  · exact .inr ⟨rfl, rfl⟩
  split
  · exact .inr ⟨rfl, rfl⟩
  · rename_i hvalid
    exact .inl ⟨rfl, (Bool.not_eq_false _).mp hvalid⟩

/-! ## 7. The codec -/

/-- What a valid value does not carry: an error and a LOGOUT no identity, REGISTER no session, RESUME no
    token. -/
structure CarriesNoMore (v : AuthResponse) : Prop where
  none : v.status ≠ 0 ∨ v.command = commandLogout → v.userId = 0 ∧ v.rootNodeId = 0 ∧ v.sessionHandle = 0 ∧
    v.issuedAtMs = 0 ∧ v.expiresAtMs = 0 ∧ v.token = .fill 32 0
  register : v.command = commandRegister → v.sessionHandle = 0 ∧ v.token = .fill 32 0
  resume : v.command = commandSessionResume → v.token = .fill 32 0

theorem AuthShape.carriesNoMore (h : AuthShape v) : CarriesNoMore v := by
  have hlogout : commandRegister ≠ commandLogout ∧ commandLogin ≠ commandLogout ∧
    commandSessionResume ≠ commandLogout ∧ commandLogin ≠ commandRegister ∧
    commandSessionResume ≠ commandRegister ∧ commandLogin ≠ commandSessionResume := by decide
  cases h with
  | bare => exact ⟨fun _ => ⟨rfl, rfl, rfl, rfl, rfl, rfl⟩, fun _ => ⟨rfl, rfl⟩, fun _ => rfl⟩
  | registered => exact ⟨by simp [hlogout], fun _ => ⟨rfl, rfl⟩, fun _ => rfl⟩
  | loggedIn => exact ⟨by simp [hlogout], by simp [hlogout], by simp [hlogout]⟩
  | resumed => exact ⟨by simp [hlogout], by simp [hlogout], fun _ => rfl⟩

/-- **The codec of the response.** A valid value is encoded exactly when there is room, and decoded as itself; a
    frame is decoded as a valid value, or the output is left alone. -/
theorem auth_response_codec :
    (∀ v, authResponseValid v = true →
      (∀ capacity, (∃ wire, authResponseEncode v capacity = .ok wire) ↔ authResponseLength v ≤ capacity) ∧
      (∀ capacity wire, authResponseEncode v capacity = .ok wire →
        wire.length = authResponseLength v ∧ ∀ out, authResponseDecode wire out = (.ok, v)) ∧
      ∃ w, (TlvWriter.init (some (slice authResponseLocal 32 72)) 72 >>= putAuthResponse v) = .ok w ∧
        authResponseLength v = 32 + w.used) ∧
    (∀ wire out,
      (authResponseDecode wire out).1 = .ok ∧ authResponseValid (authResponseDecode wire out).2 = true ∨
        (authResponseDecode wire out).1 = .protocol ∧ (authResponseDecode wire out).2 = out) ∧
    ∀ v, authResponseValid v = true → CarriesNoMore v := by
  refine ⟨fun v hv => ⟨fun capacity => ?_, fun capacity wire hwire => ?_, ?_⟩, authResponseDecode_cases, ?_⟩
  · rw [authResponseEncode_eq hv]
    constructor
    · intro ⟨wire, hwire⟩
      split at hwire
      · cases hwire
      · omega
    · intro hroom
      exact ⟨authResponseFrame v, if_neg (by omega)⟩
  · rw [authResponseEncode_eq hv] at hwire
    split at hwire
    · cases hwire
    · cases hwire
      exact ⟨length_authResponseFrame ((authResponseValid_iff v).mp hv).1, authResponseDecode_frame hv⟩
  · obtain ⟨w, hput, hlength, -⟩ := putAuthResponse_spec ((authResponseValid_iff v).mp hv).1
    exact ⟨w, hput, hlength⟩
  · exact fun v hv => ((authResponseValid_iff v).mp hv).1.carriesNoMore

/-- A login that is answered with a session: 104 bytes, decoded as what they were made of. -/
theorem auth_response_codec_login :
    ∃ wire, authResponseEncode ⟨commandLogin, 0, 7, 3, 41, 0, 1000, 2000, .fill 32 9⟩ 104 = .ok wire ∧
      ∀ out, authResponseDecode wire out = (.ok, ⟨commandLogin, 0, 7, 3, 41, 0, 1000, 2000, .fill 32 9⟩) := by
  have hcodec := auth_response_codec.1 ⟨commandLogin, 0, 7, 3, 41, 0, 1000, 2000, .fill 32 9⟩ (by decide)
  obtain ⟨wire, hwire⟩ := (hcodec.1 104).mpr (by decide)
  exact ⟨wire, hwire, (hcodec.2.1 104 wire hwire).2⟩

end Vireo.Protocol
