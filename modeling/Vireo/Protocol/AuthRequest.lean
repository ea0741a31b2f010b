/-
  File:      Vireo/Protocol/AuthRequest.lean
  Subject:   THE REQUEST OF AN AUTHENTICATION (`src/protocol/auth_request.c`): its decoder.

  Null pointers do not exist here. A span of the view is the list of the bytes behind its pointer.
-/
import Vireo.Protocol.Frame

namespace Vireo.Protocol

/-! ## 1. Values -/

/-- `VIREO_COMMAND_REGISTER`. -/
def commandRegister : UInt16 := 0x0100
/-- `VIREO_COMMAND_LOGIN`. -/
def commandLogin : UInt16 := 0x0101
/-- `VIREO_COMMAND_LOGOUT`. -/
def commandLogout : UInt16 := 0x0102
/-- `VIREO_COMMAND_SESSION_RESUME`. -/
def commandSessionResume : UInt16 := 0x0103

/-- `VIREO_AUTH_TLV_USERNAME`. -/
def tlvUsername : UInt16 := 0x0001
/-- `VIREO_AUTH_TLV_PASSWORD`. -/
def tlvPassword : UInt16 := 0x0002
/-- `VIREO_AUTH_TLV_DEVICE`. -/
def tlvDevice : UInt16 := 0x0003
/-- `VIREO_AUTH_TLV_SESSION_TOKEN`. -/
def tlvSessionToken : UInt16 := 0x0004

/-- `VIREO_AUTH_REGISTER_BODY_MAX`. -/
def authRegisterBodyMax : Nat := 104
/-- `VIREO_AUTH_LOGIN_BODY_MAX`. -/
def authLoginBodyMax : Nat := 124
/-- `VIREO_AUTH_RESUME_BODY_MAX`. -/
def authResumeBodyMax : Nat := 36

/-- `rules`: a login uses all of them, a registration the first two. -/
def authRules : List TlvRule :=
  [⟨tlvUsername, 3, 32, .bytes, true, false⟩, ⟨tlvPassword, 8, 64, .bytes, true, false⟩,
    ⟨tlvDevice, 16, 16, .bytes, true, false⟩]

/-- `token_rule`. -/
def authTokenRule : TlvRule := ⟨tlvSessionToken, 32, 32, .bytes, true, false⟩

/-- `vireo_auth_request_issue_t`. -/
inductive AuthRequestIssue where
  | none
  | header
  | envelope
  | crc
  | fields
  | username
  | password
deriving DecidableEq, Inhabited

/-- `vireo_auth_request_view_t`. -/
structure AuthRequestView where
  command : UInt16
  sequence : UInt32
  username : Option Bytes
  usernameSize : Nat
  password : Option Bytes
  passwordSize : Nat
  device : Option Bytes
  sessionHandle : UInt32
  token : Option Bytes
deriving DecidableEq, Inhabited

/-! ## 2. The decoder -/

/-- The check of a character of the user name. -/
def usernameByte (c : UInt8) : Bool :=
  (c ≥ 0x41 && c ≤ 0x5A) || (c ≥ 0x61 && c ≤ 0x7A) || (c ≥ 0x30 && c ≤ 0x39) || c = 0x5F

/-- The check of a character of the password. -/
def passwordByte (c : UInt8) : Bool := !(c < 0x21 || c > 0x7E)

/-- The size of the largest body of a command. -/
def authBodyMax (command : UInt16) : Nat :=
  if command = commandLogin then authLoginBodyMax
  else if command = commandSessionResume then authResumeBodyMax
  else if command = commandLogout then 0
  else authRegisterBodyMax

/-- The check of the envelope: what is refused. -/
abbrev AuthEnvelopeRefused (header : Header) (wireSize : Nat) : Prop :=
  (header.command ≠ commandLogin ∧ header.command ≠ commandSessionResume ∧
      header.command ≠ commandLogout ∧ header.command ≠ commandRegister) ∨ header.flags ≠ 0 ∨
    (if header.command = commandLogout then header.sessionHandle = 0 else header.sessionHandle ≠ 0) ∨
    header.taskHandle ≠ 0 ∨ header.bodyLen.toNat > authBodyMax header.command ∨
    wireSize ≠ headerSize + header.bodyLen.toNat

/-- `vireo_auth_request_decode` up to the checksum: the header, or the issue. -/
def authRequestEnvelope (wire : Bytes) : Except AuthRequestIssue Header :=
  frameEnvelope .header .envelope .crc requestHeaderValidate AuthEnvelopeRefused wire

/-- The call of the schema for a command; `seen` has the bytes it happens to have. -/
def authSchema (command : UInt16) (body : Bytes) : SchemaReport :=
  let resume := command = commandSessionResume
  schemaValidate (some body) body.length (some (if resume then [authTokenRule] else authRules))
    (if resume then 1 else if command = commandLogin then 3 else 2) .reject (some [0, 0, 0]) 3

/-- The body of the field loop. -/
def authRequestField (next : AuthRequestView) (field : TlvView) : AuthRequestView :=
  if field.type = tlvUsername then { next with username := field.value, usernameSize := field.length }
  else if field.type = tlvPassword then { next with password := field.value, passwordSize := field.length }
  else if field.type = tlvSessionToken then { next with token := field.value }
  else { next with device := field.value }

/-- `vireo_auth_request_decode` from the schema on: the view, or the issue. -/
def authRequestFields (header : Header) (body : Bytes) : Except AuthRequestIssue AuthRequestView :=
  if header.command ≠ commandLogout ∧ (authSchema header.command body).result ≠ .ok then .error .fields
  else
    let next : AuthRequestView :=
      ⟨header.command, header.sequence, none, 0, none, 0, none, header.sessionHandle, none⟩
    match TlvReader.init (some body) body.length with
    | .error _ => .error .fields
    | .ok reader =>
      match TlvReader.foldFields (fun next field => .ok (authRequestField next field)) (body.length + 1)
          reader next with
      | .error _ => .error .fields
      | .ok next =>
        if ((next.username.getD []).take next.usernameSize).any (!usernameByte ·) then .error .username
        else if ((next.password.getD []).take next.passwordSize).any (!passwordByte ·) then .error .password
        else .ok next

/-- What `vireo_auth_request_decode` returns and leaves in its outputs. -/
structure AuthRequestDecoded where
  result : Result
  out : AuthRequestView
  issue : AuthRequestIssue

/-- `vireo_auth_request_decode`. -/
def authRequestDecode (wire : Bytes) (out : AuthRequestView) : AuthRequestDecoded :=
  match authRequestEnvelope wire with
  | .error issue => ⟨.protocol, out, issue⟩
  | .ok header =>
    match authRequestFields header ((wire.drop headerSize).take header.bodyLen.toNat) with
    | .error issue => ⟨.protocol, out, issue⟩
    | .ok next => ⟨.ok, next, .none⟩

end Vireo.Protocol
