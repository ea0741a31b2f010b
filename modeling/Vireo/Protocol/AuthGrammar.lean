/-
  File:      Vireo/Protocol/AuthGrammar.lean
  Subject:   THE GRAMMAR OF AN AUTHENTICATION, and that the decoder accepts exactly that.
-/
import Vireo.Protocol.AuthRequest

namespace Vireo.Protocol

open Lib List

/-! ## 1. Messages -/

/-- A user name: 3 to 32 letters, digits and underscores. -/
structure IsUsername (v : Bytes) : Prop where
  length_ge : 3 ≤ v.length
  length_le : v.length ≤ 32
  chars : ∀ c ∈ v, ('A'.toNat ≤ c.toNat ∧ c.toNat ≤ 'Z'.toNat) ∨ ('a'.toNat ≤ c.toNat ∧ c.toNat ≤ 'z'.toNat) ∨
    ('0'.toNat ≤ c.toNat ∧ c.toNat ≤ '9'.toNat) ∨ c.toNat = '_'.toNat

/-- A password: 8 to 64 printable characters that are no spaces. -/
structure IsPassword (v : Bytes) : Prop where
  length_ge : 8 ≤ v.length
  length_le : v.length ≤ 64
  chars : ∀ c ∈ v, '!'.toNat ≤ c.toNat ∧ c.toNat ≤ '~'.toNat

/-- What a request asks for. -/
inductive AuthMessage where
  | register (username password : Bytes)
  | login (username password device : Bytes)
  | resume (token : Bytes)
  | logout (session : UInt32)
deriving DecidableEq

namespace AuthMessage

def command : AuthMessage → UInt16
  | register .. => commandRegister
  | login .. => commandLogin
  | resume .. => commandSessionResume
  | logout .. => commandLogout

/-- The session that the header names. -/
def session : AuthMessage → UInt32
  | logout session => session
  | _ => 0

/-- The fields of a message: one each. -/
def values : AuthMessage → List (UInt16 × Bytes)
  | register username password => [(tlvUsername, username), (tlvPassword, password)]
  | login username password device =>
    [(tlvUsername, username), (tlvPassword, password), (tlvDevice, device)]
  | resume token => [(tlvSessionToken, token)]
  | logout _ => []

def Valid : AuthMessage → Prop
  | register username password => IsUsername username ∧ IsPassword password
  | login username password device => IsUsername username ∧ IsPassword password ∧ device.length = 16
  | resume token => token.length = 32
  | logout session => session ≠ 0

/-- The message as it is seen through its frame. -/
def view (sequence : UInt32) : AuthMessage → AuthRequestView
  | register username password =>
    ⟨commandRegister, sequence, some username, username.length, some password, password.length, none, 0, none⟩
  | login username password device =>
    ⟨commandLogin, sequence, some username, username.length, some password, password.length, some device, 0,
      none⟩
  | resume token => ⟨commandSessionResume, sequence, none, 0, none, 0, none, 0, some token⟩
  | logout session => ⟨commandLogout, sequence, none, 0, none, 0, none, session, none⟩

/-- The header of a message: no flags, no status, no task. -/
def header (m : AuthMessage) (sequence : UInt32) (bodySize : Nat) : Header :=
  ⟨m.command, 0, 0, UInt32.ofNat bodySize, sequence, m.session, 0, 0⟩

end AuthMessage

/-- What a field says. -/
def TlvField.said (f : TlvField) : UInt16 × Bytes := (f.type, f.value)

/-- A complete frame of a message: the header with its checksum, and the fields of the message, in any
    order, and nothing else. -/
structure AuthFrame (wire : Bytes) (m : AuthMessage) (sequence : UInt32) : Prop where
  valid : m.Valid
  numbered : sequence ≠ 0
  bytes : ∃ fields : List TlvField, (fields.map TlvField.said).Perm m.values ∧
    wire = sealedFrame (m.header sequence (tlvCoding.encodeAll fields).length) (tlvCoding.encodeAll fields)

/-! ## 2. Characters -/

theorem usernameByte_iff (c : UInt8) : usernameByte c = true ↔
    ('A'.toNat ≤ c.toNat ∧ c.toNat ≤ 'Z'.toNat) ∨ ('a'.toNat ≤ c.toNat ∧ c.toNat ≤ 'z'.toNat) ∨
      ('0'.toNat ≤ c.toNat ∧ c.toNat ≤ '9'.toNat) ∨ c.toNat = '_'.toNat := by
  have heq : c = 0x5F ↔ c.toNat = 95 := UInt8.toNat_inj.symm
  unfold usernameByte
  simp only [Bool.or_eq_true, Bool.and_eq_true, decide_eq_true_eq, ge_iff_le, UInt8.le_iff_toNat_le, heq]
  rw [or_assoc, or_assoc]
  rfl

theorem passwordByte_iff (c : UInt8) :
    passwordByte c = true ↔ '!'.toNat ≤ c.toNat ∧ c.toNat ≤ '~'.toNat := by
  unfold passwordByte
  simp only [Bool.not_eq_true', Bool.or_eq_false_iff, decide_eq_false_iff_not, gt_iff_lt, UInt8.not_lt,
    UInt8.le_iff_toNat_le]
  rfl

theorem any_not_eq_false {check : UInt8 → Bool} {text : Bytes} :
    ¬ (text.any (!check ·) = true) ↔ ∀ c ∈ text, check c = true := by
  simp

/-! ## 3. The envelope -/

theorem checks_authEnvelope : Checks requestHeaderValidate AuthEnvelopeRefused := by
  refine ⟨fun header c => rfl, fun header c n => .rfl, fun header n hgood => ?_⟩
  simp only [AuthEnvelopeRefused, not_or, ne_eq, not_not] at hgood
  exact hgood.2.2.2.2.2

/-! ## 4. The fields -/

/-- The rules of a command. -/
def authRulesOf (command : UInt16) : List TlvRule :=
  if command = commandLogout then []
  else if command = commandSessionResume then [authTokenRule]
  else authRules.take (if command = commandLogin then 3 else 2)

/-- The view before its fields are read. -/
def authStart (header : Header) : AuthRequestView :=
  ⟨header.command, header.sequence, none, 0, none, 0, none, header.sessionHandle, none⟩

/-- The end of the decoder: the characters. -/
def authFinish (next : AuthRequestView) : Except AuthRequestIssue AuthRequestView :=
  if ((next.username.getD []).take next.usernameSize).any (!usernameByte ·) then .error .username
  else if ((next.password.getD []).take next.passwordSize).any (!passwordByte ·) then .error .password
  else .ok next

theorem authRulesOf_rules (command : UInt16) : ValidRules (authRulesOf command) ∧
    (∀ rule ∈ authRulesOf command, rule.repeatable = false) ∧
    ∀ rule ∈ authRulesOf command, rule.required = true := by
  unfold authRulesOf
  split
  · exact ⟨(rulesAreValid_iff (some [])).mp (by decide), by decide, by decide⟩
  split
  · exact ⟨(rulesAreValid_iff (some [authTokenRule])).mp (by decide), by decide, by decide⟩
  split
  · exact ⟨(rulesAreValid_iff (some (authRules.take 3))).mp (by decide), by decide, by decide⟩
  · exact ⟨(rulesAreValid_iff (some (authRules.take 2))).mp (by decide), by decide, by decide⟩

variable {command : UInt16}

theorem authSchema_iff (hcommand : command ≠ commandLogout) (body : Bytes) :
    (authSchema command body).result = .ok ↔ ∃ fields, Accepted (authRulesOf command) .reject body fields := by
  have hvalid := (authRulesOf_rules command).1
  unfold authSchema authRulesOf
  unfold authRulesOf at hvalid
  rw [if_neg hcommand] at hvalid ⊢
  by_cases hresume : command = commandSessionResume
  · rw [if_pos hresume] at hvalid ⊢
    simp only [hresume, if_true]
    exact @schema_prefix_iff [authTokenRule] body [0, 0, 0] 1 hvalid (by decide) (by decide)
  · rw [if_neg hresume] at hvalid ⊢
    simp only [hresume, if_false]
    by_cases hlogin : command = commandLogin
    · simp only [hlogin, if_true] at hvalid ⊢
      exact @schema_prefix_iff authRules body [0, 0, 0] 3 hvalid (by decide) (by decide)
    · simp only [hlogin, if_false] at hvalid ⊢
      exact @schema_prefix_iff authRules body [0, 0, 0] 2 hvalid (by decide) (by decide)

variable {body : Bytes} {fields : List TlvField}

theorem accepted_logout :
    Accepted (authRulesOf commandLogout) .reject body fields ↔ body = [] ∧ fields = [] := by
  constructor
  · intro h
    have hnil : fields = [] := by
      refine eq_nil_iff_forall_not_mem.mpr fun f hf => ?_
      obtain ⟨rule, hrule, -⟩ := h.known.resolve_left (by decide) f hf
      cases hrule
    exact ⟨by rw [h.all, hnil]; rfl, hnil⟩
  · intro ⟨hbody, hfields⟩
    rw [hbody, hfields]
    refine ⟨rfl, fun f hf => absurd hf not_mem_nil, fun rule hrule => ?_, fun rule hrule => ?_,
      .inr fun f hf => absurd hf not_mem_nil⟩
    · cases hrule
    · cases hrule

section Fields

variable {header : Header} {body : Bytes} {fields : List TlvField}

theorem foldlM_authRequestField (fields : List TlvField) (s : AuthRequestView) :
    fields.foldlM (fun s f => (.ok (authRequestField s f.view) : Except Result _)) s =
      .ok (fields.foldl (fun s f => authRequestField s f.view) s) := by
  induction fields generalizing s with
  | nil => rfl
  | cons f fields ih =>
    rw [foldlM_cons, foldl_cons]
    exact ih _

/-- **The fields that the schema accepts are all read**, and the characters are looked at last. -/
theorem authRequestFields_accepted (h : Accepted (authRulesOf header.command) .reject body fields) :
    authRequestFields header body =
      authFinish (fields.foldl (fun s f => authRequestField s f.view) (authStart header)) := by
  have hschema : ¬ (header.command ≠ commandLogout ∧ (authSchema header.command body).result ≠ .ok) :=
    fun ⟨hcommand, hbad⟩ => hbad ((authSchema_iff hcommand body).mpr ⟨fields, h⟩)
  have hfold : TlvReader.foldFields (fun next field => .ok (authRequestField next field)) (body.length + 1)
      (.over body) (authStart header) = _ :=
    foldFields_eq _ (TlvReader.sound_over body) h.all (Nat.lt_succ_self _) (authStart header)
  rw [foldlM_authRequestField] at hfold
  unfold authRequestFields
  rw [if_neg hschema, TlvReader.init_over]
  dsimp only
  split
  · rename_i heq
    cases heq.symm.trans hfold
  · rename_i heq
    cases heq.symm.trans hfold
    rfl

theorem authRequestFields_refused (hlogout : header.command = commandLogout → body = [])
    (h : ∀ fields, ¬ Accepted (authRulesOf header.command) .reject body fields) :
    authRequestFields header body = .error .fields := by
  have hcommand : header.command ≠ commandLogout := by
    intro heq
    refine h [] ?_
    rw [heq]
    exact accepted_logout.mpr ⟨hlogout heq, rfl⟩
  have hschema : (authSchema header.command body).result ≠ .ok := fun hok => by
    obtain ⟨fields, haccepted⟩ := (authSchema_iff hcommand body).mp hok
    exact h fields haccepted
  exact if_pos ⟨hcommand, hschema⟩

theorem foldl_authRequestField_perm {command : UInt16} {fields' : List TlvField} (hperm : fields.Perm fields')
    (h : Accepted (authRulesOf command) .reject body fields) (s : AuthRequestView) :
    fields.foldl (fun s f => authRequestField s f.view) s =
      fields'.foldl (fun s f => authRequestField s f.view) s := by
  obtain ⟨-, hstrict, -⟩ := authRulesOf_rules command
  have htypes : ∀ f ∈ fields, f.type = tlvUsername ∨ f.type = tlvPassword ∨ f.type = tlvDevice ∨
      f.type = tlvSessionToken := by
    intro f hf
    obtain ⟨rule, hrule, htype⟩ := h.known.resolve_left (by decide) f hf
    rw [← htype]
    have hall : ∀ command, ∀ rule ∈ authRulesOf command, rule.type = tlvUsername ∨ rule.type = tlvPassword ∨
        rule.type = tlvDevice ∨ rule.type = tlvSessionToken := by
      intro command
      unfold authRulesOf
      split
      · decide
      split
      · decide
      · split <;> decide
    exact hall _ rule hrule
  have hcomm : ∀ x ∈ fields, ∀ y ∈ fields, x.type ≠ y.type → ∀ s,
      authRequestField (authRequestField s x.view) y.view = authRequestField (authRequestField s y.view) x.view := by
    intro x hx y hy hne s
    have hx' := htypes x hx
    have hy' := htypes y hy
    have hxv : x.view.type = x.type := rfl
    have hyv : y.view.type = y.type := rfl
    unfold authRequestField
    rw [hxv, hyv]
    rcases hx' with h₁ | h₁ | h₁ | h₁ <;> rcases hy' with h₂ | h₂ | h₂ | h₂ <;> rw [h₁, h₂] at hne ⊢ <;>
      first | rfl | exact absurd rfl hne
  have hfold : fields.foldlM (fun s f => (.ok (authRequestField s f.view) : Except Result _)) s =
      fields'.foldlM (fun s f => .ok (authRequestField s f.view)) s :=
    foldlM_perm hperm (h.nodup hstrict) (fun x hx y hy hne s => congrArg Except.ok (hcomm x hx y hy hne s)) s
  rw [foldlM_authRequestField, foldlM_authRequestField] at hfold
  exact Except.ok.inj hfold

end Fields

/-! ## 5. The fields of a message -/

/-- The sizes of the values of a message. -/
def AuthMessage.Sized : AuthMessage → Prop
  | register username password =>
    (3 ≤ username.length ∧ username.length ≤ 32) ∧ 8 ≤ password.length ∧ password.length ≤ 64
  | login username password device =>
    (3 ≤ username.length ∧ username.length ≤ 32) ∧ (8 ≤ password.length ∧ password.length ≤ 64) ∧
      device.length = 16
  | resume token => token.length = 32
  | logout _ => True

variable {f : TlvField}

theorem TlvField.said_eq {type : UInt16} {value : Bytes} :
    f.said = (type, value) ↔ f.type = type ∧ f.value = value := iff_of_eq (Prod.mk.injEq ..)

theorem ruled_of_said {rules : List TlvRule} {type low high : UInt16} {value : Bytes}
    (hrule : ⟨type, low, high, .bytes, true, false⟩ ∈ rules) (hlow : low.toNat ≤ value.length)
    (hhigh : value.length ≤ high.toNat) (hsaid : f.said = (type, value)) :
    ∃ rule ∈ rules, rule.type = f.type ∧ rule.Fits f.value := by
  obtain ⟨htype, hvalue⟩ := TlvField.said_eq.mp hsaid
  exact ⟨_, hrule, htype.symm, hvalue ▸ fits_bytes hlow hhigh⟩

variable {m : AuthMessage} {l : List TlvField}

theorem accepted_of_said (hsized : m.Sized) (hsaid : l.map TlvField.said = m.values) :
    Accepted (authRulesOf m.command) .reject (tlvCoding.encodeAll l) l := by
  have hvalid := (authRulesOf_rules m.command).1
  have htypes : l.map (·.type) = (authRulesOf m.command).map (·.type) := by
    have hvalues : m.values.map Prod.fst = (authRulesOf m.command).map (·.type) := by cases m <;> rfl
    rw [← hvalues, ← hsaid, map_map]
    rfl
  refine accepted_of_types hvalid htypes fun f hf => ?_
  have hmem : f.said ∈ m.values := hsaid ▸ mem_map_of_mem hf
  cases m with
  | register username password =>
    obtain ⟨hname, hword⟩ := hsized
    have hu : (⟨tlvUsername, 3, 32, .bytes, true, false⟩ : TlvRule) ∈ authRulesOf commandRegister := by decide
    have hp : (⟨tlvPassword, 8, 64, .bytes, true, false⟩ : TlvRule) ∈ authRulesOf commandRegister := by decide
    simp only [AuthMessage.values, mem_cons, not_mem_nil, or_false] at hmem
    rcases hmem with heq | heq
    · exact ruled_of_said hu hname.1 hname.2 heq
    · exact ruled_of_said hp hword.1 hword.2 heq
  | login username password device =>
    obtain ⟨hname, hword, hdevice⟩ := hsized
    have hu : (⟨tlvUsername, 3, 32, .bytes, true, false⟩ : TlvRule) ∈ authRulesOf commandLogin := by decide
    have hp : (⟨tlvPassword, 8, 64, .bytes, true, false⟩ : TlvRule) ∈ authRulesOf commandLogin := by decide
    have hd : (⟨tlvDevice, 16, 16, .bytes, true, false⟩ : TlvRule) ∈ authRulesOf commandLogin := by decide
    simp only [AuthMessage.values, mem_cons, not_mem_nil, or_false] at hmem
    obtain heq | heq | heq := hmem
    · exact ruled_of_said hu hname.1 hname.2 heq
    · exact ruled_of_said hp hword.1 hword.2 heq
    · exact ruled_of_said hd hdevice.ge hdevice.le heq
  | resume token =>
    have hsize : token.length = 32 := hsized
    have ht : authTokenRule ∈ authRulesOf commandSessionResume := by decide
    exact ruled_of_said ht hsize.ge hsize.le (mem_singleton.mp hmem)
  | logout session => cases hmem

variable {header : Header}

/-- **Fields that are accepted are those of a message**, in some order. -/
theorem said_of_accepted (hcommand : header.command = commandLogin ∨ header.command = commandSessionResume ∨
      header.command = commandLogout ∨ header.command = commandRegister)
    (hsession : if header.command = commandLogout then header.sessionHandle ≠ 0 else header.sessionHandle = 0)
    (h : Accepted (authRulesOf header.command) .reject body fields) :
    ∃ (m : AuthMessage) (l : List TlvField), m.command = header.command ∧ m.session = header.sessionHandle ∧
      m.Sized ∧ fields.Perm l ∧ l.map TlvField.said = m.values := by
  obtain ⟨hvalid, hstrict, hall⟩ := authRulesOf_rules header.command
  obtain ⟨l, hperm, htypes⟩ := exists_perm_of_map_perm TlvField.type (h.types_perm_all hvalid hstrict hall)
  have hfits : ∀ f ∈ l, ∀ rule ∈ authRulesOf header.command, rule.type = f.type → rule.Fits f.value :=
    fun f hf => h.fits f (hperm.mem_iff.mpr hf)
  obtain hc | hc | hc | hc := hcommand
  · rw [hc] at htypes hfits hsession
    obtain ⟨u, l₁, rfl, hu, htypes⟩ := map_eq_cons_iff.mp htypes
    obtain ⟨p, l₂, rfl, hp, htypes⟩ := map_eq_cons_iff.mp htypes
    obtain ⟨d, l₃, rfl, hd, htypes⟩ := map_eq_cons_iff.mp htypes
    obtain rfl := map_eq_nil_iff.mp htypes
    have hname := (hfits u (by simp) ⟨tlvUsername, 3, 32, .bytes, true, false⟩ (by decide) hu.symm).length
    have hword := (hfits p (by simp) ⟨tlvPassword, 8, 64, .bytes, true, false⟩ (by decide) hp.symm).length
    have hdevice := (hfits d (by simp) ⟨tlvDevice, 16, 16, .bytes, true, false⟩ (by decide) hd.symm).length
    refine ⟨.login u.value p.value d.value, _, hc.symm, hsession.symm, ⟨⟨hname.1, hname.2.1⟩,
      ⟨hword.1, hword.2.1⟩, Nat.le_antisymm hdevice.2.1 hdevice.1⟩, hperm, ?_⟩
    show [(u.type, u.value), (p.type, p.value), (d.type, d.value)] = _
    rw [hu, hp, hd]
    rfl
  · rw [hc] at htypes hfits hsession
    obtain ⟨t, l₁, rfl, ht, htypes⟩ := map_eq_cons_iff.mp htypes
    obtain rfl := map_eq_nil_iff.mp htypes
    have htoken := (hfits t (by simp) authTokenRule (by decide) ht.symm).length
    refine ⟨.resume t.value, _, hc.symm, hsession.symm, Nat.le_antisymm htoken.2.1 htoken.1, hperm, ?_⟩
    show [(t.type, t.value)] = _
    rw [ht]
    rfl
  · rw [hc] at htypes
    obtain rfl := map_eq_nil_iff.mp htypes
    exact ⟨.logout header.sessionHandle, _, hc.symm, rfl, trivial, hperm, rfl⟩
  · rw [hc] at htypes hfits hsession
    obtain ⟨u, l₁, rfl, hu, htypes⟩ := map_eq_cons_iff.mp htypes
    obtain ⟨p, l₂, rfl, hp, htypes⟩ := map_eq_cons_iff.mp htypes
    obtain rfl := map_eq_nil_iff.mp htypes
    have hname := (hfits u (by simp) ⟨tlvUsername, 3, 32, .bytes, true, false⟩ (by decide) hu.symm).length
    have hword := (hfits p (by simp) ⟨tlvPassword, 8, 64, .bytes, true, false⟩ (by decide) hp.symm).length
    refine ⟨.register u.value p.value, _, hc.symm, hsession.symm, ⟨⟨hname.1, hname.2.1⟩,
      hword.1, hword.2.1⟩, hperm, ?_⟩
    show [(u.type, u.value), (p.type, p.value)] = _
    rw [hu, hp]
    rfl

theorem foldl_said (hsaid : l.map TlvField.said = m.values)
    (hcommand : m.command = header.command) (hsession : m.session = header.sessionHandle) :
    l.foldl (fun s f => authRequestField s f.view) (authStart header) = m.view header.sequence := by
  have hmap : l.foldl (fun s f => authRequestField s f.view) (authStart header) =
      (l.map TlvField.said).foldl (fun s p => authRequestField s ⟨p.1, some p.2, p.2.length⟩)
        (authStart header) := by
    rw [foldl_map]
    rfl
  rw [hmap, hsaid]
  unfold authStart
  rw [← hcommand, ← hsession]
  cases m <;> rfl

theorem authFinish_view (hsized : m.Sized) (hsession : m.command = commandLogout → m.session ≠ 0)
    (sequence : UInt32) (next : AuthRequestView) :
    authFinish (m.view sequence) = .ok next ↔ m.Valid ∧ next = m.view sequence := by
  have hfinish : authFinish (m.view sequence) = .ok next ↔
      ((∀ c ∈ ((m.view sequence).username.getD []).take (m.view sequence).usernameSize, usernameByte c = true) ∧
        ∀ c ∈ ((m.view sequence).password.getD []).take (m.view sequence).passwordSize, passwordByte c = true) ∧
      next = m.view sequence := by
    rw [← any_not_eq_false, ← any_not_eq_false]
    unfold authFinish
    split
    · rename_i hbad
      exact ⟨fun h => (by cases h), fun h => absurd hbad h.1.1⟩
    · rename_i hname
      split
      · rename_i hbad
        exact ⟨fun h => (by cases h), fun h => absurd hbad h.1.2⟩
      · rename_i hword
        exact ⟨fun h => ⟨⟨hname, hword⟩, (Except.ok.inj h).symm⟩, fun h => congrArg Except.ok h.2.symm⟩
  have hname : ∀ v : Bytes, 3 ≤ v.length ∧ v.length ≤ 32 →
      (IsUsername v ↔ ∀ c ∈ v.take v.length, usernameByte c = true) := by
    intro v hsize
    simp only [take_length, usernameByte_iff]
    exact ⟨fun h => h.chars, fun h => ⟨hsize.1, hsize.2, h⟩⟩
  have hword : ∀ v : Bytes, 8 ≤ v.length ∧ v.length ≤ 64 →
      (IsPassword v ↔ ∀ c ∈ v.take v.length, passwordByte c = true) := by
    intro v hsize
    simp only [take_length, passwordByte_iff]
    exact ⟨fun h => h.chars, fun h => ⟨hsize.1, hsize.2, h⟩⟩
  rw [hfinish]
  refine and_congr_left fun _ => ?_
  cases m with
  | register username password =>
    exact and_congr (hname username hsized.1).symm (hword password hsized.2).symm
  | login username password device =>
    have hdevice : device.length = 16 := hsized.2.2
    refine (and_congr (hname username hsized.1).symm (hword password hsized.2.1).symm).trans ?_
    exact ⟨fun h => ⟨h.1, h.2, hdevice⟩, fun h => ⟨h.1, h.2.1⟩⟩
  | resume token =>
    have htoken : token.length = 32 := hsized
    exact ⟨fun _ => htoken, fun _ => ⟨fun c hc => absurd hc not_mem_nil, fun c hc => absurd hc not_mem_nil⟩⟩
  | logout session =>
    exact ⟨fun _ => hsession rfl,
      fun _ => ⟨fun c hc => absurd hc not_mem_nil, fun c hc => absurd hc not_mem_nil⟩⟩

theorem AuthMessage.Valid.sized (h : m.Valid) : m.Sized := by
  cases m with
  | register username password => exact ⟨⟨h.1.length_ge, h.1.length_le⟩, h.2.length_ge, h.2.length_le⟩
  | login username password device =>
    exact ⟨⟨h.1.length_ge, h.1.length_le⟩, ⟨h.2.1.length_ge, h.2.1.length_le⟩, h.2.2⟩
  | resume token => exact h
  | logout session => exact trivial

/-! ## 6. The sizes -/

theorem length_encodeAll_said (fields : List TlvField) :
    (tlvCoding.encodeAll fields).length = ((fields.map TlvField.said).map fun p => tlvHeaderSize + p.2.length).sum := by
  induction fields with
  | nil => rfl
  | cons f fields ih =>
    rw [Coding.encodeAll_cons, length_append, ih, map_cons, map_cons, sum_cons]
    exact congrArg (· + _) f.length_encode

theorem length_le_authBodyMax (hsized : m.Sized) (hsaid : (fields.map TlvField.said).Perm m.values) :
    (tlvCoding.encodeAll fields).length ≤ authBodyMax m.command := by
  have hsum := (hsaid.map fun p => tlvHeaderSize + p.2.length).sum_nat
  rw [length_encodeAll_said, hsum]
  cases m with
  | register username password =>
    obtain ⟨hname, hword⟩ := hsized
    show tlvHeaderSize + username.length + (tlvHeaderSize + password.length + 0) ≤ 104
    rw [tlvHeaderSize]
    omega
  | login username password device =>
    obtain ⟨hname, hword, hdevice⟩ := hsized
    show tlvHeaderSize + username.length + (tlvHeaderSize + password.length + (tlvHeaderSize + device.length + 0)) ≤ 124
    rw [tlvHeaderSize]
    omega
  | resume token =>
    have htoken : token.length = 32 := hsized
    show tlvHeaderSize + token.length + 0 ≤ 36
    rw [tlvHeaderSize]
    omega
  | logout session => exact Nat.le_refl 0

/-! ## 7. The decoder -/

theorem known_of_command (h : command = commandLogin ∨ command = commandSessionResume ∨
    command = commandLogout ∨ command = commandRegister) :
    commandIsKnown command = true ∧ commandIsReserved command = false ∧ authBodyMax command ≤ 124 := by
  obtain heq | heq | heq | heq := h <;> rw [heq] <;> decide

theorem AuthMessage.command_cases (m : AuthMessage) : m.command = commandLogin ∨
    m.command = commandSessionResume ∨ m.command = commandLogout ∨ m.command = commandRegister := by
  cases m with
  | register username password => exact .inr (.inr (.inr rfl))
  | login username password device => exact .inl rfl
  | resume token => exact .inr (.inl rfl)
  | logout session => exact .inr (.inr (.inl rfl))

theorem AuthMessage.Valid.session (h : m.Valid) :
    if m.command = commandLogout then m.session ≠ 0 else m.session = 0 := by
  cases m with
  | register username password => exact (if_neg (show commandRegister ≠ commandLogout by decide)).mpr rfl
  | login username password device => exact (if_neg (show commandLogin ≠ commandLogout by decide)).mpr rfl
  | resume token => exact (if_neg (show commandSessionResume ≠ commandLogout by decide)).mpr rfl
  | logout session => exact (if_pos rfl).mpr h

theorem sealedFrame_crc (header : Header) (crc : UInt32) (body : Bytes) :
    sealedFrame { header with crc32c := crc } body = sealedFrame header body := rfl

theorem command_of_not_refused {n : Nat} (h : ¬ AuthEnvelopeRefused header n) :
    (header.command = commandLogin ∨ header.command = commandSessionResume ∨
      header.command = commandLogout ∨ header.command = commandRegister) ∧
    (if header.command = commandLogout then header.sessionHandle ≠ 0 else header.sessionHandle = 0) ∧
    header.flags = 0 ∧ header.taskHandle = 0 ∧ header.bodyLen.toNat ≤ authBodyMax header.command ∧
    n = headerSize + header.bodyLen.toNat := by
  simp only [AuthEnvelopeRefused, not_or, not_and, ne_eq, not_not] at h
  obtain ⟨hcommand, hflags, hsession, htask, hbody, hsize⟩ := h
  refine ⟨?_, ?_, hflags, htask, Nat.not_lt.mp hbody, hsize⟩
  · by_contra hno
    simp only [not_or] at hno
    exact hno.2.2.2 (hcommand hno.1 hno.2.1 hno.2.2.1)
  · split
    · rename_i hlogout
      rwa [if_pos hlogout] at hsession
    · rename_i hlogout
      rw [if_neg hlogout] at hsession
      exact not_not.mp hsession

theorem body_of_logout
    (h : ¬ AuthEnvelopeRefused header (headerSize + body.length)) (hlogout : header.command = commandLogout) :
    body = [] := by
  obtain ⟨-, -, -, -, hbody, hsize⟩ := command_of_not_refused h
  rw [hlogout] at hbody
  have hzero : header.bodyLen.toNat ≤ 0 := hbody
  exact length_eq_zero_iff.mp (by omega)

theorem authFrame_of_ok {wire : Bytes} {next : AuthRequestView}
    (henvelope : authRequestEnvelope wire = .ok header)
    (hfields : authRequestFields header (wire.drop headerSize) = .ok next) :
    ∃ m, AuthFrame wire m header.sequence := by
  obtain ⟨hwire, hsealed, hvalid, hgood, -⟩ := frameEnvelope_ok _ _ _ checks_authEnvelope henvelope
  obtain ⟨hcommand, hsession, hflags, htask, hbody, hsize⟩ := command_of_not_refused hgood
  by_cases haccepted : ∃ fields, Accepted (authRulesOf header.command) .reject (wire.drop headerSize) fields
  · obtain ⟨fields, haccepted⟩ := haccepted
    obtain ⟨m, l, hc, hs, hsized, hperm, hsaid⟩ := said_of_accepted hcommand hsession haccepted
    have hlogout : m.command = commandLogout → m.session ≠ 0 := by
      rw [hc, hs]
      intro heq
      rwa [if_pos heq] at hsession
    rw [authRequestFields_accepted haccepted, foldl_authRequestField_perm hperm haccepted, foldl_said hsaid hc hs,
      authFinish_view hsized hlogout] at hfields
    obtain ⟨hknown, hreserved, hmax⟩ := known_of_command hcommand
    obtain ⟨hsequence, hstatus⟩ := (requestHeaderValidate_iff hknown hreserved hflags
      ((hbody.trans hmax).trans (by decide))).mp hvalid
    refine ⟨m, hfields.1, hsequence, fields, ?_, ?_⟩
    · rw [← hsaid]
      exact hperm.map _
    · have hlen : UInt32.ofNat (wire.drop headerSize).length = header.bodyLen := by
        rw [show (wire.drop headerSize).length = header.bodyLen.toNat by omega, UInt32.ofNat_toNat]
      have hheader : { header with crc32c := 0 } = m.header header.sequence (wire.drop headerSize).length := by
        unfold AuthMessage.header
        rw [hlen, hc, hs, hflags, hstatus, htask]
      rw [← haccepted.all, ← hheader, sealedFrame_crc]
      exact hwire
  · have hnone : ∀ fields, ¬ Accepted (authRulesOf header.command) .reject (wire.drop headerSize) fields :=
      fun fields h => haccepted ⟨fields, h⟩
    rw [authRequestFields_refused (body_of_logout hgood) hnone] at hfields
    cases hfields

/-- **The frame of a message is accepted**, and seen as the message. -/
theorem authRequestDecode_frame {wire : Bytes} {sequence : UInt32}
    (h : AuthFrame wire m sequence) (out : AuthRequestView) :
    authRequestDecode wire out = ⟨.ok, m.view sequence, .none⟩ := by
  obtain ⟨fields, hsaid, hwire⟩ := h.bytes
  have hsized := h.valid.sized
  have hbody := length_le_authBodyMax hsized hsaid
  have hsession := h.valid.session
  obtain ⟨hknown, hreserved, hsmall⟩ := known_of_command m.command_cases
  have hlen : (m.header sequence (tlvCoding.encodeAll fields).length).bodyLen.toNat =
      (tlvCoding.encodeAll fields).length := by
    show (UInt32.ofNat _).toNat = _
    exact UInt32.toNat_ofNat_of_lt' (Nat.lt_of_le_of_lt (hbody.trans hsmall) (by decide))
  have hmax : (tlvCoding.encodeAll fields).length ≤ maxBodySize :=
    (hbody.trans hsmall).trans (by decide)
  have hvalidate : requestHeaderValidate (m.header sequence (tlvCoding.encodeAll fields).length) = .ok () :=
    (requestHeaderValidate_iff hknown hreserved rfl (by omega)).mpr ⟨h.numbered, rfl⟩
  have hgood : ¬ AuthEnvelopeRefused (m.header sequence (tlvCoding.encodeAll fields).length)
      (headerSize + (tlvCoding.encodeAll fields).length) := by
    simp only [AuthEnvelopeRefused, not_or, not_and, ne_eq, not_not]
    refine ⟨fun hlogin hresume hlogout => ?_, rfl, ?_, rfl, ?_, by rw [hlen]⟩
    · exact ((m.command_cases.resolve_left hlogin).resolve_left hresume).resolve_left hlogout
    · show ¬ (if m.command = commandLogout then m.session = 0 else m.session ≠ 0)
      by_cases heq : m.command = commandLogout
      · rw [if_pos heq] at hsession ⊢
        exact hsession
      · rw [if_neg heq] at hsession ⊢
        exact not_not.mpr hsession
    · rw [hlen]
      exact Nat.not_lt.mpr hbody
  have henvelope := frameEnvelope_sealed AuthRequestIssue.header .envelope .crc checks_authEnvelope (m.header sequence (tlvCoding.encodeAll fields).length)
    (tlvCoding.encodeAll fields)
  rw [if_neg (by omega), hvalidate] at henvelope
  dsimp only at henvelope
  rw [if_neg hgood] at henvelope
  obtain ⟨l, hperm, hl⟩ := exists_perm_of_map_perm TlvField.said hsaid
  have haccepted := (accepted_of_said hsized hl).perm hperm.symm
  have hlogout : m.command = commandLogout → m.session ≠ 0 := fun heq => by rwa [if_pos heq] at hsession
  have hfields : authRequestFields
      ((m.header sequence (tlvCoding.encodeAll fields).length).sealedWith (tlvCoding.encodeAll fields))
      (tlvCoding.encodeAll fields) = .ok (m.view sequence) := by
    rw [authRequestFields_accepted haccepted, foldl_authRequestField_perm hperm haccepted, foldl_said hl rfl rfl]
    exact (authFinish_view hsized hlogout sequence _).mpr ⟨h.valid, rfl⟩
  have htake : (tlvCoding.encodeAll fields).take ((m.header sequence
      (tlvCoding.encodeAll fields).length).sealedWith (tlvCoding.encodeAll fields)).bodyLen.toNat =
      tlvCoding.encodeAll fields := take_of_length_le (Nat.le_of_eq hlen.symm)
  unfold authRequestDecode authRequestEnvelope
  rw [hwire, henvelope]
  dsimp only
  rw [drop_sealedFrame, htake, hfields]

/-- **The order of the fields does not matter**, whatever the header says and whatever the fields are. -/
theorem authRequestDecode_perm (header : Header) {fields' : List TlvField} (hperm : fields.Perm fields')
    (out : AuthRequestView) :
    authRequestDecode (sealedFrame header (tlvCoding.encodeAll fields)) out =
      authRequestDecode (sealedFrame header (tlvCoding.encodeAll fields')) out := by
  have hlen : (tlvCoding.encodeAll fields).length = (tlvCoding.encodeAll fields').length := by
    rw [length_encodeAll_said, length_encodeAll_said]
    exact ((hperm.map TlvField.said).map fun p => tlvHeaderSize + p.2.length).sum_nat
  unfold authRequestDecode
  rw [authRequestEnvelope, authRequestEnvelope, frameEnvelope_sealed _ _ _ checks_authEnvelope,
    frameEnvelope_sealed _ _ _ checks_authEnvelope, drop_sealedFrame, drop_sealedFrame, ← hlen]
  by_cases hlarge : header.bodyLen.toNat > maxBodySize
  · rw [if_pos hlarge, if_pos hlarge]
  rw [if_neg hlarge, if_neg hlarge]
  cases requestHeaderValidate header with
  | error e => rfl
  | ok u =>
    dsimp only
    by_cases hbad : AuthEnvelopeRefused header (headerSize + (tlvCoding.encodeAll fields).length)
    · rw [if_pos hbad, if_pos hbad]
    rw [if_neg hbad, if_neg hbad]
    dsimp only
    obtain ⟨-, -, -, -, -, hsize⟩ := command_of_not_refused hbad
    have htake : ∀ body : Bytes, body.length = (tlvCoding.encodeAll fields).length →
        body.take (header.sealedWith body).bodyLen.toNat = body := by
      intro body heq
      show body.take header.bodyLen.toNat = body
      exact take_of_length_le (by omega)
    have hsame : ∀ body b, authRequestFields (header.sealedWith body) b = authRequestFields header b :=
      fun _ _ => rfl
    have hfields : authRequestFields header (tlvCoding.encodeAll fields) =
        authRequestFields header (tlvCoding.encodeAll fields') := by
      have hlogout := body_of_logout hbad
      have hlogout' : header.command = commandLogout → tlvCoding.encodeAll fields' = [] := fun heq => by
        rw [hlogout heq] at hlen
        exact length_eq_zero_iff.mp hlen.symm
      by_cases haccepted : Accepted (authRulesOf header.command) .reject (tlvCoding.encodeAll fields) fields
      · rw [authRequestFields_accepted haccepted, authRequestFields_accepted (haccepted.perm hperm),
          foldl_authRequestField_perm hperm haccepted]
      · have hnone : ∀ l, ¬ Accepted (authRulesOf header.command) .reject (tlvCoding.encodeAll fields) l := by
          intro l h
          rw [← tlvCoding.encodeAll_injective h.all] at h
          exact haccepted h
        have hnone' : ∀ l, ¬ Accepted (authRulesOf header.command) .reject (tlvCoding.encodeAll fields') l := by
          intro l h
          rw [← tlvCoding.encodeAll_injective h.all] at h
          exact haccepted (h.perm hperm.symm)
        rw [authRequestFields_refused hlogout hnone, authRequestFields_refused hlogout' hnone']
    rw [htake _ rfl, htake _ hlen.symm, hsame, hsame, hfields]

/-- **The decoder accepts exactly the grammar.** A byte string is accepted iff it is a complete frame of a
    message: the sealed header, and behind it one each of the fields of the command, in any order. -/
theorem auth_request_exact :
    (∀ wire out, (authRequestDecode wire out).result = .ok ↔ ∃ m sequence, AuthFrame wire m sequence) ∧
    (∀ wire out m sequence, AuthFrame wire m sequence →
      authRequestDecode wire out = ⟨.ok, m.view sequence, .none⟩) ∧
    ∀ header fields fields' out, List.Perm fields fields' →
      authRequestDecode (sealedFrame header (tlvCoding.encodeAll fields)) out =
        authRequestDecode (sealedFrame header (tlvCoding.encodeAll fields')) out := by
  refine ⟨fun wire out => ⟨fun hok => ?_, fun ⟨m, sequence, hframe⟩ => ?_⟩,
    fun wire out m sequence hframe => authRequestDecode_frame hframe out,
    fun header fields fields' out hperm => authRequestDecode_perm header hperm out⟩
  · unfold authRequestDecode at hok
    split at hok
    · cases hok
    rename_i header henvelope
    split at hok
    · cases hok
    rename_i next hfields
    rw [(frameEnvelope_ok _ _ _ checks_authEnvelope henvelope).2.2.2.2] at hfields
    obtain ⟨m, hframe⟩ := authFrame_of_ok henvelope hfields
    exact ⟨m, header.sequence, hframe⟩
  · rw [authRequestDecode_frame hframe]

/-- A registration whose password comes before its user name, and the other way round. -/
theorem auth_request_exact_register :
    let m := AuthMessage.register [97, 95, 57] (List.replicate 8 33)
    let u : TlvField := ⟨tlvUsername, [97, 95, 57], by decide⟩
    let p : TlvField := ⟨tlvPassword, List.replicate 8 33, by decide⟩
    authRequestDecode (sealedFrame (m.header 7 19) (tlvCoding.encodeAll [p, u])) default =
        ⟨.ok, m.view 7, .none⟩ ∧
      authRequestDecode (sealedFrame (m.header 7 19) (tlvCoding.encodeAll [u, p])) default =
        ⟨.ok, m.view 7, .none⟩ := by
  intro m u p
  have hvalid : m.Valid :=
    ⟨⟨by decide, by decide, forall_mem_cons.mpr ⟨by decide, forall_mem_cons.mpr ⟨by decide,
      forall_mem_singleton.mpr (by decide)⟩⟩⟩, by decide, by decide, fun c hc => by
      rw [eq_of_mem_replicate hc]
      decide⟩
  have hframe : AuthFrame (sealedFrame (m.header 7 19) (tlvCoding.encodeAll [p, u])) m 7 :=
    ⟨hvalid, by decide, [p, u], List.Perm.swap .., rfl⟩
  have hfirst := auth_request_exact.2.1 _ default m 7 hframe
  exact ⟨hfirst, (auth_request_exact.2.2 (m.header 7 19) [u, p] [p, u] default (List.Perm.swap ..)).trans hfirst⟩

end Vireo.Protocol
