/-
  File:      Vireo/Security/PageToken.lean
  Subject:   PAGE TOKENS (`src/security/page_token.c`): a payload of 64 bytes and a code of 32 over it.

  Null pointers do not exist here. `calculate` is the code of a payload under a key, or the failure of the
  library that computes it.
-/
import Vireo.Lib.BigEndian
import Vireo.Protocol.NodeList

namespace Vireo.Security

open Lib Protocol List

/-! ## 1. Values -/

/-- `VIREO_PAGE_TOKEN_TTL_MS`. -/
def pageTokenTtlMs : UInt64 := 600000

/-- `vireo_page_token_t`. -/
abbrev PageToken := Cells UInt8 96

/-- The bytes that the code covers. -/
abbrev PageTokenPayload := Cells UInt8 64

/-- `vireo_page_token_context_t`. -/
structure PageTokenContext where
  userId : UInt64
  sessionId : UInt64
  directoryId : UInt64
  pageSize : UInt16
deriving DecidableEq

/-- `vireo_page_token_claims_t`. -/
structure PageTokenClaims where
  context : PageTokenContext
  afterId : UInt64
  issuedAtMs : UInt64
  expiresAtMs : UInt64
deriving DecidableEq

/-- `vireo_page_token_key`. -/
structure PageTokenKey where
  secret : Cells UInt8 32
  id : UInt32

/-- `put`: the `n` bytes that are written. -/
def put (value : UInt64) (n : Nat) : Bytes := beBytes n value

/-- `get`. -/
def get (p : Bytes) (n : Nat) : UInt64 := beWord (p.take n)

/-- `context_valid`. -/
def contextValid (c : PageTokenContext) : Bool :=
  c.userId ≠ 0 && c.sessionId ≠ 0 && c.directoryId ≠ 0 && c.pageSize ≥ 1 && c.pageSize ≤ 64

/-! ## 2. The operations -/

variable (key : PageTokenKey)

/-- `candidate`, before the code is put in. -/
def pageTokenCandidate (claims : PageTokenClaims) : Bytes :=
  let p := List.replicate 96 (0 : UInt8)
  let p := overwrite p 0 [1]
  let p := overwrite p 4 (put key.id.toUInt64 4)
  let p := overwrite p 8 (put claims.context.userId 8)
  let p := overwrite p 16 (put claims.context.sessionId 8)
  let p := overwrite p 24 (put claims.context.directoryId 8)
  let p := overwrite p 32 (put claims.afterId 8)
  let p := overwrite p 40 (put claims.context.pageSize.toUInt64 2)
  let p := overwrite p 48 (put claims.issuedAtMs 8)
  overwrite p 56 (put claims.expiresAtMs 8)

theorem overwrite_zeros {p xs : Bytes} {k m n pos : Nat} (hpos : p.length + k = pos) (hn : k + (xs.length + m) = n) :
    overwrite (p ++ List.replicate n 0) pos xs = (p ++ (List.replicate k 0 ++ xs)) ++ List.replicate m 0 := by
  have hfront : (p ++ List.replicate k (0 : UInt8)).length = pos := by simp [hpos]
  have hall : p ++ List.replicate n 0 = (p ++ List.replicate k 0) ++ (List.replicate (xs.length + m) (0 : UInt8)) := by
    rw [← hn, replicate_add, append_assoc]
  have hback : (List.replicate (xs.length + m) (0 : UInt8)).drop xs.length = List.replicate m 0 := by
    rw [drop_replicate, Nat.add_sub_cancel_left]
  rw [overwrite, hall, ← drop_drop, take_left' hfront, drop_left' hfront, hback]
  simp

/-- The payload, piece by piece. -/
def pageTokenBytes (c : PageTokenClaims) : Bytes :=
  [1, 0] ++ (put 0 2 ++ (put key.id.toUInt64 4 ++ (put c.context.userId 8 ++ (put c.context.sessionId 8 ++
    (put c.context.directoryId 8 ++ (put c.afterId 8 ++ (put c.context.pageSize.toUInt64 2 ++ (put 0 6 ++
      (put c.issuedAtMs 8 ++ put c.expiresAtMs 8)))))))))

@[simp]
theorem length_put (value : UInt64) (n : Nat) : (put value n).length = n := length_beBytes n value

@[simp]
theorem length_pageTokenBytes (c : PageTokenClaims) : (pageTokenBytes key c).length = 64 := by
  simp [pageTokenBytes]

/-- **The candidate is the payload**, and zeros where the code will be. -/
theorem pageTokenCandidate_eq (c : PageTokenClaims) :
    pageTokenCandidate key c = pageTokenBytes key c ++ List.replicate 32 0 := by
  have hstart : List.replicate 96 (0 : UInt8) = [] ++ List.replicate 96 0 := rfl
  have htwo : put 0 2 = List.replicate 2 0 := by decide
  have hsix : put 0 6 = List.replicate 6 0 := by decide
  unfold pageTokenCandidate pageTokenBytes
  dsimp only
  rw [hstart, overwrite_zeros (k := 0) (m := 95) (by simp) (by simp),
    overwrite_zeros (k := 3) (m := 88) (by simp) (by simp),
    overwrite_zeros (k := 0) (m := 80) (by simp) (by simp),
    overwrite_zeros (k := 0) (m := 72) (by simp) (by simp),
    overwrite_zeros (k := 0) (m := 64) (by simp) (by simp),
    overwrite_zeros (k := 0) (m := 56) (by simp) (by simp),
    overwrite_zeros (k := 0) (m := 54) (by simp) (by simp),
    overwrite_zeros (k := 6) (m := 40) (by simp) (by simp),
    overwrite_zeros (k := 0) (m := 32) (by simp) (by simp), htwo, hsix]
  simp [List.replicate]

section Operations

variable (calculate : PageTokenKey → PageTokenPayload → Except Failure (Cells UInt8 32)) (key : PageTokenKey)

/-- The payload of a candidate. -/
def pageTokenPayload (claims : PageTokenClaims) : PageTokenPayload :=
  ⟨(pageTokenCandidate key claims).take 64, by simp [pageTokenCandidate_eq]⟩

/-- The candidate with its code. -/
def pageTokenSeal (claims : PageTokenClaims) (mac : Cells UInt8 32) : PageToken :=
  ⟨overwrite (pageTokenCandidate key claims) 64 mac.val, by
    have hmac : mac.val.length = 32 := mac.property
    rw [pageTokenCandidate_eq, length_overwrite (by simp [hmac])]
    simp⟩

/-- `vireo_page_token_sign`: the token that is copied to the output. -/
def pageTokenSign (claims : PageTokenClaims) (now : UInt64) : Except Result PageToken :=
  if contextValid claims.context = false ∨ claims.afterId = 0 then .error .invalidArgument
  else if claims.issuedAtMs > u64Max - pageTokenTtlMs then .error .overflow
  else if claims.expiresAtMs ≠ claims.issuedAtMs + pageTokenTtlMs then .error .invalidArgument
  else if now < claims.issuedAtMs ∨ now ≥ claims.expiresAtMs then .error .protocol
  else
    match calculate key (pageTokenPayload key claims) with
    | .error e => .error e.val
    | .ok mac => .ok (pageTokenSeal key claims mac)

/-- The bytes of a token that the code covers. -/
def tokenPayload (token : PageToken) : PageTokenPayload :=
  ⟨token.val.take 64, by rw [length_take, token.property]; rfl⟩

/-- The check of the bytes that are not claims of their own, under a context. -/
abbrev PageTokenForeign (context : PageTokenContext) (p : Bytes) : Prop :=
  p.getD 0 0 ≠ 1 ∨ p.getD 1 0 ≠ 0 ∨ get (p.drop 2) 2 ≠ 0 ∨ get (p.drop 4) 4 ≠ key.id.toUInt64 ∨
    get (p.drop 42) 6 ≠ 0 ∨ get (p.drop 8) 8 ≠ context.userId ∨ get (p.drop 16) 8 ≠ context.sessionId ∨
    get (p.drop 24) 8 ≠ context.directoryId ∨ get (p.drop 40) 2 ≠ context.pageSize.toUInt64

/-- `vireo_page_token_verify`: the result, and the output. -/
def pageTokenVerify (context : PageTokenContext) (token : PageToken) (now : UInt64) (out : PageTokenClaims) :
    Result × PageTokenClaims :=
  if contextValid context = false then (.invalidArgument, out)
  else
    match calculate key (tokenPayload token) with
    | .error e => (e.val, out)
    | .ok mac =>
      let p := token.val
      if mac.val ≠ (p.drop 64).take 32 then (.protocol, out)
      else if PageTokenForeign key context p then (.protocol, out)
      else
        let c : PageTokenClaims := ⟨context, get (p.drop 32) 8, get (p.drop 48) 8, get (p.drop 56) 8⟩
        if c.afterId = 0 ∨ c.issuedAtMs > u64Max - pageTokenTtlMs ∨
            c.expiresAtMs ≠ c.issuedAtMs + pageTokenTtlMs ∨ now < c.issuedAtMs ∨ now ≥ c.expiresAtMs then
          (.protocol, out)
        else (.ok, c)

end Operations

/-! ## 3. The bytes of the payload -/

@[simp]
theorem get_put {n : Nat} (hn : n ≤ 8) {value : UInt64} (h : value.toNat < 256 ^ n) (t : Bytes) :
    get (put value n ++ t) n = value := by
  have htake : (put value n ++ t).take n = put value n := take_left' (length_beBytes n value)
  rw [get, htake, put, beWord_beBytes hn h]

theorem put_get {n : Nat} (hn : n ≤ 8) {p : Bytes} (h : n ≤ p.length) : put (get p n) n = p.take n := by
  have hlen : (p.take n).length = n := length_take_of_le h
  have hbytes := beBytes_beWord (hlen.trans_le hn)
  rw [hlen] at hbytes
  exact hbytes

theorem pageTokenPayload_val (key : PageTokenKey) (c : PageTokenClaims) :
    (pageTokenPayload key c).val = pageTokenBytes key c := by
  show (pageTokenCandidate key c).take 64 = _
  rw [pageTokenCandidate_eq]
  exact take_left' (length_pageTokenBytes key c)

theorem pageTokenSeal_val (key : PageTokenKey) (c : PageTokenClaims) (mac : Cells UInt8 32) :
    (pageTokenSeal key c mac).val = pageTokenBytes key c ++ mac.val := by
  have hmac : mac.val.length = 32 := mac.property
  show overwrite (pageTokenCandidate key c) 64 mac.val = _
  rw [pageTokenCandidate_eq, overwrite_zeros (k := 0) (m := 0) (by simp) (by simp [hmac])]
  simp

theorem payload_iff {key : PageTokenKey} {c : PageTokenClaims} {p : Bytes} (hlen : 64 ≤ p.length) :
    p.take 64 = pageTokenBytes key c ↔
      ¬ PageTokenForeign key c.context p ∧ get (p.drop 32) 8 = c.afterId ∧ get (p.drop 48) 8 = c.issuedAtMs ∧
        get (p.drop 56) 8 = c.expiresAtMs := by
  constructor
  · intro htake
    have hp : p = pageTokenBytes key c ++ p.drop 64 := by rw [← htake, take_append_drop]
    generalize p.drop 64 = t at hp
    subst hp
    have hid : key.id.toUInt64.toNat < 256 ^ 4 := by
      rw [UInt32.toNat_toUInt64]
      exact key.id.toNat_lt
    have hpage : c.context.pageSize.toUInt64.toNat < 256 ^ 2 := by
      rw [UInt16.toNat_toUInt64]
      exact c.context.pageSize.toNat_lt
    have hword : ∀ (value : UInt64) (t : Bytes), get (put value 8 ++ t) 8 = value := fun value t =>
      get_put (Nat.le_refl 8) value.toNat_lt t
    simp only [PageTokenForeign, not_or, ne_eq, not_not]
    refine ⟨⟨rfl, rfl, ?_, ?_, ?_, ?_, ?_, ?_, ?_⟩, ?_, ?_, ?_⟩
    · exact get_put (by decide) (by decide) _
    · exact get_put (by decide) hid _
    · exact get_put (by decide) (by decide) _
    · exact hword c.context.userId _
    · exact hword c.context.sessionId _
    · exact hword c.context.directoryId _
    · exact get_put (by decide) hpage _
    · exact hword c.afterId _
    · exact hword c.issuedAtMs _
    · exact hword c.expiresAtMs _
  · intro ⟨hforeign, hafter, hissued, hexpires⟩
    simp only [PageTokenForeign, not_or, ne_eq, not_not] at hforeign
    obtain ⟨hone, hzero, htwo, hid, hsix, huser, hsession, hdirectory, hpage⟩ := hforeign
    have hpiece : ∀ k n, n ≤ 8 → k + n ≤ 64 → p.take (k + n) = p.take k ++ put (get (p.drop k) n) n := by
      intro k n hn hk
      rw [put_get hn (by rw [length_drop]; omega), take_add]
    have hfront : p.take 2 = [1, 0] := by
      match p, hlen with
      | a :: b :: t, _ =>
        have ha : a = 1 := hone
        have hb : b = 0 := hzero
        rw [ha, hb]
        rfl
    rw [hpiece 56 8 (by decide) (by decide), hpiece 48 8 (by decide) (by decide),
      hpiece 42 6 (by decide) (by decide), hpiece 40 2 (by decide) (by decide),
      hpiece 32 8 (by decide) (by decide), hpiece 24 8 (by decide) (by decide),
      hpiece 16 8 (by decide) (by decide), hpiece 8 8 (by decide) (by decide),
      hpiece 4 4 (by decide) (by decide), hpiece 2 2 (by decide) (by decide), hfront, htwo, hid, huser, hsession,
      hdirectory, hafter, hpage, hsix, hissued, hexpires, pageTokenBytes]
    simp only [append_assoc]

/-! ## 4. What the operations ask for -/

/-- Claims that are signed at a time. -/
structure SignOk (c : PageTokenClaims) (now : UInt64) : Prop where
  context : contextValid c.context = true
  after : c.afterId ≠ 0
  fits : ¬ c.issuedAtMs > u64Max - pageTokenTtlMs
  ttl : c.expiresAtMs = c.issuedAtMs + pageTokenTtlMs
  begun : ¬ now < c.issuedAtMs
  alive : ¬ now ≥ c.expiresAtMs

section Exact

variable {calculate : PageTokenKey → PageTokenPayload → Except Failure (Cells UInt8 32)} {key : PageTokenKey}
  {context : PageTokenContext} {token : PageToken} {now : UInt64} {out c : PageTokenClaims}

/-- **A token is signed** exactly for claims that may be, and it is their payload and its code. -/
theorem sign_iff : pageTokenSign calculate key c now = .ok token ↔
      SignOk c now ∧ ∃ mac, calculate key (pageTokenPayload key c) = .ok mac ∧ pageTokenSeal key c mac = token := by
  unfold pageTokenSign
  constructor
  · intro h
    split at h
    · cases h
    rename_i hvalid
    split at h
    · cases h
    rename_i hfits
    split at h
    · cases h
    rename_i httl
    split at h
    · cases h
    rename_i htime
    split at h
    · cases h
    rename_i mac hmac
    simp only [not_or, Bool.not_eq_false] at hvalid htime
    exact ⟨⟨hvalid.1, hvalid.2, hfits, not_not.mp httl, htime.1, htime.2⟩, mac, hmac, Except.ok.inj h⟩
  · intro ⟨hok, mac, hmac, htoken⟩
    have hvalid : ¬ (contextValid c.context = false ∨ c.afterId = 0) := by
      rw [hok.context]
      simp [hok.after]
    rw [if_neg hvalid, if_neg hok.fits, if_neg (not_not.mpr hok.ttl), if_neg (not_or.mpr ⟨hok.begun, hok.alive⟩), hmac]
    exact congrArg Except.ok htoken

theorem token_iff {mac : Cells UInt8 32} :
    tokenPayload token = pageTokenPayload key c ∧ mac.val = (token.val.drop 64).take 32 ↔
      pageTokenSeal key c mac = token := by
  have hback : (token.val.drop 64).take 32 = token.val.drop 64 := take_of_length_le (by
    rw [length_drop]
    omega)
  constructor
  · intro ⟨hpayload, hmac⟩
    apply Subtype.ext
    have hfront : token.val.take 64 = pageTokenBytes key c :=
      (congrArg Subtype.val hpayload).trans (pageTokenPayload_val key c)
    rw [pageTokenSeal_val, hmac, hback, ← hfront, take_append_drop]
  · intro hseal
    have hval : token.val = pageTokenBytes key c ++ mac.val := by rw [← hseal, pageTokenSeal_val]
    have hbytes := length_pageTokenBytes key c
    refine ⟨Subtype.ext ?_, ?_⟩
    · rw [pageTokenPayload_val]
      show token.val.take 64 = _
      rw [hval, take_left' hbytes]
    · rw [hback, hval, drop_left' hbytes]

/-- **A token is verified** exactly when it is the one that is signed for the claims it is verified with. -/
theorem verify_iff : pageTokenVerify calculate key context token now out = (.ok, c) ↔
      c.context = context ∧ SignOk c now ∧
        ∃ mac, calculate key (pageTokenPayload key c) = .ok mac ∧ pageTokenSeal key c mac = token := by
  have hlen : 64 ≤ token.val.length := by
    rw [token.property]
    decide
  have hval : (tokenPayload token).val = token.val.take 64 := rfl
  unfold pageTokenVerify
  constructor
  · intro h
    split at h
    · cases h
    rename_i hcontext
    split at h
    · rename_i e _
      exact absurd (congrArg Prod.fst h) e.property
    · rename_i mac hmac
      dsimp only at h
      split at h
      · cases h
      rename_i hcode
      split at h
      · cases h
      rename_i hforeign
      split at h
      · cases h
      rename_i hclaims
      cases h
      simp only [not_or, not_not] at hclaims
      obtain ⟨hafter, hfits, httl, hbegun, halive⟩ := hclaims
      have hfront := (@payload_iff key ⟨context, get (token.val.drop 32) 8, get (token.val.drop 48) 8,
        get (token.val.drop 56) 8⟩ token.val hlen).mpr ⟨hforeign, rfl, rfl, rfl⟩
      rw [← pageTokenPayload_val, ← hval] at hfront
      have hpayload := Subtype.ext hfront
      exact ⟨rfl, ⟨(Bool.not_eq_false _).mp hcontext, hafter, hfits, httl, hbegun, halive⟩, mac,
        hpayload ▸ hmac, token_iff.mp ⟨hpayload, not_not.mp hcode⟩⟩
  · intro ⟨hcontext, hok, mac, hmac, hseal⟩
    obtain ⟨hpayload, hcode⟩ := token_iff.mpr hseal
    have hfront : token.val.take 64 = pageTokenBytes key c := by
      rw [← hval, hpayload, pageTokenPayload_val]
    obtain ⟨hforeign, hafter, hissued, hexpires⟩ := (payload_iff hlen).mp hfront
    subst hcontext
    rw [hok.context, if_neg (by decide), hpayload, hmac]
    dsimp only
    rw [if_neg (not_not.mpr hcode), if_neg hforeign, hafter, hissued, hexpires]
    exact if_neg (not_or.mpr ⟨hok.after, not_or.mpr ⟨hok.fits, not_or.mpr ⟨not_not.mpr hok.ttl,
      not_or.mpr ⟨hok.begun, hok.alive⟩⟩⟩⟩)

theorem verify_unchanged (h : (pageTokenVerify calculate key context token now out).1 ≠ .ok) :
    (pageTokenVerify calculate key context token now out).2 = out := by
  have hcases : (pageTokenVerify calculate key context token now out).1 = .ok ∨
      (pageTokenVerify calculate key context token now out).2 = out := by
    unfold pageTokenVerify
    split
    · exact .inr rfl
    split
    · exact .inr rfl
    dsimp only
    split
    · exact .inr rfl
    split
    · exact .inr rfl
    split
    · exact .inr rfl
    · exact .inl rfl
  exact hcases.resolve_left h

theorem claims_unique {c' : PageTokenClaims} {mac mac' : Cells UInt8 32} (h : pageTokenSeal key c mac = token)
    (h' : pageTokenSeal key c' mac' = token) : c = c' := by
  have hlen : 64 ≤ token.val.length := by
    rw [token.property]
    decide
  have hread : ∀ {c mac}, pageTokenSeal key c mac = token →
      ¬ PageTokenForeign key c.context token.val ∧ get (token.val.drop 32) 8 = c.afterId ∧
        get (token.val.drop 48) 8 = c.issuedAtMs ∧ get (token.val.drop 56) 8 = c.expiresAtMs := by
    intro c mac hseal
    refine (payload_iff hlen).mp ?_
    have hpayload := congrArg Subtype.val (token_iff.mpr hseal).1
    exact hpayload.trans (pageTokenPayload_val key c)
  obtain ⟨hforeign, hafter, hissued, hexpires⟩ := hread h
  obtain ⟨hforeign', hafter', hissued', hexpires'⟩ := hread h'
  simp only [PageTokenForeign, not_or, ne_eq, not_not] at hforeign hforeign'
  obtain ⟨-, -, -, -, -, huser, hsession, hdirectory, hpage⟩ := hforeign
  obtain ⟨-, -, -, -, -, huser', hsession', hdirectory', hpage'⟩ := hforeign'
  have hsize : c.context.pageSize = c'.context.pageSize := by
    apply UInt16.toNat_inj.mp
    rw [← UInt16.toNat_toUInt64, ← UInt16.toNat_toUInt64, ← hpage, hpage']
  obtain ⟨⟨user, session, directory, size⟩, after, issued, expires⟩ := c
  obtain ⟨⟨user', session', directory', size'⟩, after', issued', expires'⟩ := c'
  simp only at *
  subst huser hsession hdirectory hafter hissued hexpires hsize
  rw [← huser', ← hsession', ← hdirectory', ← hafter', ← hissued', ← hexpires']

end Exact

/-! ## 5. Authenticity -/

/-- **A page token is what was signed.** Under any fixed code, a token is verified with claims exactly when it
    is the token signed for them, and they are of the context that was asked for. -/
theorem page_token_authentic (calculate : PageTokenKey → PageTokenPayload → Except Failure (Cells UInt8 32))
    (key : PageTokenKey) :
    (∀ context token now out c, pageTokenVerify calculate key context token now out = (.ok, c) ↔
      pageTokenSign calculate key c now = .ok token ∧ c.context = context) ∧
    (∀ c c' now now' token, pageTokenSign calculate key c now = .ok token →
      pageTokenSign calculate key c' now' = .ok token → c = c') ∧
    (∀ context token now out c token' now', pageTokenVerify calculate key context token now out = (.ok, c) →
      pageTokenSign calculate key c now' = .ok token' → token' = token) ∧
    ∀ context token now out, (pageTokenVerify calculate key context token now out).1 ≠ .ok →
      (pageTokenVerify calculate key context token now out).2 = out := by
  refine ⟨fun context token now out c => ?_, fun c c' now now' token h h' => ?_,
    fun context token now out c token' now' h h' => ?_, fun context token now out => verify_unchanged⟩
  · rw [verify_iff, sign_iff]
    exact ⟨fun ⟨hcontext, hrest⟩ => ⟨hrest, hcontext⟩, fun ⟨hrest, hcontext⟩ => ⟨hcontext, hrest⟩⟩
  · obtain ⟨-, mac, -, hseal⟩ := sign_iff.mp h
    obtain ⟨-, mac', -, hseal'⟩ := sign_iff.mp h'
    exact claims_unique hseal hseal'
  · obtain ⟨-, -, mac, hmac, hseal⟩ := verify_iff.mp h
    obtain ⟨-, mac', hmac', hseal'⟩ := sign_iff.mp h'
    rw [hmac] at hmac'
    cases hmac'
    exact hseal'.symm.trans hseal

/-- Under a code that is always the same, a token of ten entries is signed and verified. -/
theorem page_token_authentic_ten :
    ∃ token, pageTokenSign (fun _ _ => .ok (.fill 32 5)) ⟨.fill 32 1, 9⟩ ⟨⟨1, 2, 3, 10⟩, 7, 1000, 601000⟩ 1000 =
        .ok token ∧
      ∀ out, pageTokenVerify (fun _ _ => .ok (.fill 32 5)) ⟨.fill 32 1, 9⟩ ⟨1, 2, 3, 10⟩ token 1000 out =
        (.ok, ⟨⟨1, 2, 3, 10⟩, 7, 1000, 601000⟩) := by
  have hok : SignOk ⟨⟨1, 2, 3, 10⟩, 7, 1000, 601000⟩ 1000 :=
    ⟨by decide, by decide, by decide, by decide, by decide, by decide⟩
  have hsign := (@sign_iff (fun _ _ => .ok (.fill 32 5)) ⟨.fill 32 1, 9⟩ _ 1000 _).mpr ⟨hok, _, rfl, rfl⟩
  exact ⟨_, hsign, fun out => ((page_token_authentic _ _).1 _ _ _ _ _).mpr ⟨hsign, rfl⟩⟩

end Vireo.Security
