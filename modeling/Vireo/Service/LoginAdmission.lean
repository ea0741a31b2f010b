/-
  File:      Vireo/Service/LoginAdmission.lean
  Subject:   WHO PAYS FOR A LOGIN (`src/service/auth_login_admission.c`, `auth_username.c`).

  The runtime of the tests is left out: an allocation that fails is an input of `create`.
-/
import Mathlib.Data.List.GetD
import Vireo.Security.RateLimiterRefine

namespace Vireo.Service

open Security

/-! ## 1. Names -/

/-- Bytes at the front of a block of zeros. -/
def padded (n : Nat) (l : List UInt8) : Vector UInt8 n := Vector.ofFn fun i => l.getD i 0

/-- `vireo_auth_username_t`. -/
structure AuthUsername where
  username : Vector UInt8 32
  key : Vector UInt8 32
  length : Nat

/-- The body of the loop of `vireo_auth_username_prepare`: the byte of the key. -/
def keyByte (byte : UInt8) : Except Result UInt8 :=
  if byte ≥ 0x41 ∧ byte ≤ 0x5A then .ok (byte + 0x20)
  else if (byte ≥ 0x61 ∧ byte ≤ 0x7A) ∨ (byte ≥ 0x30 ∧ byte ≤ 0x39) ∨ byte = 0x5F then .ok byte
  else .error .protocol

/-- The loop. -/
def keyBytesOf : List UInt8 → Except Result (List UInt8)
  | [] => .ok []
  | byte :: input => do
    let b ← keyByte byte
    let rest ← keyBytesOf input
    .ok (b :: rest)

/-- `vireo_auth_username_prepare`. -/
def usernamePrepare (input : List UInt8) : Except Result AuthUsername :=
  if input.length < 3 ∨ input.length > 32 then .error .range
  else do
    let key ← keyBytesOf input
    .ok ⟨padded 32 input, padded 32 key, input.length⟩

/-! ## 2. The admission -/

/-- `vireo_auth_login_peer_t`. -/
structure LoginPeer where
  family : UInt8
  address : Vector UInt8 16

/-- `vireo_auth_login_quota_t`. -/
structure LoginQuota where
  burstTokens : UInt32
  refillIntervalNs : UInt64

/-- `vireo_auth_login_admission_options_t`. -/
structure LoginAdmissionOptions where
  maxKeys : UInt64
  maxMemoryBytes : UInt64
  peer : LoginQuota
  account : LoginQuota
  device : LoginQuota

/-- The policies that the limiter is made with. -/
def LoginAdmissionOptions.policies (o : LoginAdmissionOptions) : List Policy :=
  [⟨1, o.peer.burstTokens, o.peer.refillIntervalNs⟩, ⟨2, o.account.burstTokens, o.account.refillIntervalNs⟩,
    ⟨3, o.device.burstTokens, o.device.refillIntervalNs⟩]

/-- `struct vireo_auth_login_admission`. -/
structure LoginAdmission where
  limiter : RateLimiter

/-- The arguments of a check. -/
structure LoginCheck where
  now : UInt64
  peer : LoginPeer
  username : List UInt8
  device : Vector UInt8 16

/-- `mapped_prefix`. -/
def mappedPrefix : List UInt8 := [0, 0, 0, 0, 0, 0, 0, 0, 0, 0, 0xFF, 0xFF]

/-- An address of IPv6 that stands for one of IPv4. -/
def LoginPeer.mapped (p : LoginPeer) : Bool := p.family == 6 && p.address.toList.take 12 == mappedPrefix

/-- The key of a peer: the family and the bytes of the address, and zeros. -/
def LoginPeer.key (p : LoginPeer) : Key :=
  if p.mapped then padded keyBytes (4 :: p.address.toList.drop 12)
  else padded keyBytes (p.family :: p.address.toList.take (if p.family = 4 then 4 else 16))

/-- `vireo_auth_login_admission_check`, up to the call of the limiter. -/
def LoginCheck.requests (c : LoginCheck) : Except Result (List Request) :=
  if c.username.length < 3 ∨ c.username.length > 32 then .error .range
  else if c.peer.family ≠ 4 ∧ c.peer.family ≠ 6 then .error .invalidArgument
  else if c.peer.family = 4 ∧ (c.peer.address.toList.drop 4).any (· != 0) = true then .error .invalidArgument
  else do
    let account ← usernamePrepare c.username
    .ok [⟨1, c.peer.key, 1⟩, ⟨2, padded keyBytes account.key.toList, 1⟩,
      ⟨3, padded keyBytes c.device.toList, 1⟩]

/-- A letter, a digit or an underscore of ASCII. -/
def NameByte (byte : UInt8) : Prop :=
  0x41 ≤ byte ∧ byte ≤ 0x5A ∨ 0x61 ≤ byte ∧ byte ≤ 0x7A ∨ 0x30 ≤ byte ∧ byte ≤ 0x39 ∨ byte = 0x5F

instance (byte : UInt8) : Decidable (NameByte byte) := inferInstanceAs (Decidable (_ ∨ _))

/-- A check that can be answered: the name of an account, and an address of one of the two families. -/
structure LoginCheck.Valid (c : LoginCheck) : Prop where
  length : 3 ≤ c.username.length ∧ c.username.length ≤ 32
  name : ∀ b ∈ c.username, NameByte b
  peer : c.peer.family = 4 ∧ (∀ b ∈ c.peer.address.toList.drop 4, b = 0) ∨ c.peer.family = 6

namespace LoginAdmission

/-- `vireo_auth_login_admission_create`; the two memories are those of the limiter and of the wrapper. -/
def create (o : LoginAdmissionOptions) (now : UInt64) (limiterMemory memory : Bool) :
    Except Result LoginAdmission := do
  let limiter ← Security.create o.maxKeys o.maxMemoryBytes o.policies now limiterMemory
  if memory = false then .error .noMemory else .ok ⟨limiter⟩

/-- `vireo_auth_login_admission_check`. -/
def check (a : LoginAdmission) (c : LoginCheck) : Except Result Decision × LoginAdmission :=
  match c.requests with
  | .error e => (.error e, a)
  | .ok requests =>
    let x := a.limiter.check c.now requests
    (x.1, ⟨x.2⟩)

/-- The admission behind a run of checks. -/
def run (a : LoginAdmission) (checks : List LoginCheck) : LoginAdmission :=
  checks.foldl (fun a c => (a.check c).2) a

/-- The answers of a run. -/
def answers (a : LoginAdmission) : List LoginCheck → List (Except Result Decision)
  | [] => []
  | c :: checks => (a.check c).1 :: answers (a.check c).2 checks

end LoginAdmission

/-! ## 3. Identities -/

/-- The three dimensions. -/
inductive LoginKind where
  | peer
  | account
  | device
deriving DecidableEq

/-- The index of the policy of a dimension. -/
def LoginKind.index : LoginKind → Nat
  | .peer => 0
  | .account => 1
  | .device => 2

/-- The address of a peer, where the mapped ones are those of IPv4. -/
inductive PeerAddress where
  | v4 (bytes : List UInt8)
  | v6 (bytes : Vector UInt8 16)
deriving DecidableEq

/-- Whom a bucket is for; an account is its name in lower case. -/
inductive LoginIdentity where
  | peer (address : PeerAddress)
  | account (name : List UInt8)
  | device (bytes : Vector UInt8 16)
deriving DecidableEq

/-- A letter of ASCII in lower case. -/
def lowerByte (byte : UInt8) : UInt8 := if byte ≥ 0x41 ∧ byte ≤ 0x5A then byte + 0x20 else byte

def LoginPeer.identity (p : LoginPeer) : PeerAddress :=
  if p.family = 4 then .v4 (p.address.toList.take 4)
  else if p.address.toList.take 12 = mappedPrefix then .v4 (p.address.toList.drop 12)
  else .v6 p.address

/-- Whom a check is for. -/
def LoginCheck.identity (c : LoginCheck) : LoginKind → LoginIdentity
  | .peer => .peer c.peer.identity
  | .account => .account (c.username.map lowerByte)
  | .device => .device c.device

/-- A bucket of the limiter: the index of a policy, and a key. -/
abbrev LoginBucket := Nat × Key

/-- The bucket of a check in a dimension: the key in the request for it. -/
def LoginCheck.bucket (c : LoginCheck) (k : LoginKind) : Option LoginBucket :=
  match c.requests with
  | .error _ => none
  | .ok requests => (requests[k.index]?).map fun request => (k.index, request.key)

/-! ## 4. Keys -/

section Keys

variable {n i : Nat} {l l' : List UInt8}

theorem padded_getElem (hi : i < n) : (padded n l)[i] = l.getD i 0 := by
  simp [padded]

theorem getD_of_padded (h : padded n l = padded n l') (hi : i < n) : l.getD i 0 = l'.getD i 0 := by
  rw [← padded_getElem hi, ← padded_getElem hi, h]

theorem padded_inj (hlength : l.length = l'.length) (hn : l.length ≤ n) (h : padded n l = padded n l') : l = l' := by
  refine List.ext_getElem hlength fun i hi hi' => ?_
  have heq := getD_of_padded h (i := i) (by omega)
  rwa [List.getD_eq_getElem _ _ hi, List.getD_eq_getElem _ _ hi'] at heq

theorem padded_inj_of_ne_zero (h0 : ∀ b ∈ l, b ≠ 0) (h0' : ∀ b ∈ l', b ≠ 0) (hn : l.length ≤ n)
    (hn' : l'.length ≤ n) (h : padded n l = padded n l') : l = l' := by
  have hshort : ∀ l l' : List UInt8, (∀ b ∈ l, b ≠ 0) → l.length ≤ n → padded n l = padded n l' →
      l.length ≤ l'.length := by
    intro l l' h0 hn h
    by_contra hlong
    have hi : l'.length < l.length := Nat.lt_of_not_le hlong
    have heq := getD_of_padded h (i := l'.length) (by omega)
    rw [List.getD_eq_getElem _ _ hi, List.getD_eq_default _ _ (Nat.le_refl _)] at heq
    exact h0 _ (List.getElem_mem hi) heq
  exact padded_inj (Nat.le_antisymm (hshort l l' h0 hn h) (hshort l' l h0' hn' h.symm)) hn h

end Keys

theorem keyByte_spec (b : UInt8) :
    keyByte b = (if NameByte b then .ok (lowerByte b) else .error .protocol) ∧ (NameByte b → lowerByte b ≠ 0) := by
  have hall : ∀ b : Fin 256,
      keyByte (UInt8.ofNat b) =
        (if NameByte (UInt8.ofNat b) then .ok (lowerByte (UInt8.ofNat b)) else .error .protocol) ∧
      (NameByte (UInt8.ofNat b) → lowerByte (UInt8.ofNat b) ≠ 0) := by
    decide +kernel
  have hb := hall ⟨b.toNat, b.toNat_lt⟩
  rwa [UInt8.ofNat_toNat] at hb

theorem keyByte_ok {b k : UInt8} (h : keyByte b = .ok k) : k = lowerByte b ∧ k ≠ 0 := by
  obtain ⟨hb, hne⟩ := keyByte_spec b
  rw [hb] at h
  split at h
  · rename_i hname
    obtain rfl := Except.ok.inj h
    exact ⟨rfl, hne hname⟩
  · cases h

theorem keyBytesOf_name (input : List UInt8) :
    (∃ key, keyBytesOf input = .ok key) ↔ ∀ b ∈ input, NameByte b := by
  induction input with
  | nil => exact iff_of_true ⟨[], rfl⟩ fun b hb => absurd hb List.not_mem_nil
  | cons b input ih =>
    rw [List.forall_mem_cons, ← ih, keyBytesOf, (keyByte_spec b).1]
    split
    · rename_i hname
      cases keyBytesOf input with
      | error e =>
        refine iff_of_false ?_ ?_
        · rintro ⟨key, h⟩
          cases h
        · rintro ⟨-, key, h⟩
          cases h
      | ok rest => exact iff_of_true ⟨_, rfl⟩ ⟨hname, rest, rfl⟩
    · rename_i hname
      refine iff_of_false ?_ fun h => hname h.1
      rintro ⟨key, h⟩
      cases h

theorem keyBytesOf_ok {input key : List UInt8} (h : keyBytesOf input = .ok key) :
    key = input.map lowerByte ∧ ∀ b ∈ key, b ≠ 0 := by
  induction input generalizing key with
  | nil =>
    cases h
    simp
  | cons b input ih =>
    unfold keyBytesOf at h
    cases hb : keyByte b with
    | error e =>
      rw [hb] at h
      cases h
    | ok k =>
      cases hrest : keyBytesOf input with
      | error e =>
        rw [hb, hrest] at h
        cases h
      | ok rest =>
        rw [hb, hrest] at h
        cases h
        obtain ⟨rfl, hne⟩ := keyByte_ok hb
        obtain ⟨rfl, hnes⟩ := ih hrest
        exact ⟨rfl, by simpa using ⟨hne, fun a ha => hnes _ (List.mem_map_of_mem ha)⟩⟩

/-- What the limiter is asked for. -/
structure LoginRequests (c : LoginCheck) (requests : List Request) : Prop where
  shape : requests = [⟨1, c.peer.key, 1⟩, ⟨2, padded keyBytes (c.username.map lowerByte), 1⟩,
    ⟨3, padded keyBytes c.device.toList, 1⟩]
  family : c.peer.family = 4 ∨ c.peer.family = 6
  tail : c.peer.family = 4 → ∀ b ∈ c.peer.address.toList.drop 4, b = 0
  short : c.username.length ≤ 32
  named : ∀ b ∈ c.username.map lowerByte, b ≠ 0

variable {requests : List Request}

theorem requests_ok {c : LoginCheck} (h : c.requests = .ok requests) : LoginRequests c requests := by
  unfold LoginCheck.requests usernamePrepare at h
  split at h
  · cases h
  rename_i hrange
  split at h
  · cases h
  rename_i hfamily
  split at h
  · cases h
  rename_i htail
  cases hkey : keyBytesOf c.username with
  | error e =>
    rw [hkey] at h
    cases h
  | ok key =>
    rw [hkey] at h
    cases h
    obtain ⟨rfl, hne⟩ := keyBytesOf_ok hkey
    have hshort : c.username.length ≤ 32 := by omega
    refine ⟨?_, ?_, fun h4 => ?_, hshort, hne⟩
    · have hpad : padded keyBytes (padded 32 (c.username.map lowerByte)).toList =
          padded keyBytes (c.username.map lowerByte) := by
        refine Vector.ext fun i hi => ?_
        rw [padded_getElem hi, padded_getElem hi]
        rw [List.getD_eq_getElem _ _ (by simpa [keyBytes] using hi), Vector.getElem_toList]
        exact padded_getElem (by simpa [keyBytes] using hi)
      rw [hpad]
    · by_contra hno
      exact hfamily (not_or.mp hno)
    · simpa [h4] using htail

theorem requests_valid (c : LoginCheck) : (∃ requests, c.requests = .ok requests) ↔ c.Valid := by
  have hno : ∀ e : Result, ¬ ∃ requests : List Request, Except.error e = .ok requests := by
    rintro e ⟨requests, h⟩
    cases h
  unfold LoginCheck.requests usernamePrepare
  split
  · exact iff_of_false (hno _) fun h => by have := h.length; omega
  rename_i hrange
  split
  · rename_i hfamily
    exact iff_of_false (hno _) fun h => h.peer.elim (fun h4 => hfamily.1 h4.1) hfamily.2
  rename_i hfamily
  split
  · rename_i htail
    refine iff_of_false (hno _) fun h => ?_
    rcases h.peer with ⟨-, hzero⟩ | h6
    · obtain ⟨b, hb, hne⟩ := List.any_eq_true.mp htail.2
      exact (bne_iff_ne.mp hne) (hzero b hb)
    · exact absurd (htail.1.symm.trans h6) (by decide)
  rename_i htail
  have hname := keyBytesOf_name c.username
  cases hkey : keyBytesOf c.username with
  | error e =>
    refine iff_of_false (hno e) fun h => ?_
    obtain ⟨key, hok⟩ := hname.mpr h.name
    cases hkey.symm.trans hok
  | ok key =>
    refine iff_of_true ⟨_, rfl⟩ ⟨by omega, hname.mp ⟨key, hkey⟩, ?_⟩
    by_cases h4 : c.peer.family = 4
    · exact .inl ⟨h4, by simpa [h4] using htail⟩
    · exact .inr (by_contra fun h6 => hfamily ⟨h4, h6⟩)

/-! ## 5. Buckets -/

/-- The bytes in the key of a peer. -/
def PeerAddress.bytes : PeerAddress → List UInt8
  | .v4 a => 4 :: a
  | .v6 a => 6 :: a.toList

theorem peer_key {p : LoginPeer} (h : p.family = 4 ∨ p.family = 6) :
    p.key = padded keyBytes p.identity.bytes ∧ (∀ a, p.identity = .v4 a → a.length = 4) := by
  unfold LoginPeer.key LoginPeer.mapped LoginPeer.identity
  rcases h with h | h
  · simp [h, PeerAddress.bytes]
  by_cases hmapped : p.address.toList.take 12 = mappedPrefix
  · simp [h, hmapped, PeerAddress.bytes]
  · have hall : p.address.toList.take 16 = p.address.toList := List.take_of_length_le (by simp)
    simp [h, hmapped, hall, PeerAddress.bytes]

theorem peer_key_iff {p q : LoginPeer} (hp : p.family = 4 ∨ p.family = 6) (hq : q.family = 4 ∨ q.family = 6) :
    p.key = q.key ↔ p.identity = q.identity := by
  obtain ⟨hkey, hv4⟩ := peer_key hp
  obtain ⟨hkey', hv4'⟩ := peer_key hq
  rw [hkey, hkey']
  refine ⟨fun h => ?_, fun h => by rw [h]⟩
  -- the first byte is the family, and the rest has the length of it
  have hfront := getD_of_padded h (i := 0) (by decide)
  cases hi : p.identity with
  | v4 a =>
    cases hj : q.identity with
    | v4 b =>
      have hlength := hv4 a hi
      have hlength' := hv4' b hj
      rw [hi, hj] at h
      have heq := @padded_inj keyBytes (4 :: a) (4 :: b) (by simp [hlength, hlength'])
        (by simp [hlength, keyBytes]) h
      rw [(List.cons.inj heq).2]
    | v6 b =>
      rw [hi, hj] at hfront
      exact absurd hfront (by simp [PeerAddress.bytes])
  | v6 a =>
    cases hj : q.identity with
    | v4 b =>
      rw [hi, hj] at hfront
      exact absurd hfront (by simp [PeerAddress.bytes])
    | v6 b =>
      rw [hi, hj] at h
      have heq := @padded_inj keyBytes (6 :: a.toList) (6 :: b.toList) (by simp) (by simp [keyBytes]) h
      rw [Vector.toList_inj.mp (List.cons.inj heq).2]

theorem bucket_iff {c c' : LoginCheck} {requests' : List Request} (h : c.requests = .ok requests)
    (h' : c'.requests = .ok requests') (k k' : LoginKind) :
    c.bucket k = c'.bucket k' ↔ c.identity k = c'.identity k' := by
  have hc := requests_ok h
  have hc' := requests_ok h'
  unfold LoginCheck.bucket
  rw [h, h', hc.shape, hc'.shape]
  cases k <;> cases k' <;> simp only [LoginKind.index, LoginCheck.identity] <;> try simp
  · exact peer_key_iff hc.family hc'.family
  · refine ⟨fun heq => ?_, fun heq => by rw [heq]⟩
    exact padded_inj_of_ne_zero hc.named hc'.named (by simpa [keyBytes] using hc.short)
      (by simpa [keyBytes] using hc'.short) heq
  · refine ⟨fun heq => Vector.toList_inj.mp (padded_inj (by simp) (by simp [keyBytes]) heq), fun heq => by rw [heq]⟩

/-! ## 6. One check -/

/-- What an answer takes from the buckets: one token of each of the three, or none. -/
def LoginCheck.charge (c : LoginCheck) (policies : List StoredPolicy) (answer : Except Result Decision)
    (bs : Buckets) : Buckets :=
  match answer with
  | .error _ => bs
  | .ok d =>
    fun p key => (dripAll policies c.now.toNat bs p key).take
      (if d.outcome = .admitted ∧ (c.bucket .peer = some (p, key) ∨ c.bucket .account = some (p, key) ∨
        c.bucket .device = some (p, key)) then 1 else 0)

/-- What an admission keeps: the table stands for the buckets. -/
structure LoginInv (o : LoginAdmissionOptions) (a : LoginAdmission) (bs : Buckets) : Prop where
  policies : a.limiter.policies.map (·.1) = o.policies
  wf : WellFormed a.limiter
  refines : Refines a.limiter bs

/-- What a check comes to, before and after it: THROTTLED iff one of its buckets is empty, and else ADMITTED,
    unless the table has no three slots left. -/
structure LoginStep (a : LoginAdmission) (bs : Buckets) (c : LoginCheck) : Prop where
  answered : (∃ d, (a.check c).1 = .ok d) ↔ c.Valid ∧ a.limiter.lastNow ≤ c.now
  refused : ∀ e, (a.check c).1 = .error e → (a.check c).2 = a
  drawn : ∀ d, (a.check c).1 = .ok d → (a.check c).2.limiter.lastNow = c.now ∧
    ∃ bucket : LoginKind → LoginBucket, bucket.Injective ∧ (∀ k, c.bucket k = some (bucket k)) ∧
      (d.outcome = .throttled ↔
        ∃ k, (dripAll a.limiter.policies c.now.toNat bs (bucket k).1 (bucket k).2).tokens = 0) ∧
      (d.outcome = .capacity → a.limiter.emptySlots < 3)

section Steps

variable {o : LoginAdmissionOptions} {a : LoginAdmission} {bs : Buckets} {c : LoginCheck}
  {policies : List StoredPolicy} {requests : List Request}

theorem validate_login (h : policies.map (·.1) = o.policies) (hc : LoginRequests c requests) :
    validate policies [] requests = .ok [⟨⟨1, c.peer.key, 1⟩, 0⟩,
      ⟨⟨2, padded keyBytes (c.username.map lowerByte), 1⟩, 1⟩, ⟨⟨3, padded keyBytes c.device.toList, 1⟩, 2⟩] := by
  obtain ⟨p, ps, rfl, hp, hps⟩ := List.map_eq_cons_iff.mp h
  obtain ⟨q, qs, rfl, hq, hqs⟩ := List.map_eq_cons_iff.mp hps
  obtain ⟨r, rs, rfl, hr, hrs⟩ := List.map_eq_cons_iff.mp hqs
  obtain rfl := List.map_eq_nil_iff.mp hrs
  have hcost : ∀ p : StoredPolicy, ¬(1 > p.1.burstTokens) := fun p hlt => p.2.burst (by
    have := UInt32.lt_iff_toNat_lt.mp hlt
    exact UInt32.toNat_inj.mp (Nat.lt_one_iff.mp this))
  rw [hc.shape]
  have hpid : p.1.policyId = 1 := by rw [hp]
  have hqid : q.1.policyId = 2 := by rw [hq]
  have hrid : r.1.policyId = 3 := by rw [hr]
  simp [validate, List.findIdx?_cons, hpid, hqid, hrid, hcost]

/-- The three requests with the indices of their policies. -/
def LoginCheck.items (c : LoginCheck) : List Item :=
  [⟨⟨1, c.peer.key, 1⟩, 0⟩, ⟨⟨2, padded keyBytes (c.username.map lowerByte), 1⟩, 1⟩,
    ⟨⟨3, padded keyBytes c.device.toList, 1⟩, 2⟩]

/-- The item of a dimension. -/
def LoginCheck.item (c : LoginCheck) : LoginKind → Item
  | .peer => ⟨⟨1, c.peer.key, 1⟩, 0⟩
  | .account => ⟨⟨2, padded keyBytes (c.username.map lowerByte), 1⟩, 1⟩
  | .device => ⟨⟨3, padded keyBytes c.device.toList, 1⟩, 2⟩

theorem mem_items {i : Item} : i ∈ c.items ↔ ∃ k, i = c.item k := by
  constructor
  · intro hi
    simp only [LoginCheck.items, List.mem_cons, List.not_mem_nil, or_false] at hi
    rcases hi with rfl | rfl | rfl
    · exact ⟨.peer, rfl⟩
    · exact ⟨.account, rfl⟩
    · exact ⟨.device, rfl⟩
  · rintro ⟨k, rfl⟩
    cases k <;> simp [LoginCheck.items, LoginCheck.item]

theorem item_cost (k : LoginKind) : (c.item k).request.cost.toNat = 1 := by
  cases k <;> rfl

theorem bucket_item (h : c.requests = .ok requests) (k : LoginKind) :
    c.bucket k = some ((c.item k).policyIndex, (c.item k).request.key) := by
  unfold LoginCheck.bucket
  rw [h, (requests_ok h).shape]
  cases k <;> rfl

theorem costOf_items (h : c.requests = .ok requests) (batch : Batch policies c.items) (p : Nat) (key : Key) :
    costOf c.items p key = if c.bucket .peer = some (p, key) ∨ c.bucket .account = some (p, key) ∨
      c.bucket .device = some (p, key) then 1 else 0 := by
  have hpays : ∀ k, c.bucket k = some (p, key) → costOf c.items p key = 1 := by
    intro k hk
    rw [bucket_item h] at hk
    obtain ⟨rfl, rfl⟩ := Prod.mk.inj (Option.some.inj hk)
    rw [costOf_mem batch.apart (mem_items.mpr ⟨k, rfl⟩), item_cost]
  split
  · rename_i hsome
    rcases hsome with hk | hk | hk
    · exact hpays _ hk
    · exact hpays _ hk
    · exact hpays _ hk
  · rename_i hnone
    refine costOf_of_forall fun i hi hsame => hnone ?_
    obtain ⟨k, rfl⟩ := mem_items.mp hi
    have hbucket : c.bucket k = some (p, key) := by
      rw [bucket_item h, hsame.1, hsame.2]
    cases k with
    | peer => exact .inl hbucket
    | account => exact .inr (.inl hbucket)
    | device => exact .inr (.inr hbucket)

theorem not_covers_items : ¬ Covers bs c.items ↔ ∃ k, (bs (c.item k).policyIndex (c.item k).request.key).tokens = 0 := by
  rw [← not_iff_not, not_not, not_exists]
  constructor
  · intro h k hzero
    have hk := h (c.item k) (mem_items.mpr ⟨k, rfl⟩)
    rw [item_cost, hzero] at hk
    exact absurd hk (Nat.not_succ_le_zero 0)
  · intro h i hi
    obtain ⟨k, rfl⟩ := mem_items.mp hi
    rw [item_cost]
    exact Nat.pos_of_ne_zero (h k)

theorem charge_of_ne {d : Decision} (h : d.outcome ≠ .admitted) :
    c.charge policies (.ok d) bs = dripAll policies c.now.toNat bs := by
  funext p key
  show (dripAll policies c.now.toNat bs p key).take _ = _
  rw [if_neg fun hand => h hand.1]
  exact take_zero _

theorem refines_dripped_now {l : RateLimiter} {now : UInt64} (ref : Refines l bs) (h : l.lastNow = now) :
    Refines l (dripAll l.policies now.toNat bs) := by
  subst h
  exact ref.dripped (UInt64.le_refl _)

/-- **A check draws one token from each of its three buckets, or none.** -/
theorem login_step (inv : LoginInv o a bs) (c : LoginCheck) :
    LoginStep a bs c ∧ LoginInv o (a.check c).2 (c.charge a.limiter.policies (a.check c).1 bs) := by
  have hasked := requests_valid c
  have hrefused : ∀ e, a.check c = (.error e, a) → ¬ (c.Valid ∧ a.limiter.lastNow ≤ c.now) →
      LoginStep a bs c ∧ LoginInv o (a.check c).2 (c.charge a.limiter.policies (a.check c).1 bs) := by
    intro e he hnot
    have herror : ∀ d, (a.check c).1 ≠ .ok d := by
      intro d hd
      rw [he] at hd
      cases hd
    refine ⟨⟨iff_of_false (fun ⟨d, hd⟩ => herror d hd) hnot, fun _ _ => by rw [he],
      fun d hd => absurd hd (herror d)⟩, ?_⟩
    rw [he]
    exact inv
  cases hrequests : c.requests with
  | error e =>
    refine hrefused e ?_ fun h => ?_
    · unfold LoginAdmission.check
      rw [hrequests]
    · obtain ⟨requests, hok⟩ := hasked.mpr h.1
      cases hrequests.symm.trans hok
  | ok requests =>
    have hc := requests_ok hrequests
    have hvalid : validate a.limiter.policies [] requests = .ok c.items := validate_login inv.policies hc
    have batch := (batch_validate (batch_nil _) hvalid).1
    have hcheck : a.limiter.check c.now requests =
        if c.now < a.limiter.lastNow then (.error .invalidArgument, a.limiter)
        else a.limiter.settle c.now c.items := by
      unfold RateLimiter.check
      rw [hvalid, hc.shape]
      rfl
    by_cases hearly : c.now < a.limiter.lastNow
    · refine hrefused .invalidArgument ?_ fun h => UInt64.not_le.mpr hearly h.2
      unfold LoginAdmission.check
      rw [hrequests]
      dsimp only
      rw [hcheck, if_pos hearly]
    · have hnow := UInt64.not_lt.mp hearly
      have hanswer := settle_refines inv.wf inv.refines hnow batch
      rw [if_neg hearly] at hcheck
      have hx : a.check c = ((a.limiter.settle c.now c.items).1, ⟨(a.limiter.settle c.now c.items).2⟩) := by
        unfold LoginAdmission.check
        rw [hrequests]
        dsimp only
        rw [hcheck]
      have hmap : (a.limiter.settle c.now c.items).2.policies.map (·.1) = o.policies := by
        rw [hanswer.policies]
        exact inv.policies
      obtain ⟨d, hd, hlast, hthrottled, hcapacity⟩ := settle_outcome inv.wf inv.refines hnow batch
      have hideal := hanswer.ideal
      rw [hd] at hideal
      rw [hx, hd]
      refine ⟨⟨iff_of_true ⟨d, by rw [hx, hd]⟩ ⟨hasked.mp ⟨_, hrequests⟩, hnow⟩, fun e he => ?_, fun d' hd' => ?_⟩, ?_⟩
      · rw [hx, hd] at he
        cases he
      · rw [hx, hd] at hd'
        obtain rfl := Except.ok.inj hd'
        refine ⟨by rw [hx]; exact hlast, fun k => ((c.item k).policyIndex, (c.item k).request.key), ?_,
          bucket_item hrequests, hthrottled.trans not_covers_items, hcapacity⟩
        intro k k' heq
        have hindex := (Prod.mk.inj heq).1
        cases k <;> cases k' <;> first | rfl | cases hindex
      have hrefines : ∀ bs', Refines (a.limiter.settle c.now c.items).2 bs' →
          c.charge a.limiter.policies (.ok d) bs = bs' →
          LoginInv o ⟨(a.limiter.settle c.now c.items).2⟩ (c.charge a.limiter.policies (.ok d) bs) := by
        intro bs' hrefines hcharge
        rw [hcharge]
        exact ⟨hmap, hanswer.wf, hrefines⟩
      rcases hideal with ⟨hobserved, hrefine⟩ | ⟨hobserved, hrefine⟩
      · -- no slot: the buckets only drip
        have hfull : d.outcome ≠ .admitted := by
          intro houtcome
          simp [observed, houtcome] at hobserved
        have hdripped := refines_dripped_now hrefine hlast
        rw [hanswer.policies] at hdripped
        exact hrefines _ hdripped (charge_of_ne hfull)
      · unfold idealSettle at hobserved hrefine
        dsimp only at hobserved hrefine
        by_cases hall : Covers (dripAll a.limiter.policies c.now.toNat bs) c.items
        · rw [if_pos hall] at hobserved hrefine
          have hadmitted : d.outcome = .admitted := by
            cases houtcome : d.outcome with
            | admitted => rfl
            | _ => simp [observed, houtcome] at hobserved
          refine hrefines _ hrefine ?_
          funext p key
          have hcost := costOf_items hrequests batch p key
          show (dripAll a.limiter.policies c.now.toNat bs p key).take _ =
            (dripAll a.limiter.policies c.now.toNat bs p key).take (costOf c.items p key)
          rw [hcost]
          simp only [hadmitted, true_and]
        · rw [if_neg hall] at hrefine
          have hshort := hthrottled.mpr hall
          exact hrefines _ hrefine (charge_of_ne (by rw [hshort]; exact RateOutcome.noConfusion))

end Steps

/-! ## 7. Runs -/

/-- The buckets behind a run of checks. -/
def LoginAdmission.charges (a : LoginAdmission) : List LoginCheck → Buckets → Buckets
  | [], bs => bs
  | c :: checks, bs => charges (a.check c).2 checks (c.charge a.limiter.policies (a.check c).1 bs)

variable {o : LoginAdmissionOptions} {a : LoginAdmission}

theorem loginInv_run {bs : Buckets} (inv : LoginInv o a bs)
    (checks : List LoginCheck) : LoginInv o (a.run checks) (a.charges checks bs) := by
  induction checks generalizing a bs with
  | nil => exact inv
  | cons c checks ih => exact ih (login_step inv c).2

theorem loginInv_create {now : UInt64} {limiterMemory memory : Bool} (h : LoginAdmission.create o now limiterMemory memory = .ok a) :
    LoginInv o a (fullBuckets a.limiter.policies now.toNat) := by
  unfold LoginAdmission.create at h
  cases hcreate : Security.create o.maxKeys o.maxMemoryBytes o.policies now limiterMemory with
  | error e =>
    rw [hcreate] at h
    cases h
  | ok limiter =>
    rw [hcreate] at h
    simp only [bind, Except.bind] at h
    split at h
    · cases h
    obtain rfl := Except.ok.inj h
    have hfresh := fresh_create hcreate
    exact ⟨hfresh.policies, hfresh.wellFormed, hfresh.refines⟩

/-- **Whom a login is charged to**: a check that can be answered takes one token from each of its three buckets,
    or none at all because one of them is empty or the table is full; two checks have a bucket in common iff they
    have the identity in common. -/
theorem login_admission {o : LoginAdmissionOptions} {now : UInt64} {limiterMemory memory : Bool}
    {a : LoginAdmission} (h : LoginAdmission.create o now limiterMemory memory = .ok a) (before : List LoginCheck)
    (c : LoginCheck) :
    let bs := a.charges before (fullBuckets a.limiter.policies now.toNat)
    let bs' := a.charges (before ++ [c]) (fullBuckets a.limiter.policies now.toNat)
    Refines (a.run before).limiter bs ∧ Refines (a.run (before ++ [c])).limiter bs' ∧
      LoginStep (a.run before) bs c ∧
      bs' = c.charge (a.run before).limiter.policies ((a.run before).check c).1 bs ∧
      ∀ (c' : LoginCheck) (k k' : LoginKind), c.Valid → c'.Valid →
        (c.bucket k = c'.bucket k' ↔ c.identity k = c'.identity k') := by
  have hcharges : ∀ (before : List LoginCheck) (a : LoginAdmission) (bs : Buckets),
      a.charges (before ++ [c]) bs =
        c.charge (a.run before).limiter.policies ((a.run before).check c).1 (a.charges before bs) := by
    intro before
    induction before with
    | nil => exact fun _ _ => rfl
    | cons c' before ih => exact fun a bs => ih _ _
  have inv := loginInv_create h
  refine ⟨(loginInv_run inv before).refines, (loginInv_run inv _).refines, (login_step (loginInv_run inv before) c).1,
    hcharges before a _, fun c' k k' hc hc' => ?_⟩
  obtain ⟨requests, hr⟩ := (requests_valid c).mpr hc
  obtain ⟨requests', hr'⟩ := (requests_valid c').mpr hc'
  exact bucket_iff hr hr' k k'

/-- A login of `Abc` from a peer with a device. -/
def sampleLogin (now : UInt64) (peer : LoginPeer) (device : UInt8) : LoginCheck :=
  ⟨now, peer, [0x41, 0x62, 0x63], Vector.replicate 16 device⟩

/-- `10.0.0.1`, by either family. -/
def plainPeer : LoginPeer := ⟨4, padded 16 [10, 0, 0, 1]⟩
def mappedPeer : LoginPeer := ⟨6, padded 16 (mappedPrefix ++ [10, 0, 0, 1])⟩

/-- An address that may log in twice: the third check finds the bucket of the other two empty. -/
theorem login_admission_mapped :
    ∃ a, LoginAdmission.create ⟨8, 4096, ⟨2, 3000⟩, ⟨5, 30000⟩, ⟨10, 6000⟩⟩ 0 true true = .ok a ∧
      (a.answers [sampleLogin 5 plainPeer 1, sampleLogin 6 mappedPeer 2]).map
        (fun x => x.toOption.map (·.outcome)) = [some .admitted, some .admitted] ∧
      ∃ d, ((a.run [sampleLogin 5 plainPeer 1, sampleLogin 6 mappedPeer 2]).check
        (sampleLogin 7 plainPeer 3)).1 = .ok d ∧ d.outcome = .throttled := by
  refine ⟨_, rfl, by decide +kernel, ?_⟩
  obtain ⟨-, -, hstep, -⟩ := login_admission (show LoginAdmission.create ⟨8, 4096, ⟨2, 3000⟩, ⟨5, 30000⟩, ⟨10, 6000⟩⟩ 0
    true true = .ok _ from rfl) [sampleLogin 5 plainPeer 1, sampleLogin 6 mappedPeer 2] (sampleLogin 7 plainPeer 3)
  obtain ⟨d, hd⟩ := hstep.answered.mpr
    ⟨⟨by decide +kernel, by decide +kernel, .inl ⟨rfl, by decide +kernel⟩⟩, by decide +kernel⟩
  obtain ⟨-, bucket, -, hbucket, hthrottled, -⟩ := hstep.drawn d hd
  have hpeer : bucket .peer = (0, plainPeer.key) := Option.some.inj ((hbucket .peer).symm.trans rfl)
  refine ⟨d, hd, hthrottled.mpr ⟨.peer, ?_⟩⟩
  rw [hpeer]
  decide +kernel

end Vireo.Service
