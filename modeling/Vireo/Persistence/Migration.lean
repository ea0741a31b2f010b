/-
  File:      Vireo/Persistence/Migration.lean
  Subject:   THE CATALOGUE OF SCHEMA MIGRATIONS: what a caller hands in, and what is checked first.

  A catalogue is the complete list of versions `1 .. count`; each version is a list of statements.
  Nothing here touches the database.
-/
import Vireo.Lib.BigEndian
import Vireo.Lib.Checks
import Vireo.Persistence.Statement

namespace Vireo.Persistence

open Vireo.Lib List

/-! ## 1. The catalogue -/

/-- `vireo_mysql_migration_step_t`: the exact bytes of one statement. A NULL address is the empty
    string: both are refused together. -/
structure MigrationStep where
  sql : Bytes

/-- `vireo_mysql_migration_t`. A NULL array of steps is the empty one: both are refused together. -/
structure Migration where
  version : UInt32
  steps : List MigrationStep

def migrationsMax : Nat := 128
def migrationStepsMax : Nat := 64
def migrationTotalStepsMax : Nat := 1024
def migrationSqlBytesMax : Nat := 4194304

/-- `VIREO_MYSQL_SQL_MAX`. -/
def sqlMax : Nat := 65536

/-- The statements of the migrator. -/
inductive MigrationSql where
  /-- `SELECT DATABASE()` -/
  | currentDatabase
  /-- `SELECT GET_LOCK(?,0)` -/
  | getLock
  /-- `SELECT RELEASE_LOCK(?)` -/
  | releaseLock
  /-- `SELECT TABLE_TYPE,ENGINE,TABLE_NAME FROM information_schema.TABLES WHERE TABLE_SCHEMA=? AND
      TABLE_NAME='vireo_schema_migrations'` -/
  | table
  /-- `SELECT COUNT(*) FROM information_schema.TABLES WHERE TABLE_SCHEMA=? AND
      TABLE_NAME<>'vireo_schema_migrations'` -/
  | otherTables
  /-- `CREATE TABLE IF NOT EXISTS vireo_schema_migrations (version INT UNSIGNED NOT NULL,checksum
      BINARY(32) NOT NULL,state TINYINT UNSIGNED NOT NULL,PRIMARY KEY (version)) ENGINE=InnoDB` -/
  | createHistory
  /-- `SELECT COLUMN_NAME,COLUMN_TYPE,IS_NULLABLE,COLUMN_DEFAULT,EXTRA,GENERATION_EXPRESSION FROM
      information_schema.COLUMNS WHERE TABLE_SCHEMA=? AND TABLE_NAME='vireo_schema_migrations' ORDER
      BY ORDINAL_POSITION` -/
  | columns
  /-- `SELECT INDEX_NAME,NON_UNIQUE,SEQ_IN_INDEX,COLUMN_NAME,SUB_PART,INDEX_TYPE FROM
      information_schema.STATISTICS WHERE TABLE_SCHEMA=? AND TABLE_NAME='vireo_schema_migrations'
      ORDER BY INDEX_NAME,SEQ_IN_INDEX` -/
  | statistics
  /-- `SELECT COUNT(*) FROM information_schema.TABLE_CONSTRAINTS WHERE TABLE_SCHEMA=? AND
      TABLE_NAME='vireo_schema_migrations' AND CONSTRAINT_TYPE<>'PRIMARY KEY'` -/
  | constraints
  /-- `SELECT COUNT(*) FROM information_schema.TRIGGERS WHERE TRIGGER_SCHEMA=? AND
      EVENT_OBJECT_TABLE='vireo_schema_migrations'` -/
  | triggers
  /-- `SELECT COUNT(*) FROM information_schema.PARTITIONS WHERE TABLE_SCHEMA=? AND
      TABLE_NAME='vireo_schema_migrations' AND PARTITION_NAME IS NOT NULL` -/
  | partitions
  /-- `SELECT version,checksum,state FROM vireo_schema_migrations ORDER BY version` -/
  | selectHistory
  /-- `INSERT INTO vireo_schema_migrations(version,checksum,state) VALUES(?,?,0)` -/
  | insertDirty
  /-- A step of the catalogue. -/
  | ddl (step : MigrationStep)
  /-- `UPDATE vireo_schema_migrations SET state=1 WHERE version=? AND checksum=? AND state=0` -/
  | markApplied

/-- The statements that change the database. -/
def MigrationSql.writes : MigrationSql → Bool
  | createHistory | insertDirty | ddl _ | markApplied => true
  | _ => false

/-- The parameters the migrator binds (`vireo_mysql_parameter_t`). -/
inductive MigrationParam where
  | u64 (value : UInt64)
  | text (value : Bytes)
  | bytes (value : Bytes)
deriving DecidableEq

/-! ## 2. The checks before any side effect -/

/-- A character of a database name, at place `n`. -/
def databaseChar (n : Nat) (ch : UInt8) : Bool :=
  (97 ≤ ch && ch ≤ 122) || (n != 0 && ((48 ≤ ch && ch ≤ 57) || ch == 95))

/-- The loop over the database name, up to its NUL: the length, at most 65, or no length when a
    character is refused. -/
def databaseLength (n : Nat) : Bytes → Option Nat
  | [] => some n
  | ch :: rest =>
    if n ≤ 64 ∧ ch ≠ 0 then
      if databaseChar n ch then databaseLength (n + 1) rest else none
    else some n

/-- The checks of one step, with the sum of the bytes so far. -/
def validateStep (bytes : Nat) (s : MigrationStep) : Except Failure Nat :=
  if s.sql.length = 0 then .error .invalidArgument
  else
    match checkedSizeAdd bytes s.sql.length with
    | .error _ => .error .overflow
    | .ok bytes =>
      if s.sql.length > sqlMax ∨ bytes > migrationSqlBytesMax then .error .range
      else if 0 ∈ s.sql then .error .invalidArgument
      else .ok bytes

/-- The checks of version `i + 1`, with the sums of the steps and of the bytes so far. -/
def validateMigration (i : Nat) (sums : Nat × Nat) (m : Migration) : Except Failure (Nat × Nat) :=
  if m.version.toNat ≠ i + 1 ∨ m.steps.length = 0 then .error .invalidArgument
  else
    match checkedSizeAdd sums.1 m.steps.length with
    | .error _ => .error .overflow
    | .ok total =>
      if m.steps.length > migrationStepsMax ∨ total > migrationTotalStepsMax then .error .range
      else
        match m.steps.foldlM validateStep sums.2 with
        | .error r => .error r
        | .ok bytes => .ok (total, bytes)

/-- The loop over the catalogue, from index `i`. -/
def validateCatalogue (i : Nat) (sums : Nat × Nat) : List Migration → Except Failure (Nat × Nat)
  | [] => .ok sums
  | m :: rest =>
    match validateMigration i sums m with
    | .error r => .error r
    | .ok sums => validateCatalogue (i + 1) sums rest

/-- `validate`: `none` is a missing name of the database, or a NULL catalogue whose count is not
    zero. -/
def validate (database : Option Bytes) (m : Option (List Migration)) : Result :=
  match database, m with
  | some database, some m =>
    if m.length > migrationsMax then .range
    else
      match databaseLength 0 database with
      | none => .invalidArgument
      | some n =>
        if n = 0 ∨ n > 64 then .invalidArgument
        else
          match validateCatalogue 0 (0, 0) m with
          | .error f => f.val
          | .ok _ => .ok
  | _, _ => .invalidArgument

theorem validateMigration_ok {m : Migration} {i : Nat} {sums sums' : Nat × Nat}
    (h : validateMigration i sums m = .ok sums') :
    m.version.toNat = i + 1 ∧ m.steps.length ≤ migrationStepsMax ∧ ∀ s ∈ m.steps, s.sql.length ≤ sqlMax := by
  unfold validateMigration at h
  split at h
  · cases h
  rename_i hfirst
  split at h
  · cases h
  split at h
  · cases h
  rename_i hmax
  split at h
  · cases h
  rename_i hsteps
  refine ⟨by omega, by omega, ?_⟩
  generalize m.steps = steps, sums.2 = bytes at hsteps
  induction steps generalizing bytes with
  | nil => exact forall_mem_nil _
  | cons s steps ih =>
    rw [foldlM_cons] at hsteps
    obtain ⟨bytes', hs, hrest⟩ := bind_eq_ok.mp hsteps
    refine forall_mem_cons.mpr ⟨?_, ih _ hrest⟩
    unfold validateStep at hs
    split at hs
    · cases hs
    split at hs
    · cases hs
    split at hs
    · cases hs
    · omega

theorem validateCatalogue_ok {m : List Migration} {i : Nat} {sums sums' : Nat × Nat}
    (h : validateCatalogue i sums m = .ok sums') {j : Nat} {entry : Migration} (hj : m[j]? = some entry) :
    ∃ sums sums', validateMigration (i + j) sums entry = .ok sums' := by
  induction m generalizing i sums j with
  | nil => cases hj
  | cons first rest ih =>
    unfold validateCatalogue at h
    cases hm : validateMigration i sums first with
    | error r =>
      rw [hm] at h
      cases h
    | ok next =>
      rw [hm] at h
      cases j with
      | zero =>
        cases hj
        exact ⟨sums, next, hm⟩
      | succ j =>
        rw [← Nat.succ_add_eq_add_succ]
        exact ih h hj

/-- **What `validate` admits**: a catalogue of versions that each pass in their place. -/
theorem validate_ok {database : Option Bytes} {m : Option (List Migration)} (h : validate database m = .ok) :
    ∃ catalogue, m = some catalogue ∧ ∀ (i : Nat) (entry : Migration), catalogue[i]? = some entry →
      ∃ sums sums', validateMigration i sums entry = .ok sums' := by
  unfold validate at h
  split at h
  · rename_i database catalogue
    refine ⟨catalogue, rfl, fun i entry hi => ?_⟩
    split at h
    · cases h
    split at h
    · cases h
    split at h
    · cases h
    cases hc : validateCatalogue 0 (0, 0) catalogue with
    | error f =>
      rw [hc] at h
      exact absurd h f.property
    | ok sums => exact Nat.zero_add i ▸ validateCatalogue_ok hc hi
  · cases h

/-! ## 3. What is hashed -/

/-- `big_endian`. -/
def bigEndian32 (n : Nat) : Bytes :=
  [UInt8.ofNat (n >>> 24), UInt8.ofNat (n >>> 16), UInt8.ofNat (n >>> 8), UInt8.ofNat n]

/-- The bytes of an ASCII text. -/
def ascii (text : String) : Bytes := text.toList.map fun ch => UInt8.ofNat ch.toNat

/-- The domain of the hash, with its NUL. -/
def migrationDomain : Bytes := ascii "vireo.mysql.migration.v1" ++ [0]

/-- The bytes whose digest stands for a version: domain, version, number of steps, and each step with
    its length. -/
def migrationBytes (m : Migration) : Bytes :=
  migrationDomain ++ bigEndian32 m.version.toNat ++ bigEndian32 m.steps.length ++
    m.steps.flatMap fun s => bigEndian32 s.sql.length ++ s.sql

/-- A SHA-256 digest. -/
abbrev Digest := { d : Bytes // d.length = 32 }

/-- `vireo_mysql_migration_hash`, over the hash function `sha256`. -/
def migrationHash (sha256 : Bytes → Digest) (m : Migration) : Digest := sha256 (migrationBytes m)

theorem bigEndian32_eq (n : Nat) : bigEndian32 n = toBE 4 n := by
  simp [bigEndian32, toBE, Nat.shiftRight_eq_div_pow]

/-- **What is hashed is injective**, and so is the checksum where SHA-256 does not collide. -/
theorem migrationBytes_inj {database database' : Option Bytes} {catalogue catalogue' : List Migration}
    (h : validate database (some catalogue) = .ok) (h' : validate database' (some catalogue') = .ok)
    {m m' : Migration} (hm : m ∈ catalogue) (hm' : m' ∈ catalogue') :
    (migrationBytes m = migrationBytes m' ↔
      m.version = m'.version ∧ m.steps.map (·.sql) = m'.steps.map (·.sql)) ∧
    ∀ sha256 : Bytes → Digest, Set.InjOn sha256 {migrationBytes m, migrationBytes m'} →
      (migrationHash sha256 m = migrationHash sha256 m' ↔
        m.version = m'.version ∧ m.steps.map (·.sql) = m'.steps.map (·.sql)) := by
  have hbounds : ∀ {database catalogue}, validate database (some catalogue) = .ok → ∀ m ∈ catalogue,
      m.steps.length < 256 ^ 4 ∧ ∀ t ∈ m.steps.map (·.sql), t.length < 256 ^ 4 := by
    intro database catalogue h m hm
    obtain ⟨_, e, hall⟩ := validate_ok h
    cases e
    obtain ⟨i, hi⟩ := mem_iff_getElem?.mp hm
    obtain ⟨_, _, hpass⟩ := hall i m hi
    obtain ⟨-, hcount, hsteps⟩ := validateMigration_ok hpass
    refine ⟨hcount.trans_lt (by decide), fun t ht => ?_⟩
    obtain ⟨s, hs, rfl⟩ := mem_map.mp ht
    exact (hsteps s hs).trans_lt (by decide)
  obtain ⟨hcount, htexts⟩ := hbounds h m hm
  obtain ⟨hcount', htexts'⟩ := hbounds h' m' hm'
  have hbytes : ∀ m : Migration, migrationBytes m = migrationDomain ++ (toBE 4 m.version.toNat ++
      (toBE 4 m.steps.length ++ (m.steps.map (·.sql)).flatMap fun t => toBE 4 t.length ++ t)) := fun m => by
    simp only [migrationBytes, bigEndian32_eq, append_assoc, flatMap_map]
  have hiff : migrationBytes m = migrationBytes m' ↔
      m.version = m'.version ∧ m.steps.map (·.sql) = m'.steps.map (·.sql) := by
    rw [hbytes, hbytes]
    refine ⟨fun heq => ?_, fun ⟨hversion, hsteps⟩ => ?_⟩
    · obtain ⟨hversion, heq⟩ := append_inj (append_cancel_left heq) (by rw [length_toBE, length_toBE])
      obtain ⟨hlength, heq⟩ := append_inj heq (by rw [length_toBE, length_toBE])
      have hsame := toBE_inj hcount hcount' hlength
      exact ⟨UInt32.toNat_inj.mp (toBE_inj m.version.toNat_lt m'.version.toNat_lt hversion),
        framed_inj (by rwa [length_map, length_map]) htexts htexts' heq⟩
    · have hlength := congrArg length hsteps
      rw [length_map, length_map] at hlength
      rw [hversion, hlength, hsteps]
  refine ⟨hiff, fun sha256 hinj => ?_⟩
  rw [← hiff]
  exact hinj.eq_iff (.inl rfl) (.inr rfl)

/-- A step that is split in two gives other bytes. -/
theorem migrationBytes_inj_split :
    migrationBytes ⟨1, [⟨[65, 66]⟩]⟩ ≠ migrationBytes ⟨1, [⟨[65]⟩, ⟨[66]⟩]⟩ := fun h => by
  have hiff := (@migrationBytes_inj (some [118]) (some [118]) [⟨1, [⟨[65, 66]⟩]⟩] [⟨1, [⟨[65]⟩, ⟨[66]⟩]⟩]
    (by decide) (by decide) _ _ (mem_singleton.mpr rfl) (mem_singleton.mpr rfl)).1
  exact absurd (hiff.mp h).2 (by decide)

/-- One lower-case hexadecimal digit. -/
def hexDigit (n : UInt8) : UInt8 := if n < 10 then 48 + n else 87 + n

/-- `vireo_mysql_migration_lock_name` from the digest of the database name: the first 24 bytes in
    hexadecimal. -/
def lockName (digest : Digest) : Bytes :=
  ascii "vireo:migrate:" ++
    (digest.val.take 24).flatMap fun (b : UInt8) => [hexDigit (b >>> 4), hexDigit (b &&& 15)]

/-! ## 4. Decimal cells of 32 bits -/

/-- The digit loop of `number`, from the value read so far. -/
def digits32 (n : Nat) : Bytes → Option Nat
  | [] => some n
  | b :: rest =>
    if b < 48 ∨ 57 < b then none
    else
      match checkedU32Mul n 10 with
      | .error _ => none
      | .ok n =>
        match checkedU32Add n (b - 48).toNat with
        | .error _ => none
        | .ok n => digits32 n rest

/-- `number`: a decimal `uint32_t`; `NULL`, an empty cell, any other byte and an overflow are
    refused. -/
def number32 : Cell → Option Nat
  | none => none
  | some bytes => if bytes.length = 0 then none else digits32 0 bytes

/-- The cell of an unsigned column of at most 32 bits. -/
def u32Cell (n : Nat) : Cell := some (decimalDigits 10 n)

theorem digits32_step {v d : Nat} (rest : Bytes) (h : d < 10) (hv : v * 10 + d < 2 ^ 32) :
    digits32 v (UInt8.ofNat (48 + d) :: rest) = digits32 (v * 10 + d) rest := by
  have hb := digitByte_toNat h
  have hbyte : ¬ (UInt8.ofNat (48 + d) < 48 ∨ 57 < UInt8.ofNat (48 + d)) := by
    rw [UInt8.lt_iff_toNat_lt, UInt8.lt_iff_toNat_lt, hb]
    show ¬ (48 + d < 48 ∨ 57 < 48 + d)
    omega
  have hdigit : (UInt8.ofNat (48 + d) - 48).toNat = d := by
    rw [UInt8.toNat_sub_of_le]
    · rw [hb]
      show 48 + d - 48 = d
      omega
    · rw [UInt8.le_iff_toNat_le, hb]
      show 48 ≤ 48 + d
      omega
  have hmax : u32Max = 2 ^ 32 - 1 := rfl
  rw [digits32, if_neg hbyte, checkedU32Mul_of_le (by omega)]
  dsimp only
  rw [hdigit, checkedU32Add_of_le (by omega)]

theorem number32_decimal {n : Nat} (h : n < 2 ^ 32) : number32 (u32Cell n) = some n := by
  have hlen := (length_decimalDigits 9 n).2
  have hread := read_decimalDigits digits32 (fun v d rest => digits32_step rest) 10 n [] (by decide) (by omega) h
  rw [List.append_nil] at hread
  show (if (decimalDigits 10 n).length = 0 then none else digits32 0 (decimalDigits 10 n)) = some n
  rw [if_neg hlen, hread]
  rfl

/-- `UINT32_MAX` is the largest accepted value. -/
example : number32 (some [52, 50, 57, 52, 57, 54, 55, 50, 57, 53]) = some u32Max ∧
    number32 (some [52, 50, 57, 52, 57, 54, 55, 50, 57, 54]) = none := by decide +kernel

end Vireo.Persistence
