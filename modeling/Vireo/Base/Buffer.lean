/-
  File:      Vireo/Base/Buffer.lean
  Subject:   THE BYTE BUFFER (`src/base/buffer.c`) and the queue of bytes it implements.

  One allocation, a read index and a write index; the bytes between the two are unread.

  An allocation is what its memory happens to hold, or nothing when it fails; the old storage of a
  change is cleared and freed, so nothing of it stays in the model. Null buffers do not exist here.
-/
import Vireo.Base.Result
import Vireo.Lib.Region

namespace Vireo.Base

open Vireo.Lib List
open UInt64 (le_iff_toNat_le le_refl le_trans not_lt toNat_sub_of_le toNat_zero zero_le)

/-- What an allocation returns: memory with whatever bytes it holds, or nothing. -/
abbrev Allocation := Option (Nat → UInt8)

/-- `struct vireo_buffer`. -/
structure Buffer where
  data : List UInt8
  capacity : UInt64
  readIndex : UInt64
  writeIndex : UInt64
deriving DecidableEq

/-- `vireo_buffer_info_t`. -/
structure BufferInfo where
  capacity : UInt64
  readableSize : UInt64
  tailSpace : UInt64
deriving DecidableEq

/-- The first `size` bytes behind a pointer. -/
def bytesAt (memory : Option (Nat → UInt8)) (size : UInt64) : List UInt8 :=
  match memory with
  | none => []
  | some m => (List.range size.toNat).map m

/-- `vireo_secure_clear` on a part of a region. -/
def secureClear (data : List UInt8) (pos n : Nat) : List UInt8 :=
  overwrite data pos (List.replicate n 0)

namespace Buffer

/-- `VIREO_BUFFER_MAX_CAPACITY`. -/
def maxCapacity : UInt64 := 67108864

/-! ## 1. The operations -/

/-- `vireo_buffer_create_with_allocator`; `object` says whether the control block was allocated. -/
def create (capacity : UInt64) (object : Bool) (storage : Allocation) : Except Result Buffer :=
  if capacity = 0 ∨ capacity > maxCapacity then .error .range
  else if object = false then .error .noMemory
  else
    match storage with
    | none => .error .noMemory
    | some memory => .ok ⟨bytesAt (some memory) capacity, capacity, 0, 0⟩

variable (b : Buffer)

/-- `vireo_buffer_inspect`. -/
def inspect : BufferInfo :=
  ⟨b.capacity, b.writeIndex - b.readIndex, b.capacity - b.writeIndex⟩

/-- `vireo_buffer_append`. -/
def append (data : Option (Nat → UInt8)) (size : UInt64) : Result × Buffer :=
  if size ≠ 0 ∧ data.isNone then (.invalidArgument, b)
  else
    match checkedU64Add b.writeIndex size with
    | .error e => (e, b)
    | .ok nextWrite =>
      match checkedSizeRange b.writeIndex size b.capacity with
      | .ok =>
        (.ok, { b with
          data :=
            if size ≠ 0 then overwrite b.data b.writeIndex.toNat (bytesAt data size) else b.data
          writeIndex := nextWrite })
      | e => (e, b)

/-- `vireo_buffer_peek`: the bytes behind the returned pointer, none for a null one, and the
    length. -/
def peek : Option (List UInt8) × UInt64 :=
  let size := b.writeIndex - b.readIndex
  (if size = 0 then none else some (slice b.data b.readIndex.toNat size.toNat), size)

/-- `vireo_buffer_consume`. -/
def consume (size : UInt64) : Result × Buffer :=
  match checkedSizeRange b.readIndex size b.writeIndex with
  | .ok =>
    let data := secureClear b.data b.readIndex.toNat size.toNat
    let readIndex := b.readIndex + size
    if readIndex = b.writeIndex then (.ok, { b with data, readIndex := 0, writeIndex := 0 })
    else (.ok, { b with data, readIndex })
  | e => (e, b)

/-- `vireo_buffer_compact`. -/
def compact : Result × Buffer :=
  let readable := b.writeIndex - b.readIndex
  let data :=
    if readable ≠ 0 ∧ b.readIndex ≠ 0 then
      overwrite b.data 0 (slice b.data b.readIndex.toNat readable.toNat)
    else b.data
  (.ok, { b with
    data := secureClear data readable.toNat (b.writeIndex - readable).toNat
    readIndex := 0
    writeIndex := readable })

/-- `replace_storage`. -/
def replaceStorage (capacity : UInt64) (storage : Allocation) : Result × Buffer :=
  let readable := b.writeIndex - b.readIndex
  match storage with
  | none => (.noMemory, b)
  | some memory =>
    let candidate := bytesAt (some memory) capacity
    (.ok, {
      data :=
        if readable ≠ 0 then
          overwrite candidate 0 (slice b.data b.readIndex.toNat readable.toNat)
        else candidate
      capacity := capacity
      readIndex := 0
      writeIndex := readable })

/-- `vireo_buffer_reserve`: leave it, compact it, or grow to at least twice the size. -/
def reserve (minTailSpace : UInt64) (storage : Allocation) : Result × Buffer :=
  let readable := b.writeIndex - b.readIndex
  match checkedU64Add readable minTailSpace with
  | .error e => (e, b)
  | .ok required =>
    if required > maxCapacity then (.range, b)
    else if minTailSpace ≤ b.capacity - b.writeIndex then (.ok, b)
    else if required ≤ b.capacity then b.compact
    else
      let doubled :=
        if b.capacity ≤ maxCapacity / 2 then checkedU64Mul b.capacity 2 else .ok maxCapacity
      match doubled with
      | .error e => (e, b)
      | .ok nextCapacity =>
        b.replaceStorage (if nextCapacity < required then required else nextCapacity) storage

/-- `vireo_buffer_shrink`. -/
def shrink (capacity : UInt64) (storage : Allocation) : Result × Buffer :=
  let readable := b.writeIndex - b.readIndex
  if capacity = 0 ∨ capacity > b.capacity ∨ capacity < readable then (.range, b)
  else if capacity = b.capacity then (.ok, b)
  else b.replaceStorage capacity storage

/-! ## 2. The unread bytes -/

/-- The bytes that were appended and not consumed. -/
def unread : List UInt8 :=
  slice b.data b.readIndex.toNat (b.writeIndex.toNat - b.readIndex.toNat)

/-- The indices are in order within the storage, and the storage within its limit. -/
structure Inv (b : Buffer) : Prop where
  storage : b.data.length = b.capacity.toNat
  read_le : b.readIndex ≤ b.writeIndex
  write_le : b.writeIndex ≤ b.capacity
  capacity_le : b.capacity ≤ maxCapacity

/-- A call failed and changed nothing, or it succeeded and left the unread bytes `q`. -/
def Leaves (q : List UInt8) (r : Result × Buffer) : Prop :=
  (r.1 ≠ .ok ∧ r.2 = b) ∨ (r.1 = .ok ∧ r.2.Inv ∧ r.2.unread = q)

end Buffer

section Operations

variable {b : Buffer}

theorem Buffer.Inv.bounds (inv : b.Inv) : b.readIndex.toNat ≤ b.writeIndex.toNat ∧
    b.writeIndex.toNat ≤ b.capacity.toNat ∧ b.capacity.toNat ≤ 67108864 :=
  ⟨le_iff_toNat_le.mp inv.read_le, le_iff_toNat_le.mp inv.write_le, le_iff_toNat_le.mp inv.capacity_le⟩

theorem Buffer.Inv.readable (inv : b.Inv) :
    (b.writeIndex - b.readIndex).toNat = b.writeIndex.toNat - b.readIndex.toNat :=
  toNat_sub_of_le _ _ inv.read_le

theorem length_unread (inv : b.Inv) : b.unread.length = b.writeIndex.toNat - b.readIndex.toNat := by
  obtain ⟨h₁, h₂, -⟩ := inv.bounds
  refine length_slice ?_
  rw [inv.storage]
  omega

theorem length_bytesAt {data : Option (Nat → UInt8)} {size : UInt64}
    (h : ¬ (size ≠ 0 ∧ data.isNone)) : (bytesAt data size).length = size.toNat := by
  cases data with
  | none =>
    have hz : size = 0 := not_not.mp fun hne => h ⟨hne, rfl⟩
    rw [hz]
    rfl
  | some m => rw [bytesAt, length_map, length_range]

theorem length_secureClear {data : List UInt8} {pos n : Nat} (h : pos + n ≤ data.length) :
    (secureClear data pos n).length = data.length :=
  length_overwrite (by rw [length_replicate]; exact h)

section

variable (inv : b.Inv)
include inv

theorem leaves_append (data : Option (Nat → UInt8)) (size : UInt64) :
    b.Leaves (b.unread ++ bytesAt data size) (b.append data size) := by
  obtain ⟨h₁, h₂, -⟩ := inv.bounds
  unfold Buffer.append
  split
  · exact .inl ⟨by simp, rfl⟩
  rename_i hnull
  have hlen := length_bytesAt hnull
  split
  · rename_i e he
    refine .inl ⟨?_, rfl⟩
    rw [(checkedU64Add_error he).1]
    simp
  · rename_i next hadd
    have hnext := checkedU64Add_ok hadd
    split
    · rename_i hrange
      have hfit := checkedSizeRange_ok hrange
      -- with no bytes the copy is skipped, and it would have changed nothing
      have hdata : (if size ≠ 0 then overwrite b.data b.writeIndex.toNat (bytesAt data size)
          else b.data) = overwrite b.data b.writeIndex.toNat (bytesAt data size) := by
        split
        · rfl
        rename_i hz
        have hnil : bytesAt data size = [] := by
          rw [← length_eq_zero_iff, hlen, not_not.mp hz, toNat_zero]
        rw [hnil, overwrite, List.append_nil, length_nil, Nat.add_zero, take_append_drop]
      refine .inr ⟨rfl, ⟨?_, ?_, ?_, inv.capacity_le⟩, ?_⟩
      · show List.length (if size ≠ 0 then _ else _) = _
        rw [hdata, length_overwrite (by rw [hlen, inv.storage]; exact hfit)]
        exact inv.storage
      · show b.readIndex ≤ next
        rw [le_iff_toNat_le, hnext]
        omega
      · show next ≤ b.capacity
        rw [le_iff_toNat_le, hnext]
        exact hfit
      · show slice (if size ≠ 0 then _ else _) b.readIndex.toNat (next.toNat - b.readIndex.toNat) = _
        have hsplit : next.toNat - b.readIndex.toNat =
            (b.writeIndex.toNat - b.readIndex.toNat) + (bytesAt data size).length := by
          rw [hnext, hlen]
          omega
        have hw : b.readIndex.toNat + (b.writeIndex.toNat - b.readIndex.toNat) = b.writeIndex.toNat := by omega
        have hle : b.writeIndex.toNat ≤ b.data.length := by rw [inv.storage]; exact h₂
        rw [hdata, hsplit, slice_add, hw, slice_overwrite hle, slice_overwrite_of_le hw.le hle]
        rfl
    · rename_i hne
      exact .inl ⟨hne, rfl⟩

/-- **A consume removes bytes at the front**, and only bytes that are there. -/
theorem leaves_consume (size : UInt64) : b.Leaves (b.unread.drop size.toNat) (b.consume size) := by
  obtain ⟨h₁, h₂, h₃⟩ := inv.bounds
  unfold Buffer.consume
  split
  · rename_i hrange
    have hfit := checkedSizeRange_ok hrange
    have hread : (b.readIndex + size).toNat = b.readIndex.toNat + size.toNat := by
      rw [UInt64.toNat_add, Nat.mod_eq_of_lt (by omega)]
    have hclear : (secureClear b.data b.readIndex.toNat size.toNat).length = b.capacity.toNat := by
      rw [length_secureClear (by rw [inv.storage]; omega)]
      exact inv.storage
    have hdrop : b.unread.drop size.toNat = slice b.data (b.readIndex.toNat + size.toNat)
          (b.writeIndex.toNat - b.readIndex.toNat - size.toNat) := drop_slice ..
    dsimp only
    split
    · rename_i hall
      refine .inr ⟨rfl, ⟨hclear, le_refl _, zero_le, inv.capacity_le⟩, ?_⟩
      have hz : b.writeIndex.toNat - b.readIndex.toNat - size.toNat = 0 := by
        rw [← hall, hread]
        omega
      rw [hdrop, hz]
      rfl
    · refine .inr ⟨rfl, ⟨hclear, ?_, inv.write_le, inv.capacity_le⟩, ?_⟩
      · show b.readIndex + size ≤ b.writeIndex
        rw [le_iff_toNat_le, hread]
        exact hfit
      · show slice (secureClear b.data b.readIndex.toNat size.toNat) (b.readIndex + size).toNat
          (b.writeIndex.toNat - (b.readIndex + size).toNat) = _
        rw [hdrop, hread, Nat.sub_add_eq]
        refine slice_overwrite_of_ge ?_ ?_
        · rw [length_replicate]
        · rw [inv.storage]
          omega
  · rename_i hne
    exact .inl ⟨hne, rfl⟩

theorem leaves_compact : b.Leaves b.unread b.compact := by
  obtain ⟨h₁, h₂, -⟩ := inv.bounds
  have hr := inv.readable
  have hlen := length_unread inv
  have hsub : b.writeIndex - b.readIndex ≤ b.writeIndex := by
    rw [le_iff_toNat_le, hr]
    omega
  have htail : (b.writeIndex - (b.writeIndex - b.readIndex)).toNat = b.readIndex.toNat := by
    rw [toNat_sub_of_le _ _ hsub, hr]
    omega
  rw [Buffer.compact]
  rw [htail, hr]
  -- the bytes before the old tail is cleared
  generalize hm : (if b.writeIndex - b.readIndex ≠ 0 ∧ b.readIndex ≠ 0 then
    overwrite b.data 0 (slice b.data b.readIndex.toNat (b.writeIndex.toNat - b.readIndex.toNat))
    else b.data) = moved
  have hmoved : moved.length = b.capacity.toNat ∧ slice moved 0 b.unread.length = b.unread := by
    rw [← hm]
    split
    · refine ⟨?_, slice_overwrite (Nat.zero_le _)⟩
      rw [length_overwrite, inv.storage]
      show 0 + b.unread.length ≤ _
      rw [hlen, inv.storage]
      omega
    · rename_i hno
      refine ⟨inv.storage, ?_⟩
      by_cases hz : b.readIndex = 0
      · rw [hlen]
        unfold Buffer.unread
        rw [hz]
        rfl
      · have hnone : b.writeIndex - b.readIndex = 0 := not_not.mp fun hne => hno ⟨hne, hz⟩
        have hnil : b.unread = [] := by
          rw [← length_eq_zero_iff, hlen, ← hr, hnone, toNat_zero]
        rw [hnil, length_nil, slice_zero]
  refine .inr ⟨rfl, ⟨?_, zero_le, ?_, inv.capacity_le⟩, ?_⟩
  · show (secureClear moved _ _).length = _
    rw [length_secureClear (by rw [hmoved.1]; omega), hmoved.1]
  · exact le_trans hsub inv.write_le
  · show slice (secureClear moved _ _) (0 : UInt64).toNat
      ((b.writeIndex - b.readIndex).toNat - (0 : UInt64).toNat) = _
    rw [hr, toNat_zero, Nat.sub_zero]
    rw [hlen] at hmoved
    refine (slice_overwrite_of_le (Nat.zero_add _).le ?_).trans hmoved.2
    rw [hmoved.1]
    omega

theorem leaves_replaceStorage (capacity : UInt64) (storage : Allocation)
    (hfit : b.unread.length ≤ capacity.toNat) (hmax : capacity ≤ Buffer.maxCapacity) :
    b.Leaves b.unread (b.replaceStorage capacity storage) ∧ ((b.replaceStorage capacity storage).1 = .ok →
        (b.replaceStorage capacity storage).2.capacity = capacity ∧
        (b.replaceStorage capacity storage).2.writeIndex.toNat = b.unread.length) := by
  have hr := inv.readable
  have hlen := length_unread inv
  unfold Buffer.replaceStorage
  split
  · exact ⟨.inl ⟨by simp, rfl⟩, by simp⟩
  rename_i memory
  have hc : (bytesAt (some memory) capacity).length = capacity.toNat := by
    rw [bytesAt, length_map, length_range]
  refine ⟨.inr ⟨rfl, ⟨?_, zero_le, ?_, hmax⟩, ?_⟩, fun _ => ⟨rfl, by rw [hlen]; exact hr⟩⟩
  · show List.length (if b.writeIndex - b.readIndex ≠ 0 then _ else _) = _
    split
    · rw [length_overwrite, hc]
      rw [Nat.zero_add, hc, hr]
      exact hfit
    · exact hc
  · show b.writeIndex - b.readIndex ≤ capacity
    rw [le_iff_toNat_le, hr, ← hlen]
    exact hfit
  · show slice (if b.writeIndex - b.readIndex ≠ 0 then _ else _) (0 : UInt64).toNat
      ((b.writeIndex - b.readIndex).toNat - (0 : UInt64).toNat) = _
    rw [toNat_zero, Nat.sub_zero, hr]
    split
    · have hback : slice (overwrite (bytesAt (some memory) capacity) 0 b.unread) 0 b.unread.length =
          b.unread := slice_overwrite (Nat.zero_le _)
      rw [hlen] at hback
      exact hback
    · rename_i hz
      have hzero : b.writeIndex.toNat - b.readIndex.toNat = 0 := by
        rw [← hr, not_not.mp hz, toNat_zero]
      rw [hzero, slice_zero, length_eq_zero_iff.mp (hlen.trans hzero)]

/-- **A reserve keeps the unread bytes and, when it succeeds, has made the room.** -/
theorem leaves_reserve (minTailSpace : UInt64) (storage : Allocation) :
    b.Leaves b.unread (b.reserve minTailSpace storage) ∧
      ((b.reserve minTailSpace storage).1 = .ok →
        minTailSpace ≤ (b.reserve minTailSpace storage).2.inspect.tailSpace) := by
  have hr := inv.readable
  have hlen := length_unread inv
  unfold Buffer.reserve
  dsimp only
  split
  · rename_i e he
    rw [(checkedU64Add_error he).1]
    exact ⟨.inl ⟨by simp, rfl⟩, by simp⟩
  · rename_i required hadd
    have hreq := checkedU64Add_ok hadd
    rw [hr] at hreq
    split
    · exact ⟨.inl ⟨by simp, rfl⟩, by simp⟩
    rename_i hmax
    have hmax' := not_lt.mp hmax
    split
    · rename_i htail
      exact ⟨.inr ⟨rfl, inv, rfl⟩, fun _ => htail⟩
    · split
      · rename_i hcap
        refine ⟨leaves_compact inv, fun _ => ?_⟩
        -- the room behind the moved bytes is the capacity less their length
        show minTailSpace ≤ b.capacity - (b.writeIndex - b.readIndex)
        have hcap' := le_iff_toNat_le.mp hcap
        have hle : b.writeIndex - b.readIndex ≤ b.capacity := by
          rw [le_iff_toNat_le, hr]
          omega
        rw [le_iff_toNat_le, toNat_sub_of_le _ _ hle, hr]
        omega
      · split
        · rename_i e he
          refine ⟨.inl ⟨?_, rfl⟩, fun hok => ?_⟩
          all_goals
            split at he
            · obtain rfl := (checkedU64Mul_error he).1
              simp at *
            · cases he
        · rename_i next hnext
          have hnext' : next ≤ Buffer.maxCapacity := by
            split at hnext
            · rename_i hhalf
              have hmul := checkedU64Mul_ok hnext
              have hhalf' := le_iff_toNat_le.mp hhalf
              rw [le_iff_toNat_le, hmul]
              exact Nat.le_trans (Nat.mul_le_mul_right 2 hhalf') (by decide)
            · rw [← Except.ok.inj hnext]
              exact le_refl _
          generalize hcap : (if next < required then required else next) = capacity
          have hge : required ≤ capacity ∧ capacity ≤ Buffer.maxCapacity := by
            rw [← hcap]
            split
            · exact ⟨le_refl _, hmax'⟩
            · rename_i hlt
              exact ⟨not_lt.mp hlt, hnext'⟩
          have hge' := le_iff_toNat_le.mp hge.1
          obtain ⟨hleaves, hok⟩ := leaves_replaceStorage inv capacity storage (by omega) hge.2
          refine ⟨hleaves, fun hrc => ?_⟩
          obtain ⟨hc, hw⟩ := hok hrc
          rcases hleaves with ⟨hne, -⟩ | ⟨-, inv', -⟩
          · exact absurd hrc hne
          show minTailSpace ≤ _ - _
          rw [le_iff_toNat_le, toNat_sub_of_le _ _ inv'.write_le, hc, hw]
          omega

theorem leaves_shrink (capacity : UInt64) (storage : Allocation) :
    b.Leaves b.unread (b.shrink capacity storage) := by
  rw [Buffer.shrink]
  split
  · exact .inl ⟨by simp, rfl⟩
  rename_i hrange
  rw [not_or, not_or, gt_iff_lt, not_lt, not_lt] at hrange
  obtain ⟨-, hle, hfit⟩ := hrange
  split
  · exact .inr ⟨rfl, inv, rfl⟩
  · have hfit' := le_iff_toNat_le.mp hfit
    rw [inv.readable, ← length_unread inv] at hfit'
    exact (leaves_replaceStorage inv _ storage hfit' (le_trans hle inv.capacity_le)).1

theorem peek_unread : (b.peek.1.getD []) = b.unread ∧ b.peek.2.toNat = b.unread.length := by
  have hr := inv.readable
  refine ⟨?_, by rw [length_unread inv]; exact hr⟩
  rw [Buffer.peek]
  split
  · rename_i hz
    refine (length_eq_zero_iff.mp ?_).symm
    rw [length_unread inv, ← hr, hz, toNat_zero]
  · rw [hr]
    rfl

end

/-- The room behind the unread bytes. -/
def Buffer.room (b : Buffer) : Nat := b.capacity.toNat - b.writeIndex.toNat

theorem inspect_eq (inv : b.Inv) :
    b.inspect.readableSize.toNat = b.unread.length ∧ b.inspect.tailSpace.toNat = b.room :=
  ⟨(peek_unread inv).2, toNat_sub_of_le _ _ inv.write_le⟩

theorem length_unread_le (inv : b.Inv) : b.unread.length ≤ b.capacity.toNat := by
  obtain ⟨h₁, h₂, -⟩ := inv.bounds
  rw [length_unread inv]
  omega

/-- **An append that fits succeeds**, and takes its size off the room. -/
theorem append_fits (inv : b.Inv) (data : Option (Nat → UInt8)) (size : UInt64)
    (hnull : ¬ (size ≠ 0 ∧ data.isNone)) (hfit : size.toNat ≤ b.room) :
    (b.append data size).1 = .ok ∧ (b.append data size).2.capacity = b.capacity ∧
      (b.append data size).2.room = b.room - size.toNat := by
  obtain ⟨-, h₂, h₃⟩ := inv.bounds
  unfold Buffer.room at hfit ⊢
  have hadd := @checkedU64Add_of_lt b.writeIndex size (by omega)
  have hnext := checkedU64Add_ok hadd
  unfold Buffer.append
  rw [if_neg hnull, hadd]
  rw [checkedSizeRange_of_le (by omega)]
  refine ⟨rfl, rfl, ?_⟩
  show b.capacity.toNat - (b.writeIndex + size).toNat = _
  omega

theorem consume_fits (inv : b.Inv) (size : UInt64) (hfit : size.toNat ≤ b.unread.length) :
    (b.consume size).1 = .ok := by
  obtain ⟨h₁, h₂, h₃⟩ := inv.bounds
  rw [length_unread inv] at hfit
  unfold Buffer.consume
  rw [checkedSizeRange_of_le (by omega)]
  dsimp only
  split <;> rfl

theorem capacity_consume (size : UInt64) : (b.consume size).2.capacity = b.capacity := by
  unfold Buffer.consume
  split
  · dsimp only
    split <;> rfl
  · rfl

theorem compact_fits (inv : b.Inv) : b.compact.1 = .ok ∧ b.compact.2.capacity = b.capacity ∧
      b.compact.2.room = b.capacity.toNat - b.unread.length := by
  refine ⟨rfl, rfl, ?_⟩
  show b.capacity.toNat - (b.writeIndex - b.readIndex).toNat = _
  rw [inv.readable, length_unread inv]

end Operations

/-! ## 3. Runs -/

/-- The calls on a buffer. -/
inductive BufferCall where
  | append (data : Option (Nat → UInt8)) (size : UInt64)
  | consume (size : UInt64)
  | reserve (minTailSpace : UInt64) (storage : Allocation)
  | compact
  | shrink (capacity : UInt64) (storage : Allocation)
  | peek

/-- The result of a call and the buffer it leaves. -/
def Buffer.exec (b : Buffer) : BufferCall → Result × Buffer
  | .append data size => b.append data size
  | .consume size => b.consume size
  | .reserve minTailSpace storage => b.reserve minTailSpace storage
  | .compact => b.compact
  | .shrink capacity storage => b.shrink capacity storage
  | .peek => (.ok, b)

/-- What a call that succeeded does to the ideal queue of bytes. -/
def idealQueue (q : List UInt8) : BufferCall → List UInt8
  | .append data size => q ++ bytesAt data size
  | .consume size => q.drop size.toNat
  | _ => q

/-- The buffers reached from a creation, each with the ideal queue fed the calls that succeeded. -/
inductive BufferRun : Buffer → List UInt8 → Prop
  | create {capacity : UInt64} {object : Bool} {storage : Allocation} {b : Buffer}
      (h : Buffer.create capacity object storage = .ok b) : BufferRun b []
  | call {b : Buffer} {q : List UInt8} (h : BufferRun b q) (c : BufferCall) :
      BufferRun (b.exec c).2 (if (b.exec c).1 = .ok then idealQueue q c else q)

/-- **Every call fails and changes nothing, or does what the ideal queue does.** -/
theorem leaves_exec {b : Buffer} (inv : b.Inv) (c : BufferCall) :
    b.Leaves (idealQueue b.unread c) (b.exec c) := by
  cases c with
  | append data size => exact leaves_append inv data size
  | consume size => exact leaves_consume inv size
  | reserve minTailSpace storage => exact (leaves_reserve inv minTailSpace storage).1
  | compact => exact leaves_compact inv
  | shrink capacity storage => exact leaves_shrink inv capacity storage
  | peek => exact .inr ⟨rfl, inv, rfl⟩

theorem inv_create {capacity : UInt64} {object : Bool} {storage : Allocation} {b : Buffer}
    (h : Buffer.create capacity object storage = .ok b) : b.Inv ∧ b.unread = [] := by
  unfold Buffer.create at h
  split at h
  · cases h
  rename_i hrange
  split at h
  · cases h
  split at h
  · cases h
  rename_i memory
  obtain rfl := Except.ok.inj h
  refine ⟨⟨?_, le_refl _, zero_le, ?_⟩, slice_zero ..⟩
  · show (bytesAt (some memory) capacity).length = _
    rw [bytesAt, length_map, length_range]
  · exact not_lt.mp fun hlt => hrange (.inr hlt)

theorem inv_of_bufferRun {b : Buffer} {q : List UInt8} (run : BufferRun b q) : b.Inv ∧ b.unread = q := by
  induction run with
  | create h => exact inv_create h
  | call _ c ih =>
    obtain ⟨inv, rfl⟩ := ih
    rcases leaves_exec inv c with ⟨hne, hb⟩ | ⟨hok, inv', hq⟩
    · rw [if_neg hne, hb]
      exact ⟨inv, rfl⟩
    · rw [if_pos hok]
      exact ⟨inv', hq⟩

/-- **The buffer refines a FIFO queue of bytes.** On every run the unread bytes are those of the ideal queue,
    and a peek shows them; a consume succeeds exactly when the queue has the bytes; and a call that fails
    changes nothing. -/
theorem buffer_refines {b : Buffer} {q : List UInt8} (run : BufferRun b q) :
    b.unread = q ∧ b.peek.1.getD [] = q ∧ b.peek.2.toNat = q.length ∧
    (0 ≤ b.readIndex ∧ b.readIndex ≤ b.writeIndex ∧ b.writeIndex ≤ b.capacity ∧
      b.capacity ≤ Buffer.maxCapacity) ∧
    (∀ size, (b.consume size).1 = .ok ↔ size.toNat ≤ q.length) ∧
    (∀ minTailSpace storage, (b.reserve minTailSpace storage).1 = .ok →
      minTailSpace ≤ (b.reserve minTailSpace storage).2.inspect.tailSpace) ∧
    (∀ minTailSpace storage, (b.reserve minTailSpace storage).2.unread = q) ∧
    b.compact.2.unread = q ∧
    (∀ capacity storage, (b.shrink capacity storage).2.unread = q) ∧
    ∀ c, (b.exec c).1 ≠ .ok → (b.exec c).2 = b := by
  obtain ⟨inv, rfl⟩ := inv_of_bufferRun run
  obtain ⟨hpeek, hsize⟩ := peek_unread inv
  -- what a call that means nothing to the queue leaves
  have keeps : ∀ r, b.Leaves b.unread r → r.2.unread = b.unread := by
    rintro r (⟨-, hb⟩ | ⟨-, -, hq⟩)
    · rw [hb]
    · exact hq
  refine ⟨rfl, hpeek, hsize, ⟨zero_le, inv.read_le, inv.write_le, inv.capacity_le⟩,
    fun size => ?_, fun minTailSpace storage => (leaves_reserve inv minTailSpace storage).2,
    fun minTailSpace storage => keeps _ (leaves_reserve inv minTailSpace storage).1,
    keeps _ (leaves_compact inv), fun capacity storage => keeps _ (leaves_shrink inv capacity storage),
    fun c hne => ?_⟩
  · obtain ⟨h₁, -, -⟩ := inv.bounds
    rw [length_unread inv]
    constructor
    · intro hok
      unfold Buffer.consume at hok
      split at hok
      · rename_i hrange
        have := checkedSizeRange_ok hrange
        omega
      · rename_i hne
        exact absurd hok hne
    · intro hle
      exact consume_fits inv size (by rw [length_unread inv]; exact hle)
  · rcases leaves_exec inv c with ⟨-, hb⟩ | ⟨hok, -, -⟩
    · exact hb
    · exact absurd hok hne

/-- Four bytes appended, one consumed, then a reserve that has to grow the storage. -/
theorem buffer_refines_sample :
    ∃ b, BufferRun b [2, 3, 4] ∧ b.unread = [2, 3, 4] ∧ b.capacity = 10 := by
  have hcreate : Buffer.create 4 true (some fun _ => 9) = .ok ⟨[9, 9, 9, 9], 4, 0, 0⟩ := by decide
  have run := ((BufferRun.create hcreate).call (.append (some fun n => UInt8.ofNat (n + 1)) 4)).call
    (.consume 1) |>.call (.reserve 7 (some fun _ => 9))
  exact ⟨_, run, (buffer_refines run).1, by decide⟩

end Vireo.Base
