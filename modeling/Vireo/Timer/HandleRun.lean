/-
  File:      Vireo/Timer/HandleRun.lean
  Subject:   THE OWNERS OF A PROCESS (`src/timer/handle_owner.c`): every run of their calls.
-/
import Vireo.Timer.Handle

namespace Vireo.Timer

open List HandleOwner
open Function (update update_self update_of_ne)

/-- An owner, with the handles that it handed out and those that came back. -/
structure OwnerLog where
  owner : HandleOwner
  issued : List TimerHandle
  released : List TimerHandle

/-- A call on an owner. -/
inductive HandleCall where
  | acquire
  | validate (h : TimerHandle)
  | release (h : TimerHandle)

/-- The call is made: its result and the owner after it. -/
def OwnerLog.exec (l : OwnerLog) : HandleCall → Result × OwnerLog
  | .acquire =>
    match l.owner.acquire with
    | .ok (h, o) => (.ok, { l with owner := o, issued := h :: l.issued })
    | .error e => (e, l)
  | .validate h => (l.owner.validate h, l)
  | .release h =>
    match l.owner.release h with
    | .ok o => (.ok, { l with owner := o, released := h :: l.released })
    | .error e => (e, l)

/-- The owners and the counter `last_owner_id`. -/
structure OwnerSystem where
  counter : UInt64
  owners : List OwnerLog

/-- A call in the process; `memory` says whether both allocations succeed. -/
inductive OwnerCall where
  | create (capacity maxMemoryBytes : UInt64) (memory : Bool)
  | call (k : Nat) (call : HandleCall)

namespace OwnerSystem

/-- The call is made: its result and the system after it. -/
def exec (s : OwnerSystem) : OwnerCall → Result × OwnerSystem
  | .create capacity maxMemoryBytes memory =>
    match HandleOwner.create capacity maxMemoryBytes s.counter memory with
    | (.ok o, counter) => (.ok, ⟨counter, s.owners ++ [⟨o, [], []⟩]⟩)
    | (.error e, counter) => (e, ⟨counter, s.owners⟩)
  | .call k call =>
    match s.owners[k]? with
    | none => (.invalidArgument, s)
    | some l => ((l.exec call).1, { s with owners := s.owners.set k (l.exec call).2 })

/-- The system after a sequence of calls. -/
def run (s : OwnerSystem) (calls : List OwnerCall) : OwnerSystem := calls.foldl (fun s call => (s.exec call).2) s

/-- No owner yet. -/
def initial : OwnerSystem := ⟨0, []⟩

end OwnerSystem

/-! ## 1. One owner -/

/-- What an owner keeps. -/
structure Keeps (l : OwnerLog) : Prop where
  list : ∃ free, OwnerInv l.owner free
  counted : l.owner.Counted
  named : l.owner.ownerId ≠ 0
  valid : ∀ h, l.owner.validate h = .ok ↔ h ∈ l.issued ∧ h ∉ l.released
  old : ∀ h ∈ l.issued,
    h.ownerId = l.owner.ownerId ∧ h.generation.toNat ≤ l.owner.lastGeneration.toNat
  came : ∀ h ∈ l.released, h ∈ l.issued
  once : l.issued.Nodup

section Owner

variable {l : OwnerLog} {o : HandleOwner} {h : TimerHandle}

theorem nextGeneration_eq (last : UInt64) : TimerHandle.nextGeneration last =
    if last = u64Max then .error .overflow else .ok (last + 1) := by
  unfold TimerHandle.nextGeneration checkedU64Add
  have := last.toNat_lt
  simp only [← UInt64.toNat_inj, u64Max_toNat, UInt64.toNat_one]
  split
  · rw [if_pos (by omega)]
  · rw [if_neg (by omega)]

theorem toNat_next {last : UInt64} (h : last ≠ u64Max) : (last + 1).toNat = last.toNat + 1 :=
  checkedU64Add_ok ((nextGeneration_eq last).trans (if_neg h))

section

variable (keeps : Keeps l)
include keeps

/-- **A handle that is handed out is new**, and from then on it is valid. -/
theorem keeps_acquire (e : l.owner.acquire = .ok (h, o)) :
    Keeps { l with owner := o, issued := h :: l.issued } := by
  obtain ⟨free, inv⟩ := keeps.list
  obtain ⟨hidle, hlt, free', -, inv'⟩ := ownerInv_acquire inv e
  have counted := counted_acquire inv keeps.counted e
  have hactive := active_acquire inv e
  obtain ⟨-, hid, hslot, hgeneration, rfl⟩ := acquire_cases e
  have hnew : h ∉ l.issued := fun hold => by
    have := (keeps.old h hold).2
    omega
  refine ⟨⟨free', inv'⟩, counted, keeps.named, fun x => ?_, forall_mem_cons.mpr ⟨⟨hid, Nat.le_refl _⟩,
    fun x hx => ⟨(keeps.old x hx).1, ?_⟩⟩, fun x hx => mem_cons_of_mem _ (keeps.came x hx),
    nodup_cons.mpr ⟨hnew, keeps.once⟩⟩
  · have hvalid := keeps.valid x
    rw [validate_ok_iff] at hvalid ⊢
    rw [hactive, mem_cons]
    dsimp only [HandleOwner.taken]
    by_cases hx : x.slotIndex = h.slotIndex
    · rw [hx, hslot, update_self]
      constructor
      · rintro ⟨-, hmine, -, heq⟩
        obtain rfl : x = h := TimerHandle.ext (hmine.trans hid.symm) hx heq.symm
        exact ⟨.inl rfl, fun hb => hnew (keeps.came x hb)⟩
      · rintro ⟨rfl | hold, hback⟩
        · refine ⟨⟨hid ▸ keeps.named, fun hzero => ?_⟩, hid, .inr rfl, rfl⟩
          rw [hzero] at hgeneration
          cases hgeneration
        · exact absurd (hx ▸ (hvalid.mpr ⟨hold, hback⟩).2.2.1) hidle
    · have hne : x ≠ h := fun heq => hx (congrArg _ heq)
      rw [update_of_ne (hslot ▸ hx), or_iff_left hx, hvalid, or_iff_right hne]
  · have := (keeps.old x hx).2
    show _ ≤ h.generation.toNat
    omega

/-- **A handle that comes back is no longer valid**, and every other one is what it was. -/
theorem keeps_release (e : l.owner.release h = .ok o) : Keeps { l with owner := o, released := h :: l.released } := by
  obtain ⟨free, inv⟩ := keeps.list
  have inv' := ownerInv_release inv e
  have counted := counted_release keeps.counted e
  have hactive := active_release e
  obtain ⟨hv, rfl⟩ := release_cases e
  obtain ⟨-, hmine, -, hgeneration⟩ := validate_ok_iff.mp hv
  refine ⟨⟨_, inv'⟩, counted, keeps.named, fun x => ?_, keeps.old,
    forall_mem_cons.mpr ⟨((keeps.valid h).mp hv).1, keeps.came⟩, keeps.once⟩
  rw [mem_cons, not_or, and_left_comm, ← keeps.valid x, validate_ok_iff, validate_ok_iff, hactive]
  dsimp only [HandleOwner.freed]
  by_cases hx : x.slotIndex = h.slotIndex
  · constructor
    · exact fun hv => absurd hx hv.2.2.1.2
    · rintro ⟨hne, -, hsame, -, heq⟩
      rw [hx, hgeneration] at heq
      exact absurd (TimerHandle.ext (hsame.trans hmine.symm) hx heq.symm) hne
  · have hne : x ≠ h := fun heq => hx (congrArg _ heq)
    rw [update_of_ne hx, and_iff_left hx, and_iff_right hne]

/-- **What an acquire comes to**: the generations are used up, or every slot is in use, or it succeeds. -/
theorem acquire_verdict :
    (l.owner.lastGeneration = u64Max ∧ l.owner.acquire = .error .overflow) ∨ l.owner.lastGeneration ≠ u64Max ∧
      ((∀ i, i < l.owner.capacity → (l.owner.slots i).active = true) ∧ l.owner.acquire = .error .busy ∨
        (¬ ∀ i, i < l.owner.capacity → (l.owner.slots i).active = true) ∧
          ∃ h o, l.owner.acquire = .ok (h, o)) := by
  obtain ⟨free, inv⟩ := keeps.list
  unfold acquire
  rw [nextGeneration_eq, ← (ownerInv_iff.mp inv).1.head_eq_nil]
  by_cases hlast : l.owner.lastGeneration = u64Max
  · rw [if_pos hlast]
    exact .inl ⟨hlast, rfl⟩
  refine .inr ⟨hlast, ?_⟩
  rw [if_neg hlast]
  dsimp only
  by_cases hnil : l.owner.freeHead = u64Max
  · rw [if_pos hnil]
    exact .inl ⟨hnil, rfl⟩
  · rw [if_neg hnil]
    exact .inr ⟨hnil, _, _, rfl⟩

/-- **What a call keeps**: generations that are used up stay so, and a call that fails changes nothing. -/
theorem keeps_exec (call : HandleCall) : Keeps (l.exec call).2 ∧
    (l.exec call).2.owner.ownerId = l.owner.ownerId ∧
    (l.owner.lastGeneration = u64Max → (l.exec call).2.owner.lastGeneration = u64Max) ∧
    ((l.exec call).1 ≠ .ok → (l.exec call).2 = l) := by
  have same : ∀ r : Result, Keeps (r, l).2 ∧ (r, l).2.owner.ownerId = l.owner.ownerId ∧
      (l.owner.lastGeneration = u64Max → (r, l).2.owner.lastGeneration = u64Max) ∧
      ((r, l).1 ≠ .ok → (r, l).2 = l) := fun r => ⟨keeps, rfl, id, fun _ => rfl⟩
  unfold OwnerLog.exec
  cases call with
  | acquire =>
    dsimp only
    split
    · rename_i h o e
      refine ⟨keeps_acquire keeps e, ?_, fun hlast => ?_, fun hbad => absurd rfl hbad⟩
      · obtain ⟨-, -, -, -, rfl⟩ := acquire_cases e
        rfl
      · have hover := ((acquire_verdict keeps).resolve_right fun hb => hb.1 hlast).2
        rw [e] at hover
        cases hover
    · exact same _
  | validate h => exact same _
  | release h =>
    dsimp only
    split
    · rename_i o e
      have keeps' := keeps_release keeps e
      obtain ⟨-, rfl⟩ := release_cases e
      exact ⟨keeps', rfl, id, fun hbad => absurd rfl hbad⟩
    · exact same _

end

theorem keeps_create {capacity maxMemoryBytes counter : UInt64} {memory : Bool} (hid : o.ownerId ≠ 0)
    (e : (create capacity maxMemoryBytes counter memory).1 = .ok o) : Keeps ⟨o, [], []⟩ := by
  obtain ⟨hfree, hno⟩ := ownerInv_create e
  refine ⟨hfree, counted_create e, hid, fun h => ⟨fun hv => ?_, fun ho => (not_mem_nil ho.1).elim⟩, nofun, nofun,
    nodup_nil⟩
  exact absurd (validate_ok_iff.mp hv).2.2.1 (hno _)

/-- What a create comes to, and what it does to the counter. -/
inductive Created (counter : UInt64) : Except Result HandleOwner × UInt64 → Prop
  | refused {e : Result} (why : e ≠ .ok) : Created counter (.error e, counter)
  | lost {e : Result} (room : counter ≠ u64Max) (why : e ≠ .ok) : Created counter (.error e, counter + 1)
  | made {o : HandleOwner} (room : counter ≠ u64Max) (named : o.ownerId = counter + 1) :
      Created counter (.ok o, counter + 1)

theorem created (capacity maxMemoryBytes counter : UInt64) (memory : Bool) :
    Created counter (create capacity maxMemoryBytes counter memory) := by
  unfold create
  rw [nextGeneration_eq]
  split
  · exact .refused (by simp)
  split
  · rename_i h
    exact .refused (by rw [(checkedU64Mul_error h).1]; simp)
  split
  · rename_i h
    exact .refused (by rw [(checkedU64Add_error h).1]; simp)
  split
  · exact .refused (by simp)
  by_cases hroom : counter = u64Max
  · rw [if_pos hroom]
    exact .refused (by simp)
  rw [if_neg hroom]
  dsimp only
  split
  · exact .made hroom rfl
  · exact .lost hroom (by simp)

end Owner

/-! ## 2. All owners -/

/-- What the owners keep: each its own, and no two have one identity. -/
structure OwnersInv (s : OwnerSystem) : Prop where
  keeps : ∀ l ∈ s.owners, Keeps l ∧ l.owner.ownerId.toNat ≤ s.counter.toNat
  apart : (s.owners.map (·.owner.ownerId)).Nodup

section System

variable {s : OwnerSystem} {k : Nat} {l : OwnerLog}

theorem map_set_self {α β : Type*} {xs : List α} {f : α → β} {i : Nat} {a b : α} (hi : xs[i]? = some a)
    (hf : f b = f a) : (xs.set i b).map f = xs.map f := by
  obtain ⟨hlt, rfl⟩ := List.getElem?_eq_some_iff.mp hi
  rw [map_set, hf, ← getElem_map f (h := by rwa [length_map]), set_getElem_self]

section

variable (inv : OwnersInv s)
include inv

theorem ownersInv_create {o : HandleOwner} (keeps : Keeps ⟨o, [], []⟩) (room : s.counter ≠ u64Max)
    (named : o.ownerId = s.counter + 1) : OwnersInv ⟨s.counter + 1, s.owners ++ [⟨o, [], []⟩]⟩ := by
  have hnext := toNat_next room
  refine ⟨forall_mem_append.mpr ⟨fun l hl => ⟨(inv.keeps l hl).1, (inv.keeps l hl).2.trans ?_⟩,
    forall_mem_singleton.mpr ⟨keeps, (congrArg UInt64.toNat named).le⟩⟩, ?_⟩
  · show _ ≤ (s.counter + 1).toNat
    omega
  · rw [map_append]
    refine (perm_append_singleton _ _).nodup_iff.mpr (nodup_cons.mpr ⟨fun hmem => ?_, inv.apart⟩)
    obtain ⟨l, hl, heq⟩ := mem_map.mp hmem
    have hle := (inv.keeps l hl).2
    rw [show l.owner.ownerId = s.counter + 1 from heq.trans named] at hle
    omega

/-- **Every call keeps the owners in order**, and one that fails leaves them as they were. -/
theorem ownersInv_exec (call : OwnerCall) : OwnersInv (s.exec call).2 ∧
    (s.counter = u64Max → (s.exec call).2.counter = u64Max) ∧
    ((s.exec call).1 ≠ .ok → (s.exec call).2.owners = s.owners) := by
  unfold OwnerSystem.exec
  cases call with
  | create capacity maxMemoryBytes memory =>
    have hcreated := created capacity maxMemoryBytes s.counter memory
    dsimp only
    generalize hmade : create capacity maxMemoryBytes s.counter memory = made at hcreated ⊢
    cases hcreated with
    | refused => exact ⟨inv, id, fun _ => rfl⟩
    | lost room =>
      have hnext := toNat_next room
      refine ⟨⟨fun l hl => ⟨(inv.keeps l hl).1, (inv.keeps l hl).2.trans ?_⟩, inv.apart⟩,
        fun hmax => absurd hmax room, fun _ => rfl⟩
      show _ ≤ (s.counter + 1).toNat
      omega
    | made room named =>
      refine ⟨ownersInv_create inv (keeps_create (fun hzero => ?_) (congrArg Prod.fst hmade)) room named,
        fun hmax => absurd hmax room, fun hbad => absurd rfl hbad⟩
      have hnext := toNat_next room
      rw [← named, hzero] at hnext
      cases hnext
  | call k call =>
    dsimp only
    split
    · exact ⟨inv, id, fun _ => rfl⟩
    rename_i l hk
    obtain ⟨keeps, hbelow⟩ := inv.keeps l (mem_of_getElem? hk)
    obtain ⟨keeps', hid, -, hfail⟩ := keeps_exec keeps call
    refine ⟨⟨fun l' hl' => ?_, ?_⟩, id, fun hbad => ?_⟩
    · rcases mem_or_eq_of_mem_set hl' with hold | rfl
      · exact inv.keeps l' hold
      · exact ⟨keeps', hid ▸ hbelow⟩
    · rw [map_set_self hk hid]
      exact inv.apart
    · dsimp only at hbad ⊢
      rw [hfail hbad, ← map_id (s.owners.set k l), map_set_self hk rfl, map_id]

theorem ownersInv_run (calls : List OwnerCall) : OwnersInv (s.run calls) ∧
    (s.counter = u64Max → (s.run calls).counter = u64Max) := by
  induction calls generalizing s with
  | nil => exact ⟨inv, id⟩
  | cons call calls ih =>
    obtain ⟨inv', hmax, -⟩ := ownersInv_exec inv call
    exact (ih inv').imp id (· ∘ hmax)

theorem usedUp_run (hk : s.owners[k]? = some l) (hlast : l.owner.lastGeneration = u64Max) (calls : List OwnerCall) :
    ∃ l', (s.run calls).owners[k]? = some l' ∧ l'.owner.lastGeneration = u64Max := by
  induction calls generalizing s l with
  | nil => exact ⟨l, hk, hlast⟩
  | cons call calls ih =>
    have step : ∃ l', (s.exec call).2.owners[k]? = some l' ∧ l'.owner.lastGeneration = u64Max := by
      unfold OwnerSystem.exec
      cases call with
      | create =>
        dsimp only
        split
        · exact ⟨l, (List.getElem?_append_left (List.getElem?_eq_some_iff.mp hk).1).trans hk, hlast⟩
        · exact ⟨l, hk, hlast⟩
      | call j call =>
        dsimp only
        split
        · exact ⟨l, hk, hlast⟩
        rename_i m hj
        by_cases hjk : j = k
        · subst hjk
          obtain rfl : m = l := Option.some.inj (hj.symm.trans hk)
          obtain ⟨-, -, hmax, -⟩ := keeps_exec (inv.keeps m (mem_of_getElem? hk)).1 call
          exact ⟨_, List.getElem?_set_self (List.getElem?_eq_some_iff.mp hk).1, hmax hlast⟩
        · exact ⟨l, (List.getElem?_set_ne hjk).trans hk, hlast⟩
    obtain ⟨l', hk', hlast'⟩ := step
    exact ih (ownersInv_exec inv call).1 hk' hlast'

theorem issued_nodup : (s.owners.flatMap (·.issued)).Nodup := by
  refine nodup_flatMap.mpr ⟨fun l hl => (inv.keeps l hl).1.once, ?_⟩
  refine (pairwise_map.mp inv.apart).imp_of_mem fun ha hb hne h hmine htheirs => hne ?_
  exact ((inv.keeps _ ha).1.old h hmine).1.symm.trans ((inv.keeps _ hb).1.old h htheirs).1

end

theorem exec_acquire (hk : s.owners[k]? = some l) (keeps : Keeps l) :
    ((s.exec (.call k .acquire)).1 = .busy ↔
      (∀ i, i < l.owner.capacity → (l.owner.slots i).active = true) ∧ l.owner.lastGeneration ≠ u64Max) ∧
    (l.owner.lastGeneration = u64Max → (s.exec (.call k .acquire)).1 = .overflow) := by
  unfold OwnerSystem.exec OwnerLog.exec
  dsimp only
  rw [hk]
  dsimp only
  obtain ⟨hlast, e⟩ | ⟨hlast, ⟨hall, e⟩ | ⟨hsome, h, o, e⟩⟩ := acquire_verdict keeps <;> rw [e]
  · exact ⟨⟨nofun, fun hb => absurd hlast hb.2⟩, fun _ => rfl⟩
  · exact ⟨⟨fun _ => ⟨hall, hlast⟩, fun _ => rfl⟩, fun hmax => absurd hmax hlast⟩
  · exact ⟨⟨nofun, fun hb => absurd hb.1 hsome⟩, fun hmax => absurd hmax hlast⟩

theorem ownersInv_initial : OwnersInv .initial := ⟨nofun, nodup_nil⟩

/-! ## 3. Every run -/

/-- **The owners in every run**: a handle is valid for the owner that handed it out until it comes back, none is
    handed out twice, and the free list and the count are exact. -/
theorem handle_owner (calls : List OwnerCall) :
    let s := OwnerSystem.initial.run calls
    (s.owners.flatMap (·.issued)).Nodup ∧
      (∀ (k : Nat) (l : OwnerLog), s.owners[k]? = some l →
        (∀ h, (s.exec (.call k (.validate h))).1 = .ok ↔ h ∈ l.issued ∧ h ∉ l.released) ∧
        (∃ free, OwnerInv l.owner free) ∧
        l.owner.activeCount.toNat = l.owner.activeSlots.length ∧
        ((s.exec (.call k .acquire)).1 = .busy ↔
          (∀ i, i < l.owner.capacity → (l.owner.slots i).active = true) ∧ l.owner.lastGeneration ≠ u64Max) ∧
        (l.owner.lastGeneration = u64Max → ∀ later, ((s.run later).exec (.call k .acquire)).1 = .overflow)) ∧
      (s.counter = u64Max → ∀ later capacity maxMemoryBytes memory,
        ((s.run later).exec (.create capacity maxMemoryBytes memory)).1 ≠ .ok) ∧
      ∀ call, (s.exec call).1 ≠ .ok → (s.exec call).2.owners = s.owners := by
  have inv := (ownersInv_run ownersInv_initial calls).1
  intro s
  refine ⟨issued_nodup inv, fun k l hk => ?_, fun hmax later capacity maxMemoryBytes memory => ?_,
    fun call => (ownersInv_exec inv call).2.2⟩
  · have keeps := (inv.keeps l (mem_of_getElem? hk)).1
    refine ⟨fun h => ?_, keeps.list, keeps.counted, (exec_acquire hk keeps).1, fun hlast later => ?_⟩
    · unfold OwnerSystem.exec OwnerLog.exec
      dsimp only
      rw [hk]
      exact keeps.valid h
    · obtain ⟨l', hk', hlast'⟩ := usedUp_run inv hk hlast later
      exact (exec_acquire hk' ((ownersInv_run inv later).1.keeps l' (mem_of_getElem? hk')).1).2 hlast'
  · have hcreated := created capacity maxMemoryBytes (s.run later).counter memory
    rw [OwnerSystem.exec]
    generalize create capacity maxMemoryBytes (s.run later).counter memory = made at hcreated ⊢
    cases hcreated with
    | refused why => exact why
    | lost _ why => exact why
    | made room => exact absurd ((ownersInv_run inv later).2 hmax) room

theorem exec_call (hk : s.owners[k]? = some l) (call : HandleCall) :
    (s.exec (.call k call)).2.owners[k]? = some (l.exec call).2 := by
  rw [OwnerSystem.exec]
  rw [hk]
  exact List.getElem?_set_self (List.getElem?_eq_some_iff.mp hk).1

theorem reach_generation (n : Nat) (hn : n + 1 < 2 ^ 64) : ∃ calls l h,
    (OwnerSystem.initial.run calls).owners[0]? = some l ∧ l.owner.capacity = 1 ∧
      l.owner.lastGeneration.toNat = n + 1 ∧ l.owner.validate h = .ok := by
  induction n with
  | zero => exact ⟨[.create 1 1000 true, .call 0 .acquire], _, ⟨1, 0, 1⟩, rfl, rfl, rfl, by decide⟩
  | succ n ih =>
    obtain ⟨calls, l, h, hk, hone, hlast, hvalid⟩ := ih (by omega)
    have keeps := ((ownersInv_run ownersInv_initial calls).1.keeps l (mem_of_getElem? hk)).1
    -- the handle comes back, and the slot is taken again
    have e₁ := release_eq hvalid
    have keeps₁ := keeps_release keeps e₁
    have hslot := (validate_ok_iff.mp hvalid).2.2.1.1
    have hfree := (active_release e₁ h.slotIndex).not.mpr fun ha => ha.2 rfl
    obtain ⟨hmax, -⟩ | ⟨-, ⟨hall, -⟩ | ⟨-, h', o, e₂⟩⟩ := acquire_verdict keeps₁
    · have hmax := congrArg UInt64.toNat (show l.owner.lastGeneration = u64Max from hmax)
      rw [hlast, u64Max_toNat] at hmax
      omega
    · exact absurd ⟨hslot, hall _ hslot⟩ hfree
    have keeps₂ := keeps_acquire keeps₁ e₂
    obtain ⟨-, -, -, hgeneration, htaken⟩ := acquire_cases e₂
    refine ⟨calls ++ [.call 0 (.release h), .call 0 .acquire], ⟨o, h' :: l.issued, h :: l.released⟩, h', ?_,
      (congrArg (·.capacity) htaken).trans hone,
      (congrArg (·.lastGeneration.toNat) htaken).trans (hgeneration.trans (congrArg (· + 1) hlast)),
      (keeps₂.valid h').mpr ⟨mem_cons_self .., fun hb => (nodup_cons.mp keeps₂.once).1 (keeps₁.came h' hb)⟩⟩
    have hl := exec_call hk (.release h)
    rw [OwnerLog.exec] at hl
    rw [e₁] at hl
    have hl₂ := exec_call hl .acquire
    unfold OwnerLog.exec at hl₂
    rw [e₂] at hl₂
    unfold OwnerSystem.run
    rw [foldl_append]
    exact hl₂

/-- An owner whose slots are all in use refuses as `OVERFLOW`, not as `BUSY`, when its generations are used
    up. -/
theorem full_not_always_busy : ¬ ∀ calls (k : Nat) (l : OwnerLog),
    (OwnerSystem.initial.run calls).owners[k]? = some l →
      (((OwnerSystem.initial.run calls).exec (.call k .acquire)).1 = .busy ↔
        ∀ i, i < l.owner.capacity → (l.owner.slots i).active = true) := by
  intro claim
  obtain ⟨calls, l, h, hk, hone, hlast, hvalid⟩ := reach_generation (2 ^ 64 - 2) (by decide)
  have inv := (ownersInv_run ownersInv_initial calls).1
  obtain ⟨-, -, hactive, -⟩ := validate_ok_iff.mp hvalid
  have hbusy := (claim calls 0 l hk).mpr fun i hi => by
    have hslot := hactive.1
    rw [hone, UInt64.lt_iff_toNat_lt, UInt64.toNat_one] at hi hslot
    obtain rfl : i = h.slotIndex := UInt64.toNat_inj.mp (by omega)
    exact hactive.2
  rw [(exec_acquire hk (inv.keeps l (mem_of_getElem? hk)).1).2
    (UInt64.toNat_inj.mp (hlast.trans u64Max_toNat.symm))] at hbusy
  cases hbusy

end System

end Vireo.Timer
